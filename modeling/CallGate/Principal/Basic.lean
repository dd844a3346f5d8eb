import CallGate.Principal.Grants
import CallGate.Locale.Basic

/-!
# Principals

A principal is somebody in whose name calls are made. Asked whether it may do what a method
requires, it answers yes or no; the answer may depend on the questions that it was asked before. A
principal also has a profile, which holds the locale that it was last seen with.
-/

namespace CallGate

/-- The name under which a principal is known. -/
abbrev PrincipalId := String

/-- How a principal answers: from the earlier questions, the last one first, and the present one. -/
abbrev Judgement := (earlier : List Requirement) → (question : Requirement) → Bool

/-- The judgement of a principal that may do what it was granted. -/
def Grants.judgement (g : Grants) : Judgement := fun _ question => g.covers question

/-- The judgement that gives prepared answers in turn, and the last of them for ever. Without any,
it is always negative. -/
def preparedJudgement (answers : List Bool) : Judgement := fun earlier _ =>
  (answers[earlier.length]?.or answers.getLast?).getD false

/-- A principal at one moment. -/
structure Principal where
  /-- How the principal answers. -/
  judgement : Judgement
  /-- The questions that the principal was asked so far, the last one first. -/
  asked : List Requirement
  /-- The locale in the profile. -/
  profile : Option Locale

namespace Principal

/-- A principal that was not asked anything yet and has an empty profile. -/
def fresh (judgement : Judgement) : Principal := ⟨judgement, [], none⟩

/-- A principal that may do nothing. -/
def powerless : Principal := fresh fun _ _ => false

instance : Inhabited Principal := ⟨powerless⟩

/-- The answer to a question. -/
def answer (p : Principal) (question : Requirement) : Bool := p.judgement p.asked question

/-- The principal after a question. -/
def afterQuestion (p : Principal) (question : Requirement) : Principal :=
  { p with asked := question :: p.asked }

end Principal

end CallGate
