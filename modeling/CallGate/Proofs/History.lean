import CallGate.Passage
import CallGate.Proofs.Journal
import CallGate.Proofs.Stream

/-!
# What happens in a call

The history of a call lists, in order, what its handler does and what the call comes to. It holds what
cannot be seen in the last state of a run: which elements the channel took, how the handler ended, and
what the result was. Main statements: `Turn.run_keeps` reduces what holds after a turn to single deeds
of the handler, and `Turn.run_held` says that a turn adds to the stream exactly the elements that its
history lists as taken.
-/

namespace CallGate

/-- What can happen in a call: its handler is invoked and does something, waits or ends, and the call
comes to its result. Of what is offered, it is noted what became of it. -/
inductive Happening (α : Type) where
  | invoked (context : Context)
  | asked (inquiry : Inquiry)
  | profileSet (principal : PrincipalId) (locale : Locale)
  | fired (token : TokenId)
  | offered (value : α) (offer : Offer)
  | waited
  | ended (ending : Ending α)
  | settled (result : CallResult α)

/-- What happened in a call, the first thing first. -/
abbrev History (α : Type) := List (Happening α)

namespace Happening

variable {α : Type}

def context? : Happening α → Option Context
  | invoked context => some context
  | _ => none

def inquiry? : Happening α → Option Inquiry
  | asked inquiry => some inquiry
  | _ => none

def taken? : Happening α → Option α
  | offered value .sent => some value
  | _ => none

def ending? : Happening α → Option (Ending α)
  | ended ending => some ending
  | _ => none

def result? : Happening α → Option (CallResult α)
  | settled result => some result
  | _ => none

end Happening

namespace History

variable {α : Type}

/-- The contexts with which the handler was invoked. -/
def contexts (h : History α) : List Context := h.filterMap Happening.context?

/-- The questions that the handler asked. -/
def inquiries (h : History α) : List Inquiry := h.filterMap Happening.inquiry?

/-- The elements of the handler that the channel took. -/
def taken (h : History α) : List α := h.filterMap Happening.taken?

/-- How the handler ended. -/
def ending? (h : History α) : Option (Ending α) := h.findSome? Happening.ending?

/-- The result of the call. -/
def result? (h : History α) : Option (CallResult α) := h.findSome? Happening.result?

/-- The status with which the call failed. -/
def failure? (h : History α) : Option Status :=
  match h.result? with
  | some (.error status) => some status
  | _ => none

variable (h h' : History α)

@[simp] theorem contexts_append : contexts (h ++ h') = contexts h ++ contexts h' :=
  List.filterMap_append

@[simp] theorem inquiries_append : inquiries (h ++ h') = inquiries h ++ inquiries h' :=
  List.filterMap_append

@[simp] theorem taken_append : taken (h ++ h') = taken h ++ taken h' := List.filterMap_append

@[simp] theorem ending?_append : ending? (h ++ h') = (ending? h).or (ending? h') :=
  List.findSome?_append

@[simp] theorem result?_append : result? (h ++ h') = (result? h).or (result? h') :=
  List.findSome?_append

end History

/-! ## Turns of a handler -/

/-- What happens in a turn of a handler. -/
def Turn.happenings {α σ : Type} : Turn α σ → Scene α → History α
  | wait _, _ => [.waited]
  | finish _ ending, _ => [.ended ending]
  | ask p question next, s =>
    let answer := s.world.answer p question
    .asked ⟨p, question, answer⟩ :: (next answer).happenings (s.onWorld fun w => w.ask p question)
  | readProfile p next, s => (next (s.world.profile p)).happenings s
  | setProfile p locale next, s =>
    .profileSet p locale :: next.happenings (s.onWorld fun w => w.setProfile p locale)
  | readToken t next, s => (next (s.world.isFired t)).happenings s
  | fire t next, s => .fired t :: next.happenings (s.onWorld fun w => w.fire t)
  | offer value next, s =>
    .offered value s.verdict :: (next s.verdict).happenings (s.offer (.element value))
  | readStream next, s => (next s.streamGone).happenings s

/-- The ending, if a handler has ended. -/
def Progress.ending? {α σ : Type} : Progress α σ → Option (Ending α)
  | waiting _ => none
  | ended _ ending => some ending

/-- A single deed of a handler, with what happens and the scene afterwards. What a handler only looks
at leaves no trace. -/
inductive Deed {α : Type} : Scene α → Happening α → Scene α → Prop where
  | ask (s : Scene α) (p : PrincipalId) (question : Requirement) :
      Deed s (.asked ⟨p, question, s.world.answer p question⟩) (s.onWorld fun w => w.ask p question)
  | setProfile (s : Scene α) (p : PrincipalId) (locale : Locale) :
      Deed s (.profileSet p locale) (s.onWorld fun w => w.setProfile p locale)
  | fire (s : Scene α) (t : TokenId) : Deed s (.fired t) (s.onWorld fun w => w.fire t)
  | offer (s : Scene α) (value : α) : Deed s (.offered value s.verdict) (s.offer (.element value))
  | wait (s : Scene α) : Deed s .waited s
  | finish (s : Scene α) (ending : Ending α) : Deed s (.ended ending) s

namespace Turn

variable {α σ : Type}

/-- What every deed of a handler keeps is kept by a turn. -/
theorem run_keeps {P : Scene α → History α → Prop}
    (deed : ∀ {s e s' h}, Deed s e s' → P s h → P s' (h ++ [e])) (t : Turn α σ) {s : Scene α}
    {h : History α} (hP : P s h) : P (t.run s).2 (h ++ t.happenings s) := by
  -- A happening comes before those of the rest of the turn, so the history grows at its end.
  have cons {s s' : Scene α} {e : Happening α} {h rest : History α} (hd : Deed s e s') (hP : P s h)
      {s'' : Scene α} (ih : P s' (h ++ [e]) → P s'' (h ++ [e] ++ rest)) : P s'' (h ++ e :: rest) := by
    rw [List.append_cons]
    exact ih (deed hd hP)
  induction t generalizing s h with
  | wait state => exact deed (.wait s) hP
  | finish state ending => exact deed (.finish s ending) hP
  | ask p question next ih => exact cons (.ask s p question) hP (ih _)
  | readProfile p next ih => exact ih _ hP
  | setProfile p locale next ih => exact cons (.setProfile s p locale) hP ih
  | readToken t next ih => exact ih _ hP
  | fire t next ih => exact cons (.fire s t) hP ih
  | offer value next ih => exact cons (.offer s value) hP (ih _)
  | readStream next ih => exact ih _ hP

/-- The history of a turn knows how the handler has ended, if it has. -/
theorem ending?_happenings (t : Turn α σ) (s : Scene α) :
    (t.happenings s).ending? = (t.run s).1.ending? := by
  induction t generalizing s with
  | wait | finish => rfl
  | ask p question next ih => exact ih _ _
  | readProfile p next ih => exact ih _ _
  | setProfile p locale next ih => exact ih _
  | readToken t next ih => exact ih _ _
  | fire t next ih => exact ih _
  | offer value next ih => exact ih _ _
  | readStream next ih => exact ih _ _

/-- A turn neither invokes a handler nor settles a call. -/
theorem happenings_quiet (t : Turn α σ) (s : Scene α) :
    (t.happenings s).contexts = [] ∧ (t.happenings s).result? = none := by
  refine t.run_keeps (P := fun _ h => h.contexts = [] ∧ h.result? = none) ?_ (s := s) (h := [])
    ⟨rfl, rfl⟩
  intro s e s' h hd hP
  rw [History.contexts_append, History.result?_append, hP.1, hP.2]
  cases hd <;> exact ⟨rfl, rfl⟩

/-- A turn adds to the journal the questions that its history lists, and no invocation. -/
theorem run_journal (t : Turn α σ) (s : Scene α) :
    (t.run s).2.world.inquiries = s.world.inquiries ++ (t.happenings s).inquiries ∧
      (t.run s).2.world.invocations = s.world.invocations := by
  refine t.run_keeps (P := fun s' h => s'.world.inquiries = s.world.inquiries ++ h.inquiries ∧
    s'.world.invocations = s.world.invocations) ?_ (h := []) ⟨(List.append_nil _).symm, rfl⟩
  rintro s₁ e s₂ h hd ⟨hq, hi⟩
  rw [History.inquiries_append, ← List.append_assoc, ← hq, ← hi]
  cases hd <;> simp [History.inquiries, Happening.inquiry?]

/-- A turn adds to the stream the elements that its history lists as taken. -/
theorem run_held (t : Turn α σ) (s : Scene α) :
    (t.run s).2.held = s.held ++ (t.happenings s).taken.map .element := by
  refine t.run_keeps (P := fun s' h => s'.held = s.held ++ h.taken.map .element) ?_ (h := [])
    (List.append_nil _).symm
  intro s₁ e s₂ h hd hP
  rw [History.taken_append, List.map_append, ← List.append_assoc, ← hP]
  cases hd with
  | offer value =>
    rw [Scene.held_offer]
    cases s₁.verdict <;> rfl
  | _ => simp [History.taken, Happening.taken?]

/-- Of the channel, a turn changes nothing but what it holds. -/
theorem run_channel (t : Turn α σ) (s : Scene α) :
    (t.run s).2.streamGone = s.streamGone ∧ (t.run s).2.sinks = s.sinks := by
  refine t.run_keeps (P := fun s' _ => s'.streamGone = s.streamGone ∧ s'.sinks = s.sinks) ?_
    (h := []) ⟨rfl, rfl⟩
  intro s₁ e s₂ h hd hP
  cases hd <;> simpa using hP

/-- Once the stream is gone, no element is taken. -/
theorem taken_eq_nil (t : Turn α σ) {s : Scene α} (hs : s.streamGone = true) :
    (t.happenings s).taken = [] := by
  have hP := t.run_keeps (P := fun s' h => s'.streamGone = true ∧ h.taken = []) ?_ (h := [])
    ⟨hs, rfl⟩
  · exact hP.2
  rintro s₁ e s₂ h hd ⟨hg, ht⟩
  rw [History.taken_append, ht]
  cases hd with
  | offer value =>
    rw [(Scene.verdict_eq_refused_iff s₁).mpr hg]
    exact ⟨(s₁.streamGone_offer _).trans hg, rfl⟩
  | _ => exact ⟨hg, rfl⟩

end Turn

end CallGate
