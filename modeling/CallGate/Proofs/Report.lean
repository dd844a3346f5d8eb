import CallGate.Proofs.Share
import CallGate.Proofs.Uniformity

/-!
# Reports of calls

What a turn of a call comes to can be reported without saying what the handler of the call is like. The
reports of all turns explain where the call is: it has not had a turn yet, or it was refused, or it was
let in and goes on or fails as its handler fares. Main statements: `explained_step` says what a turn
adds, and `explainedBy_callReports` that in any traffic the reports of a call explain where it is.
-/

namespace CallGate

variable {α σ : Type}

/-- What can be told of a turn of a call, whatever its handler is like: what the gate changes before and
after the handler has worked, how the handler fares, and how the call fails, if it comes to its
result. -/
structure TurnReport where
  opening : List Change
  closing : List Change
  fates : List TurnFate
  failures : List (Option Status)

/-- The status with which a call fails whose handler fares like that in its last turn. -/
def Shape.failure? (shape : Shape) (fate : TurnFate) : Option Status :=
  if fate.isCancelled then (shape.cancelled : CallResult Unit).failure? else fate.status?

theorem TurnEnd.failure?_shape_result (shape : Shape) {t : TurnEnd α} (hl : t.isLast = true) :
    (shape.result t.ending).failure? = shape.failure? t.fate := by
  unfold Shape.failure?
  cases hc : t.isCancelled with
  | true =>
    rw [Shape.result_of_isCancelled shape hc, t.isCancelled_fate, hc]
    cases shape <;> rfl
  | false =>
    rw [TurnEnd.failure?_result shape hl hc, t.isCancelled_fate, hc]
    rfl

namespace Job

variable (j : Job α σ)

def report (call : Passage α σ) (s : Scene α) : TurnReport where
  opening := j.entryChanges call s
  closing := j.closeChanges (j.work call s).1 (j.work call s).2
  fates := (j.turnEnd? call s).toList.map TurnEnd.fate
  failures :=
    if call.result?.isSome then [] else ((j.step call s).1.result?.map CallResult.failure?).toList

/-- What has been told of the turns of a call explains where it is. The gate may have let the call in,
or refused it, in any world. -/
inductive Explained (j : Job α σ) : Passage α σ → List Change → List Change → List TurnFate →
    List (Option Status) → Prop where
  | arrived : Explained j .arrived [] [] [] []
  | refused {w : World} {status : Status} {last? : Option σ}
      (refused : (j.gate.enter j.shape j.call w).1 = .error status) :
      Explained j (.settled last? (.error status)) (j.gate.enterChanges j.shape j.call w) [] []
        [some status]
  | running {w : World} {ctx : Context} {state : σ} {fates : List TurnFate}
      (admitted : (j.gate.enter j.shape j.call w).1 = .ok ctx) (turned : fates ≠ [])
      (goesOn : ∀ fate ∈ fates, fate.isLast = false) :
      Explained j (.running (j.span ctx) state)
        (j.gate.enterChanges j.shape j.call w ++ [.noted (.invoked ctx)]) [] fates []
  | settled {w : World} {ctx : Context} {last? : Option σ} {result : CallResult α}
      {before : List TurnFate} {fate : TurnFate}
      (admitted : (j.gate.enter j.shape j.call w).1 = .ok ctx)
      (goesOn : ∀ fate ∈ before, fate.isLast = false) (ends : fate.isLast = true) :
      Explained j (.settled last? result)
        (j.gate.enterChanges j.shape j.call w ++ [.noted (.invoked ctx)])
        (logChanges (some (j.span ctx)) fate.event?.toList) (before ++ [fate])
        [j.shape.failure? fate]

variable {j}

theorem explained_close {w : World} {ctx : Context} {fates : List TurnFate}
    (admitted : (j.gate.enter j.shape j.call w).1 = .ok ctx)
    (goesOn : ∀ fate ∈ fates, fate.isLast = false) (progress : Progress α σ) (s : Scene α) :
    let t : TurnEnd α := ⟨progress.ending?, s.world.isFired j.call.token⟩
    let after := (j.close (.worked (j.span ctx) progress) s).1
    j.Explained after (j.gate.enterChanges j.shape j.call w ++ [.noted (.invoked ctx)])
      (j.closeChanges (.worked (j.span ctx) progress) s) (fates ++ [t.fate])
      (after.result?.map CallResult.failure?).toList := by
  intro t after
  have hclosing : j.closeChanges (.worked (j.span ctx) progress) s =
      logChanges (some (j.span ctx)) t.fate.event?.toList := by
    rw [t.event?_fate]
    rfl
  have settled (last? : Option σ) (hl : t.isLast = true) :
      j.Explained (.settled last? (j.shape.result t.ending))
        (j.gate.enterChanges j.shape j.call w ++ [.noted (.invoked ctx)])
        (j.closeChanges (.worked (j.span ctx) progress) s) (fates ++ [t.fate])
        [(j.shape.result t.ending).failure?] := by
    rw [hclosing, TurnEnd.failure?_shape_result j.shape hl]
    exact .settled admitted goesOn (t.isLast_fate.trans hl)
  have hafter := j.close_worked_fst (j.span ctx) progress s
  rw [show after = _ from hafter]
  cases progress with
  | ended last ending => exact settled (some last) rfl
  | waiting state =>
    dsimp only at settled hclosing ⊢
    cases hf : s.world.isFired j.call.token with
    | true => exact settled (some state) hf
    | false =>
      have hfate : t.fate = .goesOn := by
        simp [t, TurnEnd.fate, Progress.ending?, hf]
      have hnothing : logChanges (some (j.span ctx)) t.fate.event?.toList = [] := by
        rw [hfate]
        rfl
      rw [hclosing, hnothing]
      refine .running admitted (by simp) fun fate hm => ?_
      rcases List.mem_append.mp hm with hm | hm
      · exact goesOn fate hm
      · rw [List.mem_singleton.mp hm, hfate]
        rfl

/-- A turn adds its report to what explains where a call is. -/
theorem explained_step {call : Passage α σ} {opening closing : List Change} {fates : List TurnFate}
    {failures : List (Option Status)} (hE : j.Explained call opening closing fates failures)
    (s : Scene α) :
    let report := j.report call s
    j.Explained (j.step call s).1 (opening ++ report.opening) (closing ++ report.closing)
      (fates ++ report.fates) (failures ++ report.failures) := by
  intro report
  cases hE with
  | arrived =>
    simp only [report, Job.report, step_eq, entryChanges, turnEnd?, work, List.nil_append]
    cases hentered : (j.gate.enter j.shape j.call s.world).1 with
    | error status =>
      rw [invocation, List.append_nil]
      exact .refused hentered
    | ok ctx => exact explained_close hentered (List.forall_mem_nil _) _ _
  | running ha hturned hgo =>
    simp only [report, Job.report, step_eq, entryChanges, turnEnd?, work, List.nil_append,
      List.append_nil]
    exact explained_close ha hgo _ _
  | refused hr =>
    rw [show report = ⟨[], [], [], []⟩ from rfl]
    simp only [List.append_nil]
    exact .refused hr
  | settled ha hgo hl =>
    rw [show report = ⟨[], [], [], []⟩ from rfl]
    simp only [List.append_nil]
    exact .settled ha hgo hl

/-- The reports of its turns explain where a call is. -/
structure ExplainedBy (j : Job α σ) (call : Passage α σ) (reports : List TurnReport) : Prop where
  arrived : call = .arrived → reports = []
  /-- A gate has changed all that it changes to let a call in before the handler works. -/
  inOrder : (reports.flatMap fun report => report.opening ++ report.closing) =
    reports.flatMap TurnReport.opening ++ reports.flatMap TurnReport.closing
  explained : j.Explained call (reports.flatMap TurnReport.opening)
    (reports.flatMap TurnReport.closing) (reports.flatMap TurnReport.fates)
    (reports.flatMap TurnReport.failures)

theorem explainedBy_step {call : Passage α σ} {reports : List TurnReport}
    (hE : j.ExplainedBy call reports) (s : Scene α) :
    j.ExplainedBy (j.step call s).1 (reports ++ [j.report call s]) := by
  refine ⟨fun h => absurd h (step_ne_arrived call s), ?_, ?_⟩
  · simp only [List.flatMap_append, List.flatMap_singleton, hE.inOrder]
    by_cases hcall : call = .arrived
    · rw [hE.arrived hcall]
      rfl
    · have hopening : (j.report call s).opening = [] := by
        cases call with
        | arrived => exact absurd rfl hcall
        | running | settled => rfl
      rw [hopening]
      simp
  · simp only [List.flatMap_append, List.flatMap_singleton]
    exact explained_step hE.explained s

/-- Nothing has been told of a call that has not had a turn. Any other was let in as soon as its handler
has had one, and then has ended as its handler has. -/
theorem ExplainedBy.of_fates {call : Passage α σ} {reports : List TurnReport}
    (hE : j.ExplainedBy call reports) :
    let fates := reports.flatMap TurnReport.fates
    fates = [] ∧ (reports = [] ∨ ∃ w status, (j.gate.enter j.shape j.call w).1 = .error status) ∨
      fates ≠ [] ∧ ∃ w ctx, (j.gate.enter j.shape j.call w).1 = .ok ctx ∧
        reports.flatMap TurnReport.opening =
          j.gate.enterChanges j.shape j.call w ++ [.noted (.invoked ctx)] ∧
        reports.flatMap TurnReport.closing =
          logChanges (some (j.span ctx)) (fates.findSome? TurnFate.event?).toList ∧
        reports.flatMap TurnReport.failures =
          ((fates.find? TurnFate.isLast).map j.shape.failure?).toList := by
  obtain ⟨harrived, -, hE⟩ := hE
  intro fates
  change j.Explained call _ _ fates _ at hE
  have goesOn {fates : List TurnFate} (h : ∀ fate ∈ fates, fate.isLast = false) :
      fates.find? TurnFate.isLast = none ∧ fates.findSome? TurnFate.event? = none := by
    rw [List.find?_eq_none]
    exact ⟨fun fate hf => by rw [h fate hf]; exact Bool.false_ne_true,
      TurnFate.findSome?_event?_of_goesOn h⟩
  generalize fates = fates' at hE ⊢
  generalize reports.flatMap TurnReport.opening = opening at hE ⊢
  generalize reports.flatMap TurnReport.closing = closing at hE ⊢
  generalize reports.flatMap TurnReport.failures = failures at hE ⊢
  cases hE with
  | arrived => exact Or.inl ⟨rfl, Or.inl (harrived rfl)⟩
  | refused hr => exact Or.inl ⟨rfl, Or.inr ⟨_, _, hr⟩⟩
  | running ha hturned hgo =>
    refine Or.inr ⟨hturned, _, _, ha, rfl, ?_, ?_⟩
    · rw [(goesOn hgo).2]
      rfl
    · rw [(goesOn hgo).1]
      rfl
  | settled ha hgo hl =>
    rename_i before fate
    obtain ⟨hfind, hfindSome⟩ := goesOn hgo
    refine Or.inr ⟨List.append_ne_nil_of_right_ne_nil before (List.cons_ne_nil fate []), _, _, ha, rfl,
      ?_, ?_⟩
    · rw [List.findSome?_append, hfindSome, List.findSome?_singleton, Option.none_or]
    · rw [List.find?_append, hfind, List.find?_singleton, if_pos hl]
      rfl

end Job

namespace Undertaking

/-- What is reported of the turns that a call has in a move. -/
def reports (g : Gate) (move : Move) (w : World) (u : Undertaking) : List TurnReport :=
  u.collect (fun j call s => [j.report call s]) g move w

/-- The reports of its turns explain where a call is. A served call may be past its result. -/
def ExplainedBy (g : Gate) (reports : List TurnReport) : Undertaking → Prop
  | direct shape call handler x => Job.ExplainedBy ⟨g, shape, call, handler⟩ x.call reports
  | served shape call handler x =>
    ∃ passage, (x.call.call? = some passage ∨ x.call.call? = none ∧ passage.result? ≠ none) ∧
      Job.ExplainedBy ⟨g, shape, call, handler⟩ passage reports

variable {g : Gate}

theorem explainedBy_fresh {u : Undertaking} (hu : Traffic.Fresh u) : u.ExplainedBy g [] := by
  cases hu with
  | direct => exact ⟨fun _ => rfl, rfl, .arrived⟩
  | served => exact ⟨.arrived, Or.inl rfl, ⟨fun _ => rfl, rfl, .arrived⟩⟩

theorem explainedBy_step {u : Undertaking} {reports : List TurnReport} (move : Move) (w : World)
    (hE : u.ExplainedBy g reports) :
    (u.step g move w).1.ExplainedBy g (reports ++ u.reports g move w) := by
  by_cases hm : ∃ order, move = .turn order
  · obtain ⟨order, rfl⟩ := hm
    cases u with
    | direct shape call handler x => exact Job.explainedBy_step hE _
    | served shape call handler x =>
      let j : Job _ _ := ⟨g, shape, call, handler⟩
      let Q (passage : Passage _ _) (_ : World) (course : Course _ _) : Prop :=
        j.ExplainedBy passage (reports ++ course.flatMap fun turn => [j.report turn.1 turn.2])
      have inside {passage s course} (hQ : Q passage s.world course) :
          Q (j.step passage s).1 (j.step passage s).2.world (course ++ [(passage, s)]) := by
        simp only [Q, List.flatMap_append, List.flatMap_singleton, ← List.append_assoc]
        exact Job.explainedBy_step hQ s
      obtain ⟨passage, hv, hE⟩ := hE
      have hQ : Job.Satisfies Q x.call (x.inWorld w).scene.world [] := by
        refine ⟨passage, hv, ?_⟩
        simp only [Q, List.flatMap_nil, List.append_nil]
        exact hE
      exact Job.satisfies_serve (Q := Q) inside (fun _ hQ => hQ) order hQ
  · have hnone : u.reports g move w = [] := by
      cases move with
      | turn order => exact absurd ⟨order, rfl⟩ hm
      | _ => cases u <;> rfl
    rw [hnone, List.append_nil]
    have hbeside {α τ : Type} (turn : TurnOrder → τ → Scene α → τ × Scene α) (x : Exchange α τ) :
        ((x.inWorld w).step turn move).call = x.call :=
      (Exchange.beside_step turn (x.inWorld w) fun order h => hm ⟨order, h⟩).call
    cases u with
    | direct shape call handler x =>
      simp only [step, ExplainedBy, hbeside]
      exact hE
    | served shape call handler x =>
      simp only [step, ExplainedBy, hbeside]
      exact hE

theorem ExplainedBy.of_fates {u : Undertaking} {reports : List TurnReport}
    (hE : u.ExplainedBy g reports) :
    let fates := reports.flatMap TurnReport.fates
    fates = [] ∧ (reports = [] ∨ ∃ w status, (g.enter u.shape u.call w).1 = .error status) ∨
      fates ≠ [] ∧ ∃ w ctx, (g.enter u.shape u.call w).1 = .ok ctx ∧
        reports.flatMap TurnReport.opening =
          g.enterChanges u.shape u.call w ++ [.noted (.invoked ctx)] ∧
        reports.flatMap TurnReport.closing = logChanges (some (Gate.admittedSpan u.call ctx))
          (fates.findSome? TurnFate.event?).toList ∧
        reports.flatMap TurnReport.failures =
          ((fates.find? TurnFate.isLast).map u.shape.failure?).toList := by
  cases u with
  | direct shape call handler x => exact Job.ExplainedBy.of_fates hE
  | served shape call handler x =>
    obtain ⟨passage, -, hE⟩ := hE
    exact hE.of_fates

end Undertaking

namespace Traffic

/-- What is reported of the turns of one call in a run. -/
def callReports (g : Gate) (n : Nat) (w : World) (incidents : List Incident) : List TurnReport :=
  share (fun move w u => u.reports g move w) g n (start w) incidents

theorem explainedBy_callReports {g : Gate} {n : Nat} {w : World} {incidents : List Incident}
    {u : Undertaking} (hu : ((start w).run g incidents).calls[n]? = some u) :
    u.ExplainedBy g (callReports g n w incidents) :=
  run_keeps_call (I := fun u reports => u.ExplainedBy g reports)
    (fun _ => Undertaking.explainedBy_fresh) Undertaking.explainedBy_step w incidents hu

end Traffic

end CallGate
