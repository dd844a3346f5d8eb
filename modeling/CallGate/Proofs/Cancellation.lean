import CallGate.Proofs.Mediation

/-!
# How calls end

The handler of a call and its token race: whichever is found first, at the end of a turn of the
handler, decides what becomes of the call. Main statements: `result_eq_outcome` spells out what a call comes to
when its handler ends in one way or another, `polled_step` says what one turn adds to the turns of a
handler, and `cancellation_outcome` that in every run the first turn after which the handler has ended,
or at whose end the token is fired, is its last one and gives the result, and that a call which ends as
cancelled logs nothing but what is of interest to developers.
-/

namespace CallGate

variable {α σ : Type}

/-- How a turn of a handler ends: how the handler has ended, if it has, and whether the token of its
call is fired then. -/
structure TurnEnd (α : Type) where
  ending : Option (Ending α)
  fired : Bool

namespace TurnEnd

/-- The handler has ended or is dropped. -/
def isLast (t : TurnEnd α) : Bool := t.ending.isSome || t.fired

/-- The handler is dropped, or has found its call cancelled. -/
def isCancelled (t : TurnEnd α) : Bool :=
  match t.ending with
  | none => t.fired
  | some (.failed .cancelled) => true
  | some _ => false

theorem isLast_of_isCancelled {t : TurnEnd α} (h : t.isCancelled = true) : t.isLast = true := by
  rcases t with ⟨_ | ending, fired⟩
  · exact h
  · rfl

theorem ending_of_isCancelled {t : TurnEnd α} (h : t.isCancelled = true) :
    t.ending = none ∨ t.ending = some (.failed .cancelled) := by
  rcases t with ⟨_ | value | (_ | _ | _ | _) | payload, fired⟩
  · exact Or.inl rfl
  · cases h
  · cases h
  · cases h
  · cases h
  · exact Or.inr rfl
  · cases h

theorem ending_of_not_isLast {t : TurnEnd α} (h : t.isLast = false) : t.ending = none := by
  rcases t with ⟨_ | ending, fired⟩
  · rfl
  · cases h

/-- The event tells of the failure with which the handler has ended in the turn. -/
def Reports (t : TurnEnd α) (e : Event) : Prop :=
  ∃ f, t.ending.bind Ending.failure? = some f ∧ e = f.event

theorem not_reports_of_isCancelled {t : TurnEnd α} (h : t.isCancelled = true) (e : Event) :
    ¬ t.Reports e := by
  rintro ⟨f, hf, -⟩
  rcases ending_of_isCancelled h with he | he <;> rw [he] at hf <;> cases hf

theorem not_reports_of_not_isLast {t : TurnEnd α} (h : t.isLast = false) (e : Event) :
    ¬ t.Reports e := by
  rintro ⟨f, hf, -⟩
  rw [ending_of_not_isLast h] at hf
  cases hf

end TurnEnd

namespace Shape

/-- What a call comes to whose handler has ended like that, or was dropped. A call with one response
hands the value of the handler over, and a call with a stream completes. A status that the handler hands
on is passed as it is; a complaint travels in the details of a status, and of an error or a panic nothing
is told. A call that was cancelled fails if it has no stream, and completes if it has one. -/
def outcome (shape : Shape) : Option (Ending α) → CallResult α
  | some (.returned value) =>
    match shape with
    | .unary => .ok (.value value)
    | .serverStreaming | .duplex => .ok .completed
  | some (.failed (.handedOn status)) => .error status
  | some (.failed (.complaint c)) =>
    .error { code := .internal, message := "A business rule was violated.",
             details := utf8Bytes (StringList.encode c.messages) }
  | some (.failed (.unexpected _)) | some (.panicked _) =>
    .error { code := .internal, message := "An error occurs." }
  | some (.failed .cancelled) | none =>
    match shape with
    | .unary => .error { code := .cancelled, message := "Call cancelled." }
    | .serverStreaming | .duplex => .ok .completed

theorem result_eq_outcome (shape : Shape) (ending? : Option (Ending α)) :
    shape.result ending? = shape.outcome ending? := by
  rcases ending? with _ | value | (status | c | chain | _) | payload
  · cases shape <;> rfl
  · cases shape <;> rfl
  · rfl
  · rfl
  · rfl
  · cases shape <;> rfl
  · rfl

end Shape

theorem Shape.result_of_isCancelled (shape : Shape) {t : TurnEnd α} (h : t.isCancelled = true) :
    shape.result t.ending = shape.cancelled := by
  rcases TurnEnd.ending_of_isCancelled h with he | he <;> rw [he] <;> rfl

/-- In a list of turns that is cut off after its last one, the last one is found first. -/
theorem TurnEnd.find?_isLast {before : List (TurnEnd α)} (h : ∀ t ∈ before, t.isLast = false)
    {last : TurnEnd α} (hl : last.isLast = true) :
    (before ++ [last]).find? TurnEnd.isLast = some last := by
  have hnone : before.find? TurnEnd.isLast = none := by
    rw [List.find?_eq_none]
    intro t ht
    rw [h t ht]
    exact Bool.false_ne_true
  rw [List.find?_append, hnone, List.find?_singleton, if_pos hl]
  rfl

namespace Job

variable (j : Job α σ)

/-- How the handler's turn ends, if it has one in this turn of the call. -/
def turnEnd? (call : Passage α σ) (s : Scene α) : Option (TurnEnd α) :=
  match j.work call s with
  | (.worked _ progress, s) => some ⟨progress.ending?, s.world.isFired j.call.token⟩
  | _ => none

/-- How the turns of the handler end in the course of a call, the first one first. -/
def turnEnds (course : Course α σ) : List (TurnEnd α) :=
  course.filterMap fun turn => j.turnEnd? turn.1 turn.2

theorem turnEnds_append (course : Course α σ) (call : Passage α σ) (s : Scene α) :
    j.turnEnds (course ++ [(call, s)]) = j.turnEnds course ++ (j.turnEnd? call s).toList := by
  rw [turnEnds, List.filterMap_append, turnEnds]
  cases h : j.turnEnd? call s <;> simp [h]

/-- The turns of its handler explain where a call is that was made in the world `w`. -/
inductive Polled (j : Job α σ) (w : World) : Passage α σ → World → List (TurnEnd α) → Prop where
  | arrived {after : World} (decides : w.DecidesAlike after) : Polled j w .arrived after []
  | running {span : Span} {state : σ} {after : World} {ends : List (TurnEnd α)}
      (admitted : j.gate.admits j.shape j.call w = true) (turned : ends ≠ [])
      (goesOn : ∀ t ∈ ends, t.isLast = false) : Polled j w (.running span state) after ends
  | refused {last? : Option σ} {after : World} (refused : j.gate.admits j.shape j.call w = false) :
      Polled j w (.settled last? (.error j.call.refusal)) after []
  | settled {last? : Option σ} {after : World} {before : List (TurnEnd α)} {t : TurnEnd α}
      (admitted : j.gate.admits j.shape j.call w = true) (goesOn : ∀ t ∈ before, t.isLast = false)
      (ends : t.isLast = true) :
      Polled j w (.settled last? (j.shape.result t.ending)) after (before ++ [t])

variable {j}

theorem polled_close {w after : World} (ends : List (TurnEnd α))
    (ha : j.gate.admits j.shape j.call w = true) (hends : ∀ t ∈ ends, t.isLast = false) (span : Span)
    (progress : Progress α σ) (s : Scene α) :
    j.Polled w (j.close (.worked span progress) s).1 after
      (ends ++ [⟨progress.ending?, s.world.isFired j.call.token⟩]) := by
  rw [close_worked_fst]
  cases progress with
  | ended last ending => exact .settled (t := ⟨some ending, _⟩) ha hends rfl
  | waiting state =>
    dsimp only
    cases hf : s.world.isFired j.call.token with
    | true => exact .settled (t := ⟨none, true⟩) ha hends rfl
    | false =>
      refine .running ha (by simp) fun t ht => ?_
      rcases List.mem_append.mp ht with ht | ht
      · exact hends t ht
      · cases List.mem_singleton.mp ht
        rfl

/-- A turn of a call adds the turn of its handler to those that explain where the call is. -/
theorem polled_step {w : World} {call : Passage α σ} {s : Scene α} {ends : List (TurnEnd α)}
    (hP : j.Polled w call s.world ends) :
    j.Polled w (j.step call s).1 (j.step call s).2.world (ends ++ (j.turnEnd? call s).toList) := by
  rw [step_eq]
  cases hP with
  | arrived hd =>
    -- Nothing has happened since the call was made that the gate's decision depends on.
    rw [List.nil_append]
    simp only [turnEnd?, work]
    cases ha : j.gate.admits j.shape j.call s.world with
    | false =>
      rw [Gate.enter_of_not_admits ha]
      exact .refused (Gate.admits_congr hd ▸ ha)
    | true =>
      obtain ⟨ctx, hctx, -⟩ := Gate.enter_of_admits ha
      rw [hctx]
      exact polled_close [] (Gate.admits_congr hd ▸ ha) (List.forall_mem_nil _) _ _ _
  | running ha _ hends => exact polled_close _ ha hends _ _ _
  | refused hr => exact .refused hr
  | settled ha hends hl => exact (List.append_nil _).symm ▸ .settled ha hends hl

theorem polled_aside {w after after' : World} {call : Passage α σ} {ends : List (TurnEnd α)}
    (ha : after.Aside after') (hP : j.Polled w call after ends) : j.Polled w call after' ends := by
  cases hP with
  | arrived hd => exact .arrived (hd.trans ha.decides)
  | running ha hne hends => exact .running ha hne hends
  | refused hr => exact .refused hr
  | settled ha hends hl => exact .settled ha hends hl

/-! ## Whole runs -/

/-- Of what is logged in a turn, only what its resolver logs and the failure of the handler need not be
quiet. -/
theorem logs_step (call : Passage α σ) (s : Scene α) :
    s.world.Logs (fun e => j.gate.Says j.call e ∨ ∃ t ∈ (j.turnEnd? call s).toList, t.Reports e)
      (j.step call s).2.world := by
  have hwork := j.logs_work call s
  rw [step_eq]
  unfold turnEnd?
  generalize j.work call s = worked at hwork ⊢
  obtain ⟨stage, s'⟩ := worked
  refine (hwork.mono fun e he => Or.inl he).trans ?_
  cases stage with
  | refused | past => exact .refl _
  | worked span progress =>
    refine (j.logs_close span progress s').mono fun e he => ?_
    rcases he with he | he
    · exact Or.inl (Or.inl he)
    · exact Or.inr ⟨_, List.mem_singleton_self _, he⟩

/-- The course of a call that was made in the world `w` explains where it is and what was logged. -/
structure Pursued (j : Job α σ) (w : World) (call : Passage α σ) (after : World)
    (course : Course α σ) : Prop where
  polled : j.Polled w call after (j.turnEnds course)
  logs : w.Logs (fun e => j.gate.Says j.call e ∨ ∃ t ∈ j.turnEnds course, t.Reports e) after
  accounts : j.Accounts call (j.historyOf course)

theorem pursued_start (w : World) : j.Pursued w .arrived w [] := ⟨.arrived (.refl w), .refl w, rfl⟩

theorem pursued_step {w : World} {call : Passage α σ} {s : Scene α} {course : Course α σ}
    (h : j.Pursued w call s.world course) :
    j.Pursued w (j.step call s).1 (j.step call s).2.world (course ++ [(call, s)]) := by
  obtain ⟨hpolled, hlogs, haccounts⟩ := h
  constructor
  · rw [turnEnds_append]
    exact polled_step hpolled
  · rw [turnEnds_append]
    refine (hlogs.mono ?_).trans ((logs_step call s).mono ?_)
    · rintro e (he | ⟨t, ht, he⟩)
      · exact Or.inl he
      · exact Or.inr ⟨t, List.mem_append_left _ ht, he⟩
    · rintro e (he | ⟨t, ht, he⟩)
      · exact Or.inl he
      · exact Or.inr ⟨t, List.mem_append_right _ ht, he⟩
  · rw [historyOf_append]
    exact accounts_step haccounts s

theorem pursued_aside {w : World} {call : Passage α σ} {after after' : World}
    {course : Course α σ} (ha : after.Aside after') (h : j.Pursued w call after course) :
    j.Pursued w call after' course := by
  obtain ⟨hpolled, hlogs, haccounts⟩ := h
  exact ⟨polled_aside ha hpolled, hlogs.trans (ha.logs fun e he => Or.inl (Or.inl he)), haccounts⟩

/-- What becomes of a call that was made in the world `w`, when its handler's turns end as `ends` says:
a call that may be made comes to the result of the first turn after which the handler has ended, or at
whose end the token is fired, and its handler gets no turn after it. If the call ends as cancelled,
all that was logged is of interest to developers only, and no failure was presented. -/
structure Concluded (j : Job α σ) (w after : World) (ends : List (TurnEnd α))
    (result? : Option (CallResult α)) : Prop where
  refused : ¬ j.Granted w → ends = [] ∧ result? = some (.error j.call.refusal)
  turned : j.Granted w → ends ≠ []
  decided : j.Granted w →
    result? = (ends.find? TurnEnd.isLast).map fun t => j.shape.outcome t.ending
  final : ∀ t ∈ ends.dropLast, t.isLast = false
  cancelled : ∀ t ∈ ends, t.isCancelled = true → result? = some (j.shape.outcome none) ∧
    (∀ entry ∈ after.entriesSince w, j.gate.Says j.call entry.event) ∧
    ∀ r : Registry, j.gate.resolver = r.resolver →
      ∀ entry ∈ after.entriesSince w, entry.event.Quiet

theorem quiet_of_says {e : Event} (he : j.gate.Says j.call e) {r : Registry}
    (hr : j.gate.resolver = r.resolver) : e.Quiet := by
  rcases he with he | he
  · exact he
  · rw [hr] at he
    exact r.quiet_resolver _ _ e he

/-- If one turn ends as cancelled, no other tells of a failure. -/
theorem says_of_isCancelled {w after : World} {before : List (TurnEnd α)} {t : TurnEnd α}
    (hbefore : ∀ t ∈ before, t.isLast = false) (ht : t.isCancelled = true)
    (hlogs : w.Logs (fun e => j.gate.Says j.call e ∨ ∃ t' ∈ before ++ [t], t'.Reports e) after) :
    ∀ entry ∈ after.entriesSince w, j.gate.Says j.call entry.event := by
  intro entry hentry
  rcases hlogs.entriesSince entry hentry with he | ⟨t', ht', he⟩
  · exact he
  · rcases List.mem_append.mp ht' with ht' | ht'
    · exact absurd he (TurnEnd.not_reports_of_not_isLast (hbefore t' ht') _)
    · cases List.mem_singleton.mp ht'
      exact absurd he (TurnEnd.not_reports_of_isCancelled ht _)

theorem concluded_of_running {w after : World} {ends : List (TurnEnd α)}
    (ha : j.gate.admits j.shape j.call w = true) (hturned : ends ≠ [])
    (hends : ∀ t ∈ ends, t.isLast = false) : j.Concluded w after ends none := by
  have hnone : ends.find? TurnEnd.isLast = none := by
    rw [List.find?_eq_none]
    exact fun t ht => hends t ht ▸ Bool.false_ne_true
  constructor
  · exact fun hg => absurd (granted_iff.mpr ha) hg
  · exact fun _ => hturned
  · intro _
    rw [hnone]
    rfl
  · exact fun t ht => hends t (List.dropLast_subset _ ht)
  · intro t ht hc
    have hl := TurnEnd.isLast_of_isCancelled hc
    rw [hends t ht] at hl
    cases hl

theorem concluded_of_refused {w after : World} (hr : j.gate.admits j.shape j.call w = false) :
    j.Concluded w after [] (some (.error j.call.refusal)) := by
  have hg : ¬ j.Granted w := by
    rw [granted_iff, hr]
    exact Bool.false_ne_true
  constructor
  · exact fun _ => ⟨rfl, rfl⟩
  · exact fun h => absurd h hg
  · exact fun h => absurd h hg
  · exact List.forall_mem_nil _
  · exact List.forall_mem_nil _

theorem concluded_of_settled {w after : World} {before : List (TurnEnd α)} {last : TurnEnd α}
    (ha : j.gate.admits j.shape j.call w = true) (hbefore : ∀ t ∈ before, t.isLast = false)
    (hl : last.isLast = true)
    (hlogs : w.Logs (fun e => j.gate.Says j.call e ∨ ∃ t ∈ before ++ [last], t.Reports e) after) :
    j.Concluded w after (before ++ [last]) (some (j.shape.result last.ending)) := by
  constructor
  · exact fun hg => absurd (granted_iff.mpr ha) hg
  · exact fun _ => by simp
  · intro _
    rw [TurnEnd.find?_isLast hbefore hl, Shape.result_eq_outcome]
    rfl
  · rw [List.dropLast_concat]
    exact hbefore
  · intro t ht hc
    -- Only the last turn can be the one with which the call is cancelled.
    have heq : t = last := by
      rcases List.mem_append.mp ht with ht | ht
      · have hl' := TurnEnd.isLast_of_isCancelled hc
        rw [hbefore t ht] at hl'
        cases hl'
      · exact List.mem_singleton.mp ht
    subst heq
    have hsaid := says_of_isCancelled hbefore hc hlogs
    have hresult : j.shape.result t.ending = j.shape.outcome none :=
      (j.shape.result_of_isCancelled hc).trans (j.shape.result_eq_outcome none)
    refine ⟨congrArg some hresult, hsaid, ?_⟩
    exact fun r hr entry he => quiet_of_says (hsaid entry he) hr

theorem concluded_of_pursued {w after : World} {call : Passage α σ} {course : Course α σ}
    (h : j.Pursued w call after course) (hne : call ≠ .arrived) :
    j.Concluded w after (j.turnEnds course) call.result? := by
  obtain ⟨hpolled, hlogs, -⟩ := h
  generalize j.turnEnds course = ends at hpolled hlogs ⊢
  cases hpolled with
  | arrived => exact absurd rfl hne
  | running ha hturned hends => exact concluded_of_running ha hturned hends
  | refused hr => exact concluded_of_refused hr
  | settled ha hbefore hl => exact concluded_of_settled ha hbefore hl hlogs

theorem pursued_direct (j : Job α σ) (w : World) (outbox : Option (Channel (Delivery α)))
    (moves : List Move) :
    let start : Exchange α (Passage α σ) := .ofCall w outbox
    let x := start.run j.directTurn moves
    j.Pursued w x.call x.scene.world (j.directCourse start moves) :=
  j.direct_run (Q := j.Pursued w) pursued_step pursued_aside (.ofCall w outbox) (pursued_start w) moves

theorem pursued_served (j : Job α σ) (w : World) (capacity : Capacity) (moves : List Move) :
    let start : Exchange α (Serving α σ) := .ofService w capacity
    let x := start.run j.serve moves
    Satisfies (j.Pursued w) x.call x.scene.world (j.servedCourse start moves) :=
  served_satisfies (Q := j.Pursued w) pursued_step pursued_aside (.ofService w capacity)
    ⟨.arrived, Or.inl rfl, pursued_start w⟩ moves

theorem concluded_served (j : Job α σ) (w : World) (capacity : Capacity) {moves : List Move}
    (turned : ∃ order, .turn order ∈ moves) :
    let start : Exchange α (Serving α σ) := .ofService w capacity
    let x := start.run j.serve moves
    j.Concluded w x.scene.world (j.turnEnds (j.servedCourse start moves))
      (j.servedHistory start moves).result? := by
  intro start x
  obtain ⟨call, hv, hP⟩ := j.pursued_served w capacity moves
  have hne : x.call.call? ≠ some .arrived :=
    Exchange.run_turned (P := fun v => v.call? ≠ some .arrived) serve_turned turned start
  rw [servedHistory_eq, ← hP.accounts.result?]
  refine concluded_of_pursued hP ?_
  rintro rfl
  rcases hv with hv | ⟨-, hr⟩
  · exact hne hv
  · exact hr rfl

/-- A call with a stream that ends as cancelled puts no failure on it. -/
theorem not_failure_mem_of_cancelled {x : Exchange α (Serving α σ)} {h : History α}
    (hS : j.Served x.received x.call x.scene h) (hs : j.shape ≠ .unary)
    (hr : h.result? = some (j.shape.outcome none)) (status : Status) :
    .failure status ∉ x.received ++ x.scene.held := by
  obtain ⟨call, -, hprefix⟩ := hS.carried_prefix
  have hd : h.deliveries = h.taken.map .element := by
    rw [History.deliveries, History.failure?, hr]
    cases hshape : j.shape with
    | unary => exact absurd hshape hs
    | serverStreaming | duplex => exact List.append_nil _
  intro hm
  obtain ⟨value, -, hvalue⟩ := List.mem_map.mp (hd ▸ hprefix.subset hm)
  cases hvalue

/-- In every run, whenever the token is fired, the handler of a call that may be made has its first
turn, and its turns are decided by the first one after which it has ended or at whose end the token is
fired: nothing follows it, and the call comes to the outcome of the handler's ending, or of its being
dropped if it has not ended. A cancelled call without a stream fails with that, and one with a stream
completes; it logs nothing above the debug level and presents no failure, unless its resolver does. -/
theorem cancellation_outcome (j : Job α σ) (w : World) (moves : List Move)
    (turned : ∃ order, .turn order ∈ moves) :
    let onCancelled : CallResult α :=
      match j.shape with
      | .unary => .error { code := .cancelled, message := "Call cancelled." }
      | .serverStreaming | .duplex => .ok .completed
    (∀ outbox,
      let start : Exchange α (Passage α σ) := .ofCall w outbox
      let x := start.run j.directTurn moves
      let ends := j.turnEnds (j.directCourse start moves)
      j.Concluded w x.scene.world ends x.call.result? ∧
        ∀ t ∈ ends, t.isCancelled = true → x.call.result? = some onCancelled) ∧
    ∀ capacity,
      let start : Exchange α (Serving α σ) := .ofService w capacity
      let x := start.run j.serve moves
      let ends := j.turnEnds (j.servedCourse start moves)
      j.Concluded w x.scene.world ends (j.servedHistory start moves).result? ∧
        (j.shape ≠ .unary → ∀ t ∈ ends, t.isCancelled = true →
          ∀ status, .failure status ∉ x.received ++ x.scene.held) := by
  intro onCancelled
  have hcancelled : j.shape.outcome none = onCancelled := rfl
  constructor
  · intro outbox start x ends
    have hne : x.call ≠ .arrived :=
      Exchange.run_turned (P := (· ≠ .arrived)) (fun _ => step_ne_arrived) turned start
    have hC := concluded_of_pursued (j.pursued_direct w outbox moves) hne
    exact ⟨hC, fun t ht hc => hcancelled ▸ (hC.cancelled t ht hc).1⟩
  · intro capacity start x ends
    have hC := j.concluded_served w capacity turned
    exact ⟨hC, fun hs t ht hc =>
      not_failure_mem_of_cancelled (j.served_run w capacity moves) hs (hC.cancelled t ht hc).1⟩

/-- The token was fired before. A handler that waits for ever has one turn, and a handler that returns a
value in its first turn has that too, and the value is what the call comes to. -/
theorem cancellation_outcome_fired_before :
    let endless : Handler Nat Nat := ⟨fun _ => .ready 0, fun turns => .wait (turns + 1)⟩
    let prompt : Handler Nat Nat := ⟨fun _ => .ready 0, fun turns => .finish turns (.returned 7)⟩
    let j (handler : Handler Nat Nat) := Job.plain [] .free none .unary handler
    let moves : List Move := [.fire (.own 0), .turn .handlerFirst, .turn .handlerFirst]
    let start : Exchange Nat (Passage Nat Nat) := .ofCall World.blank none
    let ends (handler : Handler Nat Nat) := (j handler).turnEnds ((j handler).directCourse start moves)
    let result? (handler : Handler Nat Nat) := (start.run (j handler).directTurn moves).call.result?
    (ends endless = [⟨none, true⟩] ∧
        result? endless = some (.error { code := .cancelled, message := "Call cancelled." })) ∧
      ends prompt = [⟨some (.returned 7), true⟩] ∧ result? prompt = some (.ok (.value 7)) := by
  intro endless prompt j moves start ends result?
  have hmoves : ∃ order, .turn order ∈ moves := ⟨.handlerFirst, by decide⟩
  constructor
  · obtain ⟨hdirect, -⟩ := (j endless).cancellation_outcome World.blank moves hmoves
    obtain ⟨-, hcancelled⟩ := hdirect none
    have hends : ends endless = [⟨none, true⟩] := rfl
    have hmem : ⟨none, true⟩ ∈ ends endless := by
      rw [hends]
      exact List.mem_singleton_self _
    exact ⟨hends, hcancelled ⟨none, true⟩ hmem rfl⟩
  · obtain ⟨hdirect, -⟩ := (j prompt).cancellation_outcome World.blank moves hmoves
    obtain ⟨hconcluded, -⟩ := hdirect none
    have hends : ends prompt = [⟨some (.returned 7), true⟩] := rfl
    have hgranted : (j prompt).Granted World.blank := granted_iff.mpr (by decide +kernel)
    exact ⟨hends, hconcluded.decided hgranted⟩

end Job

end CallGate
