import CallGate.Proofs.Admission
import CallGate.Proofs.History

/-!
# One turn of a call

A turn of a call has two halves. In the first the gate lets the call in, if it has just arrived, and
the handler works until it waits or ends; in the second the call goes on, is cancelled or is
concluded. Main statements: `step_eq` says that these two halves are the turn, and `accounts_step`
that the history of a call always explains where the call is: a refused call has done nothing else,
and any other has invoked its handler once and has the result that the handler's ending gives it.
-/

namespace CallGate

variable {α σ : Type}

/-- What the handler does first. A panic during its set-up is the same as one in its first turn. -/
def Handler.first (h : Handler α σ) (ctx : Context) : Turn α σ :=
  match h.setup ctx with
  | .ready state => h.turn state
  | .panicked last payload => .finish last (.panicked payload)

/-- The result of a call whose handler has ended, or was cancelled while it waited. -/
def Shape.result (shape : Shape) : Option (Ending α) → CallResult α
  | some (.returned value) => shape.returned value
  | some (.failed .cancelled) => shape.cancelled
  | some (.failed e) => .error e.presentation.toStatus
  | some (.panicked payload) => .error (Failure.unexpected payload.chain).presentation.toStatus
  | none => shape.cancelled

theorem Passage.eq_settled {call : Passage α σ} {result : CallResult α}
    (h : call.result? = some result) : ∃ last, call = .settled last result := by
  cases call with
  | arrived | running => cases h
  | settled last result' =>
    cases h
    exact ⟨last, rfl⟩

/-- What the result adds to the history of a call. -/
def Passage.outcome : Passage α σ → History α
  | arrived | running .. => []
  | settled _ result => [.settled result]

/-- Where a call is between the two halves of a turn: the gate has refused it, or its handler has
worked, or it had come to its result before. -/
inductive Stage (α σ : Type) where
  | refused (status : Status)
  | worked (span : Span) (progress : Progress α σ)
  | past (last : Option σ) (result : CallResult α)

namespace Job

variable (j : Job α σ)

/-- The first half of a turn. -/
def work : Passage α σ → Scene α → Stage α σ × Scene α
  | .arrived, s =>
    let entry := j.gate.enter j.shape j.call s.world
    match entry.1 with
    | .error status => (.refused status, { s with world := entry.2 })
    | .ok ctx =>
      let after := (j.handler.first ctx).run { s with world := entry.2.note (.invoked ctx) }
      (.worked (j.span ctx) after.1, after.2)
  | .running span state, s =>
    let after := (j.handler.turn state).run s
    (.worked span after.1, after.2)
  | .settled last result, s => (.past last result, s)

/-- The second half of a turn. -/
def close : Stage α σ → Scene α → Passage α σ × Scene α
  | .refused status, s => settle s none (.error status)
  | .worked span (.waiting state), s =>
    if s.world.isFired j.call.token then j.endCancelled span state s else (.running span state, s)
  | .worked span (.ended last ending), s => j.conclude span last ending s
  | .past last result, s => (.settled last result, s)

/-- What happens in the first half of a turn. -/
def deeds : Passage α σ → Scene α → History α
  | .arrived, s =>
    let entry := j.gate.enter j.shape j.call s.world
    match entry.1 with
    | .error _ => []
    | .ok ctx =>
      .invoked ctx ::
        (j.handler.first ctx).happenings { s with world := entry.2.note (.invoked ctx) }
  | .running _ state, s => (j.handler.turn state).happenings s
  | .settled .., _ => []

/-- What happens in a turn of the call. -/
def happenings : Passage α σ → Scene α → History α
  | .arrived, s => j.deeds .arrived s ++ (j.step .arrived s).1.outcome
  | .running span state, s =>
    j.deeds (.running span state) s ++ (j.step (.running span state) s).1.outcome
  | .settled .., _ => []

theorem advance_eq_close (span : Span) (state : σ) (s : Scene α) :
    j.advance span state s =
      j.close (.worked span ((j.handler.turn state).run s).1) ((j.handler.turn state).run s).2 := by
  unfold advance
  split <;> rename_i h <;> rw [h] <;> rfl

/-- A turn is its two halves. -/
theorem step_eq (call : Passage α σ) (s : Scene α) :
    j.step call s = j.close (j.work call s).1 (j.work call s).2 := by
  cases call with
  | arrived =>
    simp only [step, work]
    cases (j.gate.enter j.shape j.call s.world).1 with
    | error status => rfl
    | ok ctx =>
      simp only [invoke, Handler.first, Scene.onWorld]
      cases j.handler.setup ctx with
      | ready state => exact j.advance_eq_close _ _ _
      | panicked last payload => rfl
  | running span state => exact j.advance_eq_close span state s
  | settled last result => rfl

/-! ## What the first half does to a scene -/

theorem work_inquiries (call : Passage α σ) (s : Scene α) :
    (j.work call s).2.world.inquiries =
      s.world.inquiries ++
        (match call with
          | .arrived => j.gate.questions j.shape j.call s.world
          | _ => []) ++ (j.deeds call s).inquiries := by
  cases call with
  | arrived =>
    have he : (j.gate.enter j.shape j.call s.world).2.inquiries =
        s.world.inquiries ++ j.gate.questions j.shape j.call s.world := Gate.enter_inquiries
    simp only [work, deeds]
    cases (j.gate.enter j.shape j.call s.world).1 with
    | error status => rw [he]; exact (List.append_nil _).symm
    | ok ctx =>
      dsimp only
      rw [((j.handler.first ctx).run_journal _).1, World.inquiries_note_invoked, he]
      rfl
  | running span state =>
    simp only [work, deeds]
    rw [((j.handler.turn state).run_journal s).1, List.append_nil]
  | settled last result => simp [work, deeds, History.inquiries]

theorem work_invocations (call : Passage α σ) (s : Scene α) :
    (j.work call s).2.world.invocations = s.world.invocations ++ (j.deeds call s).contexts := by
  cases call with
  | arrived =>
    have he : (j.gate.enter j.shape j.call s.world).2.invocations = s.world.invocations :=
      Gate.enter_invocations
    simp only [work, deeds]
    cases (j.gate.enter j.shape j.call s.world).1 with
    | error status => rw [he]; exact (List.append_nil _).symm
    | ok ctx =>
      dsimp only
      rw [((j.handler.first ctx).run_journal _).2, World.invocations_note_invoked, he]
      exact congrArg (s.world.invocations ++ ctx :: ·) ((j.handler.first ctx).happenings_quiet _).1.symm
  | running span state =>
    simp only [work, deeds]
    rw [((j.handler.turn state).run_journal s).2, ((j.handler.turn state).happenings_quiet s).1,
      List.append_nil]
  | settled last result => simp [work, deeds, History.contexts]

theorem work_held (call : Passage α σ) (s : Scene α) :
    (j.work call s).2.held = s.held ++ (j.deeds call s).taken.map .element := by
  cases call with
  | arrived =>
    simp only [work, deeds]
    cases (j.gate.enter j.shape j.call s.world).1 with
    | error status => exact (List.append_nil _).symm
    | ok ctx => exact (j.handler.first ctx).run_held _
  | running span state => exact (j.handler.turn state).run_held s
  | settled last result => exact (List.append_nil _).symm

theorem work_channel (call : Passage α σ) (s : Scene α) :
    (j.work call s).2.streamGone = s.streamGone ∧ (j.work call s).2.sinks = s.sinks := by
  cases call with
  | arrived =>
    simp only [work]
    cases (j.gate.enter j.shape j.call s.world).1 with
    | error status => exact ⟨rfl, rfl⟩
    | ok ctx => exact (j.handler.first ctx).run_channel _
  | running span state => exact (j.handler.turn state).run_channel s
  | settled last result => exact ⟨rfl, rfl⟩

theorem taken_deeds_eq_nil (call : Passage α σ) {s : Scene α} (hs : s.streamGone = true) :
    (j.deeds call s).taken = [] := by
  cases call with
  | arrived =>
    simp only [deeds]
    cases (j.gate.enter j.shape j.call s.world).1 with
    | error status => rfl
    | ok ctx => exact (j.handler.first ctx).taken_eq_nil hs
  | running span state => exact (j.handler.turn state).taken_eq_nil hs
  | settled last result => rfl

/-! ## What the second half does -/

/-- Where the second half leaves a call whose handler has worked. -/
theorem close_worked_fst (span : Span) (progress : Progress α σ) (s : Scene α) :
    (j.close (.worked span progress) s).1 =
      match progress with
      | .waiting state =>
        if s.world.isFired j.call.token then .settled (some state) (j.shape.result none)
        else .running span state
      | .ended last ending => .settled (some last) (j.shape.result (some ending)) := by
  cases progress with
  | waiting state =>
    simp only [close]
    split <;> rfl
  | ended last ending =>
    cases ending with
    | returned value => rfl
    | failed e => cases e <;> rfl
    | panicked payload => rfl

/-- The second half adds no question and no invocation to the journal and nothing to the stream, and
gives the handler's sink up when the call comes to its result. -/
theorem close_views (stage : Stage α σ) (s : Scene α) :
    let after := j.close stage s
    after.2.world.inquiries = s.world.inquiries ∧
      after.2.world.invocations = s.world.invocations ∧ after.2.held = s.held ∧
      after.2.streamGone = s.streamGone ∧
      ((∀ last result, stage ≠ .past last result) →
        after.2.sinks = if after.1.result?.isSome then s.sinks - 1 else s.sinks) := by
  cases stage with
  | refused status => simp [close, settle, Passage.result?]
  | past last result => simp [close]
  | worked span progress =>
    cases progress with
    | waiting state =>
      simp only [close]
      split
      · simp [endCancelled, settle, Passage.result?]
      · simp [Passage.result?]
    | ended last ending =>
      cases ending with
      | returned value => simp [close, conclude, settle, Passage.result?]
      | failed e =>
        cases e <;> simp [close, conclude, endCancelled, endFailed, settle, Passage.result?]
      | panicked payload => simp [close, conclude, endFailed, settle, Passage.result?]

/-! ## What a turn does to a scene -/

/-- All that happens in a turn but the result happens in its first half. -/
theorem happenings_views (call : Passage α σ) (s : Scene α) :
    (j.happenings call s).inquiries = (j.deeds call s).inquiries ∧
      (j.happenings call s).contexts = (j.deeds call s).contexts ∧
      (j.happenings call s).taken = (j.deeds call s).taken := by
  cases call with
  | settled last result => exact ⟨rfl, rfl, rfl⟩
  | _ =>
    simp only [happenings, History.inquiries_append, History.contexts_append, History.taken_append]
    cases (j.step _ s).1 <;>
      exact ⟨List.append_nil _, List.append_nil _, List.append_nil _⟩

/-- A turn adds to the journal what the gate asks, if it is the first, and what the handler asks. -/
theorem step_inquiries (call : Passage α σ) (s : Scene α) :
    (j.step call s).2.world.inquiries =
      s.world.inquiries ++
        (match call with
          | .arrived => j.gate.questions j.shape j.call s.world
          | _ => []) ++ (j.happenings call s).inquiries := by
  rw [step_eq, (j.close_views _ _).1, work_inquiries, (j.happenings_views call s).1]

theorem step_invocations (call : Passage α σ) (s : Scene α) :
    (j.step call s).2.world.invocations =
      s.world.invocations ++ (j.happenings call s).contexts := by
  rw [step_eq, (j.close_views _ _).2.1, work_invocations, (j.happenings_views call s).2.1]

theorem step_held (call : Passage α σ) (s : Scene α) :
    (j.step call s).2.held = s.held ++ (j.happenings call s).taken.map .element := by
  rw [step_eq, (j.close_views _ _).2.2.1, work_held, (j.happenings_views call s).2.2]

theorem step_streamGone (call : Passage α σ) (s : Scene α) :
    (j.step call s).2.streamGone = s.streamGone := by
  rw [step_eq, (j.close_views _ _).2.2.2.1, (j.work_channel call s).1]

theorem taken_happenings_eq_nil (call : Passage α σ) {s : Scene α} (hs : s.streamGone = true) :
    (j.happenings call s).taken = [] := by
  rw [(j.happenings_views call s).2.2, j.taken_deeds_eq_nil call hs]

/-- The handler's sink goes when the call comes to its result. -/
theorem step_sinks {call : Passage α σ} (hc : call.result? = none) (s : Scene α) :
    (j.step call s).2.sinks =
      if (j.step call s).1.result?.isSome then s.sinks - 1 else s.sinks := by
  rw [step_eq, (j.close_views _ _).2.2.2.2, (j.work_channel call s).2]
  intro last result ho
  cases call with
  | arrived =>
    simp only [work] at ho
    split at ho <;> cases ho
  | running span state => cases ho
  | settled last' result' => cases hc

/-! ## How a history explains where a call is -/

/-- The history explains where the call is. -/
def Accounts : Passage α σ → History α → Prop
  | .arrived, h => h = []
  | .running .., h => (∃ ctx, h.contexts = [ctx]) ∧ h.ending? = none ∧ h.result? = none
  | .settled _ result, h =>
    h.result? = some result ∧
      (h = [.settled (.error j.call.refusal)] ∧ result = .error j.call.refusal ∨
        (∃ ctx, h.contexts = [ctx]) ∧ result = j.shape.result h.ending?)

variable {j}

theorem accounts_close_worked {h : History α} (ctx : Context) {progress : Progress α σ}
    (hc : h.contexts = [ctx]) (he : h.ending? = progress.ending?) (hr : h.result? = none)
    (span : Span) (s : Scene α) :
    j.Accounts (j.close (.worked span progress) s).1
      (h ++ (j.close (.worked span progress) s).1.outcome) := by
  -- A result adds nothing but itself to what the history tells.
  have settled (last : Option σ) (result : CallResult α)
      (hres : result = j.shape.result h.ending?) :
      j.Accounts (.settled last result) (h ++ [.settled result]) := by
    refine ⟨by rw [History.result?_append, hr]; rfl, Or.inr ⟨⟨ctx, ?_⟩, ?_⟩⟩
    · rw [History.contexts_append, hc]
      rfl
    · rw [hres, History.ending?_append]
      exact congrArg j.shape.result (Option.or_none).symm
  rw [close_worked_fst]
  cases progress with
  | waiting state =>
    dsimp only
    split
    · exact settled _ _ (congrArg j.shape.result he.symm)
    · rw [Passage.outcome, List.append_nil]
      exact ⟨⟨ctx, hc⟩, he, hr⟩
  | ended last ending => exact settled _ _ (congrArg j.shape.result he.symm)

/-- A turn keeps the history an account of where the call is. -/
theorem accounts_step {call : Passage α σ} {h : History α} (hA : j.Accounts call h) (s : Scene α) :
    j.Accounts (j.step call s).1 (h ++ j.happenings call s) := by
  cases call with
  | arrived =>
    obtain rfl : h = [] := hA
    rw [List.nil_append, happenings, step_eq]
    simp only [work, deeds]
    cases ha : j.gate.admits j.shape j.call s.world with
    | false =>
      rw [Gate.enter_of_not_admits ha]
      exact ⟨rfl, Or.inl ⟨rfl, rfl⟩⟩
    | true =>
      obtain ⟨ctx, hctx, -⟩ := Gate.enter_of_admits ha
      rw [hctx]
      have hq := (j.handler.first ctx).happenings_quiet
        { s with world := (j.gate.enter j.shape j.call s.world).2.note (.invoked ctx) }
      dsimp only
      refine accounts_close_worked ctx ?_ ?_ ?_ _ _
      · exact congrArg (ctx :: ·) hq.1
      · exact (j.handler.first ctx).ending?_happenings _
      · exact hq.2
  | running span state =>
    obtain ⟨⟨ctx, hctx⟩, he, hr⟩ := hA
    have hq := (j.handler.turn state).happenings_quiet s
    rw [happenings, step_eq, ← List.append_assoc]
    refine accounts_close_worked ctx ?_ ?_ ?_ _ _
    · rw [History.contexts_append, hctx]
      exact congrArg (ctx :: ·) hq.1
    · rw [History.ending?_append, he]
      exact (j.handler.turn state).ending?_happenings s
    · rw [History.result?_append, hr]
      exact hq.2
  | settled last result =>
    rw [happenings, List.append_nil]
    exact hA

theorem Accounts.result? {call : Passage α σ} {h : History α} (hA : j.Accounts call h) :
    call.result? = h.result? := by
  cases call with
  | arrived => rw [show h = [] from hA]; rfl
  | running span state => exact hA.2.2.symm
  | settled last result => exact hA.1.symm

end Job

end CallGate
