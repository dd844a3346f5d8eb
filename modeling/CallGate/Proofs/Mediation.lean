import CallGate.Proofs.Delivery

/-!
# Complete mediation

However a call is made and whatever happens around it, its handler is invoked once or not at all, and
it is the gate that decides which. Main statements: `screened_step` says what the first turn of a call
adds to the journal and that later turns add nothing but what the handler asks, and
`complete_mediation` what is in the journal after any run: no handler was invoked and nothing was sent
unless the call may be made, and no principal was asked anything but what had to be asked.
-/

namespace CallGate

variable {α σ : Type}

namespace Gate

variable {g : Gate} {shape : Shape} {call : Call} {w : World}

theorem bypasses_iff : g.bypasses shape call = true ↔
    shape = .duplex ∧ g.settings.isInfrastructure call.method = true := by
  cases shape <;> simp [bypasses, Shape.carriesInfrastructure]

theorem admits_iff : g.admits shape call w = true ↔
    g.bypasses shape call = true ∨ (g.requirement call.method call.service w).isFree = true ∨
      ∃ p, call.principal = some p ∧
        w.answer p (g.requirement call.method call.service w) = true := by
  unfold admits
  cases call.principal <;> simp [or_assoc]

theorem questions_eq_nil (h : g.bypasses shape call = true ∨
    (g.requirement call.method call.service w).isFree = true ∨ call.principal = none) :
    g.questions shape call w = [] := by
  unfold questions
  rcases h with h | h | h <;> simp [h]

theorem questions_eq_singleton {p : PrincipalId} (hb : g.bypasses shape call ≠ true)
    (hf : (g.requirement call.method call.service w).isFree ≠ true) (hp : call.principal = some p) :
    g.questions shape call w =
      [⟨p, g.requirement call.method call.service w,
        w.answer p (g.requirement call.method call.service w)⟩] := by
  simp [questions, hb, hf, hp]

end Gate

namespace Job

variable (j : Job α σ)

/-- What a call that is made in the world `w` has come to, and what the journal of a later world tells
of it. -/
def Screened (w : World) : Passage α σ → World → History α → Prop
  | .arrived, after, h =>
    h = [] ∧ w.DecidesAlike after ∧ after.inquiries = w.inquiries ∧ after.invocations = w.invocations
  | call, after, h =>
    after.inquiries = w.inquiries ++ j.gate.questions j.shape j.call w ++ h.inquiries ∧
      after.invocations = w.invocations ++ h.contexts ∧
      if j.gate.admits j.shape j.call w then ∃ ctx, h.contexts = [ctx]
      else h = [.settled (.error j.call.refusal)] ∧ call.result? = some (.error j.call.refusal)

variable {j}

theorem screened_congr {w after after' : World} {call : Passage α σ} {h : History α}
    (hS : j.Screened w call after h) (hd : after.DecidesAlike after')
    (hq : after'.inquiries = after.inquiries) (hi : after'.invocations = after.invocations) :
    j.Screened w call after' h := by
  cases call with
  | arrived =>
    obtain ⟨hh, hw, hq', hi'⟩ := hS
    exact ⟨hh, hw.trans hd, hq.trans hq', hi.trans hi'⟩
  | running | settled =>
    obtain ⟨hq', hi', hm⟩ := hS
    exact ⟨hq.trans hq', hi.trans hi', hm⟩

theorem step_ne_arrived (call : Passage α σ) (s : Scene α) : (j.step call s).1 ≠ .arrived := by
  rw [step_eq]
  cases (j.work call s).1 with
  | refused | past => exact fun h => nomatch h
  | worked span progress =>
    rw [close_worked_fst]
    cases progress with
    | waiting state =>
      dsimp only
      split <;> exact fun h => nomatch h
    | ended => exact fun h => nomatch h

/-- After its first turn a call has been let in and has invoked its handler, or has been refused. -/
theorem first_happenings (s : Scene α) :
    if j.gate.admits j.shape j.call s.world then
      ∃ ctx, (j.happenings .arrived s).contexts = [ctx]
    else j.happenings .arrived s = [.settled (.error j.call.refusal)] ∧
      (j.step .arrived s).1.result? = some (.error j.call.refusal) := by
  cases ha : j.gate.admits j.shape j.call s.world with
  | true =>
    obtain ⟨ctx, hctx, -⟩ := Gate.enter_of_admits ha
    refine ⟨ctx, ?_⟩
    rw [(j.happenings_views .arrived s).2.1]
    simp only [deeds, hctx]
    exact congrArg (ctx :: ·) ((j.handler.first ctx).happenings_quiet _).1
  | false =>
    have he := Gate.enter_of_not_admits ha
    simp only [happenings, deeds, step, he]
    exact ⟨rfl, rfl⟩

/-- A turn of a call, seen from the world in which the call was made. -/
theorem screened_step {w : World} {call : Passage α σ} {s : Scene α} {h : History α}
    (hS : j.Screened w call s.world h) :
    j.Screened w (j.step call s).1 (j.step call s).2.world (h ++ j.happenings call s) := by
  have hq := j.step_inquiries call s
  have hi := j.step_invocations call s
  have hne := step_ne_arrived (j := j) call s
  cases call with
  | arrived =>
    -- Since the call was made, nothing has happened that the gate's decision depends on.
    obtain ⟨rfl, hd, hq', hi'⟩ := hS
    rw [hq', Gate.questions_congr hd] at hq
    rw [hi'] at hi
    have hf := first_happenings (j := j) s
    rw [Gate.admits_congr hd] at hf
    rw [List.nil_append]
    cases hstep : (j.step .arrived s).1 with
    | arrived => exact absurd hstep hne
    | running | settled =>
      rw [hstep] at hf
      exact ⟨hq, hi, hf⟩
  | running span state =>
    obtain ⟨hq', hi', hm⟩ := hS
    have hctx : (j.happenings (.running span state) s).contexts = [] := by
      rw [(j.happenings_views _ s).2.1]
      exact ((j.handler.turn state).happenings_quiet s).1
    rw [List.append_nil, hq', List.append_assoc, ← History.inquiries_append] at hq
    rw [hi', List.append_assoc, ← History.contexts_append] at hi
    cases ha : j.gate.admits j.shape j.call w with
    | false =>
      -- A refused call has its result, so it is not this one.
      rw [ha, if_neg Bool.false_ne_true] at hm
      cases hm.2
    | true =>
      rw [ha, if_pos rfl] at hm
      have hm' : ∃ ctx, (h ++ j.happenings (.running span state) s).contexts = [ctx] := by
        rw [History.contexts_append, hctx, List.append_nil]
        exact hm
      cases hstep : (j.step (.running span state) s).1 with
      | arrived => exact absurd hstep hne
      | running | settled =>
        refine ⟨hq, hi, ?_⟩
        rw [ha, if_pos rfl]
        exact hm'
  | settled last result =>
    rw [happenings, List.append_nil]
    exact hS

theorem screened_aside {w after after' : World} {call : Passage α σ} {h : History α}
    (ha : after.Aside after') (hS : j.Screened w call after h) : j.Screened w call after' h :=
  screened_congr hS ha.decides (ha.filterMap_journal fun _ => rfl)
    (ha.filterMap_journal fun _ => rfl)

/-- The world of a call that is made directly, after any run. -/
theorem screened_direct (j : Job α σ) (w : World) (outbox : Option (Channel (Delivery α)))
    (moves : List Move) :
    let start : Exchange α (Passage α σ) := .ofCall w outbox
    let x := start.run j.directTurn moves
    j.Screened w x.call x.scene.world (j.directHistory start moves) := by
  intro start x
  rw [directHistory_eq]
  refine j.direct_run (Q := fun call after course => j.Screened w call after (j.historyOf course)) ?_
    screened_aside start ⟨rfl, .refl w, rfl, rfl⟩ moves
  intro call s course hS
  rw [historyOf_append]
  exact screened_step hS

/-! ## Served calls -/

/-- A served call, or what became of it, seen from the world in which it was made. -/
def ServedScreened (j : Job α σ) (w : World) (v : Serving α σ) (after : World) (h : History α) :
    Prop :=
  ∃ call, (v.call? = some call ∨ v.call? = none ∧ call.result? ≠ none) ∧ j.Screened w call after h

/-- The world of a served call, after any run. -/
theorem screened_served (j : Job α σ) (w : World) (capacity : Capacity) (moves : List Move) :
    let start : Exchange α (Serving α σ) := .ofService w capacity
    let x := start.run j.serve moves
    j.ServedScreened w x.call x.scene.world (j.servedHistory start moves) := by
  intro start x
  rw [servedHistory_eq]
  refine served_satisfies (Q := fun call after course => j.Screened w call after (j.historyOf course))
    ?_ screened_aside start ⟨.arrived, Or.inl rfl, rfl, .refl w, rfl, rfl⟩ moves
  intro call s course hS
  rw [historyOf_append]
  exact screened_step hS

/-- A served call that has had a turn has had its first one. -/
theorem serve_turned (order : TurnOrder) (v : Serving α σ) (s : Scene α) :
    (j.serve order v s).1.call? ≠ some .arrived := by
  cases hv : v.call? with
  | some call =>
    obtain ⟨goOn, last, s', hgo, hserve, -⟩ := serve_keeps (j := j) (P := fun _ _ _ => True)
      (fun _ => trivial) (fun _ => trivial) order hv (s := s) (h := []) trivial
    have hne := step_ne_arrived (j := j) last s'
    rw [hserve]
    generalize j.step last s' = after at hne ⊢
    rcases after with ⟨_ | ⟨span, state⟩ | ⟨last', status | reply⟩, s''⟩
    · exact absurd rfl hne
    · show (goOn (.running span state)).call? ≠ _
      rw [hgo]
      exact fun h => nomatch h
    · show (deliver last' status s'').1.call? ≠ _
      rw [deliver_call?]
      exact fun h => nomatch h
    · exact fun h => nomatch h
  | none =>
    cases v with
    | watching | abandoned => cases hv
    | delivering last status =>
      show (deliver last status s).1.call? ≠ _
      rw [deliver_call?]
      exact fun h => nomatch h
    | finished last => exact fun h => nomatch h

/-! ## Who is let in, and who is asked -/

/-- The call is an infrastructure call with two streams. -/
def Infrastructure (j : Job α σ) : Prop :=
  j.shape = .duplex ∧ j.gate.settings.isInfrastructure j.call.method = true

/-- What the method of the call requires. -/
def required (j : Job α σ) (w : World) : Requirement :=
  j.gate.requirement j.call.method j.call.service w

/-- The call may be made. -/
def Granted (j : Job α σ) (w : World) : Prop :=
  j.Infrastructure ∨ (j.required w).isFree = true ∨
    ∃ p, j.call.principal = some p ∧ w.answer p (j.required w) = true

/-- A later world tells of a call that was made in the world `w` that the gate has decided about it,
and `h` is what has happened in the call. -/
structure Mediated (j : Job α σ) (w after : World) (h : History α) : Prop where
  invoked : j.Granted w → ∃ ctx, after.invocations = w.invocations ++ [ctx]
  refused : ¬ j.Granted w →
    after.invocations = w.invocations ∧ h = [.settled (.error j.call.refusal)]
  unasked : j.Infrastructure ∨ (j.required w).isFree = true ∨ j.call.principal = none →
    after.inquiries = w.inquiries ++ h.inquiries
  asked : ∀ p, ¬ j.Infrastructure → (j.required w).isFree = false → j.call.principal = some p →
    after.inquiries = w.inquiries ++ ⟨p, j.required w, w.answer p (j.required w)⟩ :: h.inquiries

theorem granted_iff {w : World} :
    j.Granted w ↔ j.gate.admits j.shape j.call w = true := by
  rw [Gate.admits_iff, Gate.bypasses_iff]
  rfl

/-- The handler of a call that may not be made is never invoked, not even before the first turn. -/
theorem invocations_of_not_granted {w after : World} {call : Passage α σ} {h : History α}
    (hS : j.Screened w call after h) (hg : ¬ j.Granted w) : after.invocations = w.invocations := by
  have refused (hi : after.invocations = w.invocations ++ h.contexts)
      (hh : h = [.settled (.error j.call.refusal)]) : after.invocations = w.invocations := by
    rw [hi, hh]
    exact List.append_nil _
  rw [granted_iff] at hg
  cases call with
  | arrived => exact hS.2.2.2
  | running | settled =>
    obtain ⟨-, hi, hm⟩ := hS
    rw [if_neg hg] at hm
    exact refused hi hm.1

theorem mediated_of_screened {w after : World} {call : Passage α σ} {h : History α}
    (hS : j.Screened w call after h) (hne : call ≠ .arrived) : j.Mediated w after h := by
  obtain ⟨hq, hi, hm⟩ : after.inquiries =
        w.inquiries ++ j.gate.questions j.shape j.call w ++ h.inquiries ∧
      after.invocations = w.invocations ++ h.contexts ∧
      if j.gate.admits j.shape j.call w then ∃ ctx, h.contexts = [ctx]
      else h = [.settled (.error j.call.refusal)] ∧ call.result? = some (.error j.call.refusal) := by
    cases call with
    | arrived => exact absurd rfl hne
    | running | settled => exact hS
  constructor
  · intro hg
    rw [if_pos (granted_iff.mp hg)] at hm
    obtain ⟨ctx, hctx⟩ := hm
    exact ⟨ctx, hctx ▸ hi⟩
  · intro hg
    have hinv := invocations_of_not_granted hS hg
    rw [if_neg (mt granted_iff.mpr hg)] at hm
    exact ⟨hinv, hm.1⟩
  · intro hn
    rw [Gate.questions_eq_nil (by rwa [Gate.bypasses_iff]), List.append_nil] at hq
    exact hq
  · intro p hb hf hp
    have hf' : (j.gate.requirement j.call.method j.call.service w).isFree ≠ true := by
      rw [show (j.gate.requirement j.call.method j.call.service w).isFree = false from hf]
      exact Bool.false_ne_true
    rw [Gate.questions_eq_singleton (by rwa [Ne, Gate.bypasses_iff]) hf' hp, List.append_assoc] at hq
    exact hq

/-! ## Whole runs -/

theorem mediated_direct (j : Job α σ) (w : World) (outbox : Option (Channel (Delivery α)))
    {moves : List Move} (turned : ∃ order, .turn order ∈ moves) :
    let start : Exchange α (Passage α σ) := .ofCall w outbox
    j.Mediated w (start.run j.directTurn moves).scene.world (j.directHistory start moves) := by
  intro start
  have hne : (start.run j.directTurn moves).call ≠ .arrived :=
    Exchange.run_turned (P := (· ≠ .arrived)) (fun _ => step_ne_arrived) turned start
  exact mediated_of_screened (j.screened_direct w outbox moves) hne

theorem mediated_served (j : Job α σ) (w : World) (capacity : Capacity) {moves : List Move}
    (turned : ∃ order, .turn order ∈ moves) :
    let start : Exchange α (Serving α σ) := .ofService w capacity
    j.Mediated w (start.run j.serve moves).scene.world (j.servedHistory start moves) := by
  intro start
  obtain ⟨call, hv, hscreened⟩ := j.screened_served w capacity moves
  have hne : (start.run j.serve moves).call.call? ≠ some .arrived :=
    Exchange.run_turned (P := fun v => v.call? ≠ some .arrived) serve_turned turned start
  refine mediated_of_screened hscreened ?_
  rintro rfl
  rcases hv with hv | ⟨-, hr⟩
  · exact hne hv
  · exact hr rfl

/-- What becomes of a call that is made directly and refused. -/
theorem refused_direct (j : Job α σ) {w : World} (hg : ¬ j.Granted w)
    (outbox : Option (Channel (Delivery α))) {moves : List Move}
    (turned : ∃ order, .turn order ∈ moves) :
    let start : Exchange α (Passage α σ) := .ofCall w outbox
    let x := start.run j.directTurn moves
    x.call.result? = some (.error j.call.refusal) ∧
      x.received ++ x.scene.held <+: start.scene.held := by
  intro start x
  have hh := ((j.mediated_direct w outbox turned).refused hg).2
  constructor
  · rw [(j.accounts_direct w outbox moves).result?, hh]
    rfl
  · have hc := (j.carried_direct w outbox moves).1
    rw [hh] at hc
    exact (List.append_nil start.scene.held) ▸ hc

/-- What becomes of a served call that is refused. -/
theorem refused_served (j : Job α σ) {w : World} (hg : ¬ j.Granted w) (capacity : Capacity)
    {moves : List Move} (turned : ∃ order, .turn order ∈ moves) :
    let start : Exchange α (Serving α σ) := .ofService w capacity
    let x := start.run j.serve moves
    x.received ++ x.scene.held <+: [.failure j.call.refusal] ∧
      (.close ∉ moves → .drop ∉ moves → x.next = .ended →
        x.received = [.failure j.call.refusal]) := by
  intro start x
  have hS := j.served_run w capacity moves
  have hd : (j.servedHistory start moves).deliveries = [.failure j.call.refusal] := by
    rw [((j.mediated_served w capacity turned).refused hg).2]
    rfl
  constructor
  · obtain ⟨-, -, hc⟩ := hS.carried_prefix
    exact hd ▸ hc
  · intro hclose hdrop hn
    have hgone : x.scene.streamGone = false := j.served_streamGone w capacity hclose hdrop
    exact (received_of_ended hS hgone hn).2.trans hd

/-- However a call is made, and whatever happens around it, once it has had a turn the gate has
decided about it: its handler was invoked once if the call may be made, and otherwise never, in which
case nothing was sent and the caller is told that it has no principal or that its principal lacks
rights. Apart from what the handler asks, the principal was asked once about what the method requires
if that decides, and otherwise nobody was asked anything. -/
theorem complete_mediation (j : Job α σ) (w : World) (moves : List Move)
    (turned : ∃ order, .turn order ∈ moves) :
    let refusal : Status :=
      match j.call.principal with
      | none => { code := .unauthenticated, message := "No user context." }
      | some _ => { code := .permissionDenied, message := "You don't have the expected rights." }
    (∀ outbox,
      let start : Exchange α (Passage α σ) := .ofCall w outbox
      let x := start.run j.directTurn moves
      j.Mediated w x.scene.world (j.directHistory start moves) ∧
        (¬ j.Granted w → x.call.result? = some (.error refusal) ∧
          x.received ++ x.scene.held <+: start.scene.held)) ∧
    ∀ capacity,
      let start : Exchange α (Serving α σ) := .ofService w capacity
      let x := start.run j.serve moves
      j.Mediated w x.scene.world (j.servedHistory start moves) ∧
        (¬ j.Granted w → x.received ++ x.scene.held <+: [.failure refusal] ∧
          (.close ∉ moves → .drop ∉ moves → x.next = .ended →
            x.received = [.failure refusal])) := by
  intro refusal
  have hrefusal : j.call.refusal = refusal := by
    unfold Call.refusal
    cases hp : j.call.principal <;> simp only [refusal, hp] <;> rfl
  constructor
  · intro outbox start x
    refine ⟨j.mediated_direct w outbox turned, fun hg => ?_⟩
    rw [← hrefusal]
    exact j.refused_direct hg outbox turned
  · intro capacity start x
    refine ⟨j.mediated_served w capacity turned, fun hg => ?_⟩
    rw [← hrefusal]
    exact j.refused_served hg capacity turned

/-- A principal without rights. -/
theorem complete_mediation_powerless :
    let j := Job.plain [] (.of "order" ["read"]) (some "ann") .duplex (.sending [1] (.returned 2))
    let x := (Exchange.ofService World.blank ⟨8, by decide, by decide⟩).run j.serve
      [.turn .streamFirst, .take]
    x.scene.world.invocations = [] ∧
      x.scene.world.inquiries = [⟨"ann", .of "order" ["read"], false⟩] ∧
      x.received =
        [.failure { code := .permissionDenied, message := "You don't have the expected rights." }] := by
  intro j x
  obtain ⟨-, h⟩ := j.complete_mediation World.blank [.turn .streamFirst, .take]
    ⟨.streamFirst, by decide⟩
  obtain ⟨hM, hrefused⟩ := h ⟨8, by decide, by decide⟩
  have hg : ¬ j.Granted World.blank := mt granted_iff.mp (by decide +kernel)
  refine ⟨(hM.refused hg).1, ?_, (hrefused hg).2 (by decide) (by decide) (by decide +kernel)⟩
  rw [hM.asked "ann" (fun hi => hg (Or.inl hi)) (by decide +kernel) rfl, (hM.refused hg).2]
  decide +kernel

end Job

end CallGate
