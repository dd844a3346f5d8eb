import CallGate.Proofs.Run

/-!
# What arrives at the end of a stream

A served call, its caller and whoever fires the token share one bounded stream. Whatever the order in
which they move, nothing on the stream is lost, doubled or put out of order. Main statement:
`stream_delivery` says that the caller always has a beginning of what the handler sent, followed by
the status if the call failed, and that a caller who reads on without closing or dropping the stream
gets all of it.
-/

namespace CallGate

variable {α σ τ : Type}

/-- What the stream of a call is to carry: the elements of the handler, and then the status with which
the call has failed, if it has. -/
def History.deliveries (h : History α) : List (Delivery α) :=
  h.taken.map .element ++ (h.failure?.map .failure).toList

/-- The status with which an ending fails a call. -/
def Ending.status? : Ending α → Option Status
  | .returned _ => none
  | .failed .cancelled => none
  | .failed e => some e.presentation.toStatus
  | .panicked payload => some (Failure.unexpected payload.chain).presentation.toStatus

/-- What was received and what the stream holds make up a beginning of what is expected, and all of
it unless the stream is gone. -/
def Carried (received : List (Delivery α)) (s : Scene α) (expected : List (Delivery α)) : Prop :=
  received ++ s.held <+: expected ∧ (s.streamGone = false → received ++ s.held = expected)

namespace Carried

variable {received expected : List (Delivery α)} {s s' : Scene α}

theorem congr (h : Carried received s expected) (held : s'.held = s.held)
    (streamGone : s'.streamGone = s.streamGone) : Carried received s' expected := by
  unfold Carried
  rw [held, streamGone]
  exact h

theorem beside {x y : Exchange α τ} (hb : x.Beside y) (h : Carried x.received x.scene expected) :
    Carried y.received y.scene expected :=
  ⟨hb.carried.trans h.1, fun hg => (hb.carried_eq hg).trans (h.2 (hb.streamGone hg))⟩

theorem step (j : Job α σ) (call : Passage α σ) {h : History α} (base : List (Delivery α))
    (hc : Carried received s (base ++ h.taken.map .element)) :
    Carried received (j.step call s).2 (base ++ (h ++ j.happenings call s).taken.map .element) := by
  unfold Carried
  rw [j.step_held, j.step_streamGone, History.taken_append, List.map_append]
  cases hg : s.streamGone with
  | true =>
    rw [j.taken_happenings_eq_nil call hg]
    simp only [List.map_nil, List.append_nil]
    exact ⟨hc.1, fun h => nomatch h⟩
  | false =>
    have he : received ++ (s.held ++ (j.happenings call s).taken.map .element) =
        base ++ (h.taken.map .element ++ (j.happenings call s).taken.map .element) := by
      rw [← List.append_assoc, hc.2 hg, List.append_assoc]
    exact ⟨he ▸ List.prefix_refl _, fun _ => he⟩

end Carried

namespace Job

/-- Where the stream of a served call stands: the call is being made, or its status waits for room, or
it is over. The two sinks of a call that is being made are the handler's and the one that keeps the
stream open for the status of the call. -/
inductive Served (j : Job α σ) (received : List (Delivery α)) :
    Serving α σ → Scene α → History α → Prop where
  | making {v : Serving α σ} {call : Passage α σ} {s : Scene α} {h : History α}
      (hv : v.call? = some call) (hr : call.result? = none) (hA : j.Accounts call h)
      (hs : s.sinks = 2) (hc : Carried received s (h.taken.map .element)) : Served j received v s h
  | delivering {last : Option σ} {status : Status} {call : Passage α σ} {s : Scene α}
      {h : History α} (hA : j.Accounts call h) (hr : call.result? = some (.error status))
      (hs : s.sinks = 1) (hc : Carried received s (h.taken.map .element)) :
      Served j received (.delivering last status) s h
  | finished {last : Option σ} {result : CallResult α} {call : Passage α σ} {s : Scene α}
      {h : History α} (hA : j.Accounts call h) (hr : call.result? = some result)
      (hs : s.sinks = 0) (hc : Carried received s h.deliveries) :
      Served j received (.finished last) s h

variable {j : Job α σ} {received : List (Delivery α)}

/-- A call that is over has no sink left. -/
theorem Served.sinks_eq_zero {v : Serving α σ} {s : Scene α} {h : History α}
    (hS : j.Served received v s h) {last : Option σ} (hv : v = .finished last) : s.sinks = 0 := by
  subst hv
  cases hS with
  | making hv _ _ _ _ => cases hv
  | finished _ _ hs _ => exact hs

theorem deliver_streamGone (last : Option σ) (status : Status) (s : Scene α) :
    (deliver last status s).2.streamGone = s.streamGone := by
  unfold deliver
  cases s.verdict <;> simp

theorem served_deliver {call : Passage α σ} {h : History α} {status : Status} {s : Scene α}
    (last : Option σ) (hA : j.Accounts call h) (hr : call.result? = some (.error status))
    (hs : s.sinks = 1) (hc : Carried received s (h.taken.map .element)) :
    j.Served received (deliver last status s).1 (deliver last status s).2 h := by
  have hd : h.deliveries = h.taken.map .element ++ [.failure status] := by
    rw [History.deliveries, History.failure?, ← hA.result?, hr]
    rfl
  unfold deliver
  cases hv : s.verdict with
  | sent =>
    have hg : s.streamGone = false := by
      rw [← Bool.not_eq_true, ← Scene.verdict_eq_refused_iff, hv]
      exact fun h => nomatch h
    have he : received ++ (s.offer (.failure status)).dropSink.held = h.deliveries := by
      rw [Scene.held_dropSink, Scene.held_offer, if_pos hv, ← List.append_assoc, hc.2 hg, hd]
    exact .finished hA hr (by simp [hs]) ⟨he ▸ List.prefix_refl _, fun _ => he⟩
  | full => exact .delivering hA hr hs hc
  | refused =>
    have hg : s.streamGone = true := (Scene.verdict_eq_refused_iff s).mp hv
    refine .finished hA hr (by simp [hs]) ⟨?_, ?_⟩
    · rw [Scene.held_dropSink, Scene.held_onWorld, hd]
      exact hc.1.trans (List.prefix_append _ _)
    · rw [Scene.streamGone_dropSink, Scene.streamGone_onWorld, hg]
      exact fun h => nomatch h

theorem served_proceed {goOn : Passage α σ → Serving α σ}
    (hgo : ∀ call, (goOn call).call? = some call) {call : Passage α σ} {s : Scene α} {h : History α}
    (hA : j.Accounts call h) (hs : s.sinks = if call.result?.isSome then 1 else 2)
    (hc : Carried received s (h.taken.map .element)) :
    j.Served received (proceed goOn (call, s)).1 (proceed goOn (call, s)).2 h := by
  cases hr : call.result? with
  | none =>
    rw [proceed_of_result?_eq_none goOn hr]
    rw [hr] at hs
    exact .making (hgo call) hr hA hs hc
  | some result =>
    obtain ⟨last, rfl⟩ := Passage.eq_settled hr
    cases result with
    | error status => exact served_deliver last hA hr hs hc
    | ok reply =>
      have hd : h.deliveries = h.taken.map .element := by
        rw [History.deliveries, History.failure?, ← hA.result?, hr]
        exact List.append_nil _
      have hs' : s.dropSink.sinks = 0 := by
        rw [s.sinks_dropSink, hs]
        rfl
      exact .finished hA hr hs'
        (hd ▸ hc.congr (Scene.held_dropSink s) (Scene.streamGone_dropSink s))

/-- A turn of a served call keeps its stream in order. -/
theorem served_serve (order : TurnOrder) {v : Serving α σ} {s : Scene α} {h : History α}
    (hS : j.Served received v s h) :
    j.Served received (j.serve order v s).1 (j.serve order v s).2
      (h ++ j.servedHappenings order v s) := by
  let P (call : Passage α σ) (s : Scene α) (h : History α) : Prop :=
    j.Accounts call h ∧ (s.sinks = if call.result?.isSome then 1 else 2) ∧
      Carried received s (h.taken.map .element)
  have inside {call s h} (hP : P call s h) :
      P (j.step call s).1 (j.step call s).2 (h ++ j.happenings call s) := by
    obtain ⟨hA, hs, hc⟩ := hP
    refine ⟨accounts_step hA s, ?_, Carried.step j call [] hc⟩
    cases hr : call.result? with
    | none =>
      rw [j.step_sinks hr, hs, hr]
      rfl
    | some result =>
      cases call <;> cases hr
      exact hs
  have giveUp {call s h} (hP : P call s h) : P call (j.giveUp s) h :=
    ⟨hP.1, hP.2.1, hP.2.2.congr rfl rfl⟩
  cases hS with
  | making hv hr hA hs hc =>
    obtain ⟨goOn, last, s', hgo, hserve, hA', hs', hc'⟩ :=
      serve_keeps (P := P) inside giveUp order hv ⟨hA, by rw [hr]; exact hs, hc⟩
    rw [hserve]
    exact served_proceed hgo hA' hs' hc'
  | delivering hA hr hs hc =>
    rw [servedHappenings_eq_nil order rfl, List.append_nil]
    exact served_deliver _ hA hr hs hc
  | finished hA hr hs hc =>
    rw [servedHappenings_eq_nil order rfl, List.append_nil]
    exact .finished hA hr hs hc

theorem served_beside {x y : Exchange α (Serving α σ)} {h : History α} (hb : x.Beside y)
    (hS : j.Served x.received x.call x.scene h) : j.Served y.received y.call y.scene h := by
  rw [hb.call]
  generalize x.call = v at hS ⊢
  cases hS with
  | making hv hr hA hs hc => exact .making hv hr hA (hb.sinks.trans hs) (hc.beside hb)
  | delivering hA hr hs hc => exact .delivering hA hr (hb.sinks.trans hs) (hc.beside hb)
  | finished hA hr hs hc => exact .finished hA hr (hb.sinks.trans hs) (hc.beside hb)

/-- The stream of a call that is made directly carries what it held before and what was sent. -/
theorem carried_direct (j : Job α σ) (w : World) (outbox : Option (Channel (Delivery α)))
    (moves : List Move) :
    let start : Exchange α (Passage α σ) := .ofCall w outbox
    let x := start.run j.directTurn moves
    Carried x.received x.scene
      (start.scene.held ++ (j.directHistory start moves).taken.map .element) := by
  intro start x
  refine Exchange.run_keeps (h := [])
    (I := fun x h => Carried x.received x.scene (start.scene.held ++ h.taken.map .element)) ?_ ?_
    moves ?_
  · intro x h order hc
    exact Carried.step j x.call start.scene.held hc
  · intro x y h hb hc
    exact hc.beside hb
  · exact (List.append_nil start.scene.held).symm ▸ ⟨List.prefix_refl _, fun _ => rfl⟩

/-- The stream of a served call is in order after every run. -/
theorem served_run (j : Job α σ) (w : World) (capacity : Capacity) (moves : List Move) :
    let start : Exchange α (Serving α σ) := .ofService w capacity
    let x := start.run j.serve moves
    j.Served x.received x.call x.scene (j.servedHistory start moves) :=
  Exchange.run_keeps (I := fun x h => j.Served x.received x.call x.scene h) (h := [])
    (fun order hS => served_serve order hS) (fun hb hS => served_beside hb hS) moves
    (.making rfl rfl rfl rfl ⟨List.prefix_refl _, fun _ => rfl⟩)

/-! ## Reading to the end -/

theorem proceed_streamGone (goOn : Passage α σ → Serving α σ) (after : Passage α σ × Scene α) :
    (proceed goOn after).2.streamGone = after.2.streamGone := by
  rcases after with ⟨_ | _ | ⟨last, status | reply⟩, s⟩
  · rfl
  · rfl
  · exact deliver_streamGone last status s
  · exact s.streamGone_dropSink

/-- A turn of a served call leaves it to the caller to close or drop the stream. -/
theorem serve_streamGone (order : TurnOrder) (v : Serving α σ) (s : Scene α) :
    (j.serve order v s).2.streamGone = s.streamGone := by
  cases hv : v.call? with
  | some call =>
    obtain ⟨goOn, last, s', -, hserve, hP⟩ :=
      serve_keeps (j := j) (P := fun _ s' _ => s'.streamGone = s.streamGone)
        (fun hP => (j.step_streamGone _ _).trans hP) (fun hP => hP) order hv (h := []) rfl
    rw [hserve, proceed_streamGone, hP]
  | none =>
    cases v with
    | watching | abandoned => cases hv
    | delivering last status => exact deliver_streamGone last status s
    | finished last => rfl

/-- Who has read an open stream to its end has received all of it, and the call is over. -/
theorem received_of_ended {x : Exchange α (Serving α σ)} {h : History α}
    (hS : j.Served x.received x.call x.scene h) (hg : x.scene.streamGone = false)
    (hn : x.next = .ended) : h.result?.isSome = true ∧ x.received = h.deliveries := by
  obtain ⟨hheld, hend⟩ := x.next_eq_ended_iff.mp hn
  have hs : x.scene.sinks = 0 := by
    rcases hend with h' | h'
    · rw [hg] at h'
      cases h'
    · exact h'
  generalize x.call = v at hS
  cases hS with
  | making _ _ _ hs' _ => omega
  | delivering _ _ hs' _ => omega
  | finished hA hr _ hc =>
    refine ⟨by rw [← hA.result?, hr]; rfl, ?_⟩
    rw [← hc.2 hg, hheld, List.append_nil]

/-- A stream that the caller neither closes nor drops stays open. -/
theorem served_streamGone (j : Job α σ) (w : World) (capacity : Capacity) {moves : List Move}
    (hclose : .close ∉ moves) (hdrop : .drop ∉ moves) :
    ((Exchange.ofService w capacity).run j.serve moves).scene.streamGone = false :=
  Exchange.streamGone_run serve_streamGone hclose hdrop (.ofService w capacity) rfl

theorem served_takes {x : Exchange α (Serving α σ)} {h : History α}
    (hS : j.Served x.received x.call x.scene h) :
    ∃ n, let y := x.run j.serve (List.replicate n .take)
      j.Served y.received y.call y.scene h ∧ y.scene.held = [] ∧
        y.scene.streamGone = x.scene.streamGone ∧ y.call = x.call := by
  obtain ⟨hb, hheld, hgone⟩ := x.run_takes j.serve
  exact ⟨_, served_beside hb hS, hheld, hgone, hb.call⟩

/-- Once the call is over, all that is left is to take what the stream holds. -/
theorem exists_takes_ended {x : Exchange α (Serving α σ)} {h : History α}
    (hS : j.Served x.received x.call x.scene h) (hg : x.scene.streamGone = false) {last : Option σ}
    (hl : x.call = .finished last) :
    ∃ n, let y := x.run j.serve (List.replicate n .take)
      y.next = .ended ∧ y.received = h.deliveries := by
  obtain ⟨n, hS', hheld, hgone, hcall⟩ := served_takes hS
  have hs := Served.sinks_eq_zero hS' (hcall.trans hl)
  have hn := (Exchange.next_eq_ended_iff _).mpr ⟨hheld, Or.inr hs⟩
  exact ⟨n, hn, (received_of_ended hS' (hgone.trans hg) hn).2⟩

/-- If nothing is held, the next turn puts the status that waits on the stream. -/
theorem served_delivering {y : Exchange α (Serving α σ)} {h : History α}
    (hS : j.Served y.received y.call y.scene h) (hg : y.scene.streamGone = false)
    (hheld : y.scene.held = []) {last : Option σ} {status : Status}
    (hcall : y.call = .delivering last status) :
    let z := y.step j.serve (.turn .handlerFirst)
    j.Served z.received z.call z.scene h ∧ z.scene.streamGone = false ∧ z.call = .finished last := by
  intro z
  have hv : y.scene.verdict = .sent := Scene.verdict_eq_sent hheld hg
  have hS' := served_serve .handlerFirst hS
  have hnone : y.call.call? = none := by
    rw [hcall]
    rfl
  rw [servedHappenings_eq_nil .handlerFirst hnone, List.append_nil] at hS'
  refine ⟨hS', (serve_streamGone .handlerFirst y.call y.scene).trans hg, ?_⟩
  simp only [z, Exchange.step, hcall, serve, deliver, hv]

theorem Served.call?_eq_none {v : Serving α σ} {s : Scene α} {h : History α}
    (hS : j.Served received v s h) (hr : h.result? ≠ none) : v.call? = none := by
  cases hS with
  | making hv hr' hA => exact absurd (hA.result?.symm.trans hr') hr
  | delivering | finished => rfl

/-- Once the call has its result, taking and one more turn lead to the end of an open stream. -/
theorem exists_takes_turn_ended {x : Exchange α (Serving α σ)} {h : History α}
    (hS : j.Served x.received x.call x.scene h) (hg : x.scene.streamGone = false)
    (hv : x.call.call? = none) :
    ∃ more, (∀ move ∈ more, move = .take ∨ move = .turn .handlerFirst) ∧
      let y := x.run j.serve more
      y.next = .ended ∧ y.received = h.deliveries := by
  have takes (n : Nat) : ∀ move ∈ List.replicate n Move.take,
      move = .take ∨ move = .turn .handlerFirst :=
    fun _ hm => Or.inl (List.eq_of_mem_replicate hm)
  cases hcall : x.call with
  | watching call | abandoned call =>
    rw [hcall] at hv
    cases hv
  | finished last =>
    obtain ⟨n, hn, hrec⟩ := exists_takes_ended hS hg hcall
    exact ⟨_, takes n, hn, hrec⟩
  | delivering last status =>
    obtain ⟨n, hS', hheld, hgone, hcall'⟩ := served_takes hS
    generalize hy : x.run j.serve (List.replicate n .take) = y at hS' hheld hgone hcall'
    obtain ⟨hS'', hg', hlast⟩ :=
      served_delivering hS' (hgone.trans hg) hheld (hcall'.trans hcall)
    obtain ⟨m, hn, hrec⟩ := exists_takes_ended hS'' hg' hlast
    refine ⟨List.replicate n .take ++ .turn .handlerFirst :: List.replicate m .take, ?_, ?_⟩
    · intro move hm
      rcases List.mem_append.mp hm with hm | hm
      · exact takes n move hm
      · rcases List.mem_cons.mp hm with rfl | hm
        · exact Or.inr rfl
        · exact takes m move hm
    · rw [Exchange.run_append, hy]
      exact ⟨hn, hrec⟩

/-- Whatever has happened, the end of an open stream can be reached once the call has its result. -/
theorem exists_ended {x : Exchange α (Serving α σ)} {h : History α}
    (hS : j.Served x.received x.call x.scene h) (hg : x.scene.streamGone = false)
    (hr : h.result?.isSome = true) :
    ∃ more, .close ∉ more ∧ .drop ∉ more ∧
      let y := x.run j.serve more
      y.next = .ended ∧ y.received = h.deliveries := by
  have hv := hS.call?_eq_none (Option.isSome_iff_ne_none.mp hr)
  obtain ⟨more, honly, hend⟩ := exists_takes_turn_ended hS hg hv
  have absent {move : Move} (htake : move ≠ .take) (hturn : move ≠ .turn .handlerFirst) :
      move ∉ more := by
    intro hm
    rcases honly move hm with h | h
    · exact htake h
    · exact hturn h
  exact ⟨more, absent Move.noConfusion Move.noConfusion, absent Move.noConfusion Move.noConfusion, hend⟩

/-! ## What the caller of a stream gets -/

/-- A refused call fails with its refusal; any other fails as its handler has ended, and does not
fail if its handler was cancelled. -/
theorem failure?_of_accounts (hs : j.shape ≠ .unary) {call : Passage α σ} {h : History α}
    (hA : j.Accounts call h) (hr : h.result? ≠ none) :
    h.contexts = [] ∧ h.failure? = some j.call.refusal ∨
      (∃ ctx, h.contexts = [ctx]) ∧ h.failure? = h.ending?.bind Ending.status? := by
  have hcall := hA.result?
  cases call with
  | arrived | running => exact absurd hcall.symm hr
  | settled last result =>
    obtain ⟨hres, ⟨rfl, -⟩ | ⟨hctx, rfl⟩⟩ := hA
    · exact Or.inl ⟨rfl, rfl⟩
    · refine Or.inr ⟨hctx, ?_⟩
      rw [History.failure?, hres]
      generalize j.shape = shape at hs
      cases shape with
      | unary => exact absurd rfl hs
      | serverStreaming | duplex =>
        rcases h.ending? with _ | value | (_ | _ | _ | _) | payload <;> rfl

theorem Served.carried_prefix {v : Serving α σ} {s : Scene α} {h : History α}
    (hS : j.Served received v s h) :
    ∃ call, j.Accounts call h ∧ received ++ s.held <+: h.deliveries := by
  cases hS with
  | making _ _ hA _ hc => exact ⟨_, hA, hc.1.trans (List.prefix_append _ _)⟩
  | delivering hA _ _ hc => exact ⟨_, hA, hc.1.trans (List.prefix_append _ _)⟩
  | finished hA _ _ hc => exact ⟨_, hA, hc.1⟩

/-- What the caller has received is at every moment a beginning of the elements that the channel took
from the handler, in their order, followed by the status if the call has failed. A caller who reads
on without closing or dropping the stream gets all of it, and can always read on to the end. -/
theorem stream_delivery (j : Job α σ) (hs : j.shape ≠ .unary) (w : World) (capacity : Capacity)
    (moves : List Move) :
    let start : Exchange α (Serving α σ) := .ofService w capacity
    let x := start.run j.serve moves
    let h := j.servedHistory start moves
    let all := h.taken.map .element ++ (h.failure?.map .failure).toList
    x.received <+: all ∧
      (h.result? ≠ none →
        h.contexts = [] ∧ h.failure? = some j.call.refusal ∨
          (∃ ctx, h.contexts = [ctx]) ∧ h.failure? = h.ending?.bind Ending.status?) ∧
      (.close ∉ moves → .drop ∉ moves →
        (x.next = .ended → h.result? ≠ none ∧ x.received = all) ∧
          (h.result? ≠ none → ∃ more, .close ∉ more ∧ .drop ∉ more ∧
            let y := x.run j.serve more
            y.next = .ended ∧ y.received = all)) := by
  intro start x h all
  have hS : j.Served x.received x.call x.scene h := j.served_run w capacity moves
  obtain ⟨call, hA, hprefix⟩ := hS.carried_prefix
  refine ⟨(List.prefix_append _ _).trans hprefix, failure?_of_accounts hs hA, fun hclose hdrop => ?_⟩
  have hg : x.scene.streamGone = false := j.served_streamGone w capacity hclose hdrop
  refine ⟨fun hn => ?_, fun hr => exists_ended hS hg (Option.isSome_iff_ne_none.mpr hr)⟩
  obtain ⟨hr, hrec⟩ := received_of_ended hS hg hn
  exact ⟨Option.isSome_iff_ne_none.mp hr, hrec⟩

end Job

/-! ## An example -/

/-- A job on a gate at which every method requires the same. -/
def Job.plain (infrastructurePaths : List String) (required : Requirement)
    (principal : Option PrincipalId) (shape : Shape) (handler : Handler α σ) : Job α σ where
  gate := ⟨{ Settings.standard with infrastructurePaths }, fun _ _ => ⟨required, []⟩, false⟩
  shape := shape
  call := ⟨"/shop.Orders/Watch", "shop.Orders", .empty, principal, none, .own 0⟩
  handler := handler

/-- The world before any call, in which principals may do nothing and all identifiers are alike. -/
def World.blank : World := .initial (fun _ => .powerless) fun _ => ⟨⟨0, by decide⟩⟩

/-- Sends elements, waiting where there is no room, and then ends. -/
def Turn.sending (ending : Ending α) : List α → Turn α (List α)
  | [] => .finish [] ending
  | x :: rest =>
    .offer x fun
      | .sent => sending ending rest
      | .full => .wait (x :: rest)
      | .refused => .finish rest (.failed .cancelled)

/-- The handler that sends elements and then ends. -/
def Handler.sending (elements : List α) (ending : Ending α) : Handler α (List α) where
  setup _ := .ready elements
  turn := Turn.sending ending

/-- Two elements over a stream that holds one, and then a failure. -/
theorem Job.stream_delivery_before_failure :
    let j := Job.plain [] .free none .serverStreaming (.sending [1, 2] (.failed (.unexpected ⟨[]⟩)))
    let moves : List Move := [.turn .handlerFirst, .take, .turn .streamFirst, .take,
      .turn .handlerFirst, .take]
    let x := (Exchange.ofService World.blank ⟨1, by decide, by decide⟩).run j.serve moves
    x.received =
      [.element 1, .element 2, .failure { code := .internal, message := "An error occurs." }] := by
  intro j moves x
  obtain ⟨-, -, h⟩ := j.stream_delivery (by decide) World.blank ⟨1, by decide, by decide⟩ moves
  obtain ⟨hend, -⟩ := h (by decide) (by decide)
  exact (hend (by decide +kernel)).2.trans (by decide +kernel)

end CallGate
