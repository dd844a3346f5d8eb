import CallGate.Proofs.Run

/-!
# What the log alone knows

A handler can come to a bad end in many ways: with an error of any kind, with a panic of any kind, in
a turn or while it is set up. Main statements: `step_alike` and `serve_alike` say that calls of
handlers that are alike but for this stay alike turn by turn, and `direct_alike` and `served_alike`
that after any moves nothing but the log can tell them apart.
-/

namespace CallGate

variable {α σ σ' τ τ' : Type}

/-! ## Without the log -/

/-- The world without what has been logged. -/
def World.unlogged (w : World) : World :=
  { w with journal := w.journal.filter fun o => o.entry?.isNone }

namespace World

variable (w : World)

@[simp] theorem unlogged_log (span : Option Span) (e : Event) :
    (w.log span e).unlogged = w.unlogged := by
  simp [unlogged, log, note, Occurrence.entry?]

@[simp] theorem unlogged_fire (t : TokenId) : (w.fire t).unlogged = w.unlogged.fire t := by
  unfold fire isFired
  by_cases h : w.fired.contains t = true
  · rw [if_pos h]
    exact (if_pos h).symm
  · rw [if_neg h]
    exact (if_neg h).symm

end World

/-- The scene without what has been logged. -/
def Scene.unlogged (s : Scene α) : Scene α := s.onWorld World.unlogged

namespace Scene

variable {s s' : Scene α}

theorem outbox_eq (h : s.unlogged = s'.unlogged) : s.outbox = s'.outbox :=
  (Scene.mk.injEq .. ▸ h).2

theorem world_unlogged_eq (h : s.unlogged = s'.unlogged) : s.world.unlogged = s'.world.unlogged :=
  (Scene.mk.injEq .. ▸ h).1

theorem unlogged_eq (outbox : s.outbox = s'.outbox) (world : s.world.unlogged = s'.world.unlogged) :
    s.unlogged = s'.unlogged := by
  simp only [unlogged, onWorld, outbox, world]

theorem streamGone_eq (h : s.unlogged = s'.unlogged) : s.streamGone = s'.streamGone := by
  rw [streamGone, outbox_eq h, streamGone]

theorem verdict_eq (h : s.unlogged = s'.unlogged) : s.verdict = s'.verdict := by
  rw [verdict, outbox_eq h, verdict]

theorem unlogged_dropSink (h : s.unlogged = s'.unlogged) :
    s.dropSink.unlogged = s'.dropSink.unlogged := by
  have hw : s.world.unlogged = s'.world.unlogged := world_unlogged_eq h
  refine unlogged_eq ?_ hw
  exact congrArg (Option.map Channel.dropSink) (outbox_eq h)

end Scene

/-! ## Handlers that are alike but for their faults -/

/-- The handler has come to an end that is its own fault. -/
def Ending.isFault : Ending α → Bool
  | .failed (.unexpected _) => true
  | .panicked _ => true
  | _ => false

/-- The endings are the same, or both of them are faults. -/
def Ending.Alike (e e' : Ending α) : Prop := e = e' ∨ e.isFault = true ∧ e'.isFault = true

/-- The handlers wait in states that are alike, or have come to ends that are alike. -/
def Progress.Alike (R : σ → σ' → Prop) : Progress α σ → Progress α σ' → Prop
  | .waiting state, .waiting state' => R state state'
  | .ended _ ending, .ended _ ending' => ending.Alike ending'
  | _, _ => False

/-- Wherever the turns are run, they do the same and come to what is alike. -/
def Turn.Alike (R : σ → σ' → Prop) (t : Turn α σ) (t' : Turn α σ') : Prop :=
  ∀ s, (t.run s).2 = (t'.run s).2 ∧ (t.run s).1.Alike R (t'.run s).1

/-- The handlers do the same in states that are alike, and start alike. -/
structure Handler.Alike (R : σ → σ' → Prop) (h : Handler α σ) (h' : Handler α σ') : Prop where
  first : ∀ ctx, (h.first ctx).Alike R (h'.first ctx)
  turn : ∀ {state state'}, R state state' → (h.turn state).Alike R (h'.turn state')

/-- The calls wait, or have come to the same result. -/
def Passage.Alike (R : σ → σ' → Prop) : Passage α σ → Passage α σ' → Prop
  | .arrived, .arrived => True
  | .running span state, .running span' state' => span = span' ∧ R state state'
  | .settled _ result, .settled _ result' => result = result'
  | _, _ => False

/-- Two calls are alike, and so is what is around them: all of it while the calls are live, and all
but the log when they are over. -/
structure InStep (A : τ → τ' → Prop) (live : τ → Prop) (a : τ × Scene α) (b : τ' × Scene α) :
    Prop where
  call : A a.1 b.1
  unlogged : a.2.unlogged = b.2.unlogged
  scene : live a.1 → a.2 = b.2

/-- The calls are alike, as long as they have no result with all that is around them. -/
abbrev Passage.AlikeIn (R : σ → σ' → Prop) (a : Passage α σ × Scene α)
    (b : Passage α σ' × Scene α) : Prop :=
  InStep (Passage.Alike R) (fun call => call.result? = none) a b

theorem Passage.Alike.result? {R : σ → σ' → Prop} {call : Passage α σ} {call' : Passage α σ'}
    (h : call.Alike R call') : call.result? = call'.result? := by
  cases call <;> cases call' <;> first | rfl | exact h.elim | exact congrArg some h

namespace Job

variable {R : σ → σ' → Prop}

/-- The same job with another handler. -/
def withHandler (j : Job α σ) (h : Handler α σ') : Job α σ' := ⟨j.gate, j.shape, j.call, h⟩

theorem settle_alike {s s' : Scene α} (h : s.unlogged = s'.unlogged) (last : Option σ)
    (last' : Option σ') (result : CallResult α) :
    Passage.AlikeIn R (settle s last result) (settle s' last' result) :=
  ⟨rfl, Scene.unlogged_dropSink h, fun hr => absurd hr (Option.some_ne_none result)⟩

variable (j : Job α σ) {h' : Handler α σ'}

theorem conclude_fault (span : Span) (last : σ) {ending : Ending α} (he : ending.isFault = true)
    (s : Scene α) :
    ∃ e, j.conclude span last ending s = settle (s.onWorld fun w => w.log (some span) e) (some last)
      (.error Envelope.unexpected.toStatus) := by
  cases ending with
  | returned value => cases he
  | failed error =>
    cases error with
    | unexpected chain => exact ⟨_, rfl⟩
    | handedOn | complaint | cancelled => cases he
  | panicked payload => exact ⟨_, rfl⟩

theorem conclude_alike {ending ending' : Ending α} (he : ending.Alike ending') (span : Span)
    (last : σ) (last' : σ') (s : Scene α) :
    Passage.AlikeIn R (j.conclude span last ending s)
      ((j.withHandler h').conclude span last' ending' s) := by
  rcases he with rfl | ⟨he, he'⟩
  · cases ending with
    | returned value => exact settle_alike rfl _ _ _
    | failed error => cases error <;> exact settle_alike rfl _ _ _
    | panicked payload => exact settle_alike rfl _ _ _
  · -- Two faults are logged as different events, and nothing else of them remains.
    obtain ⟨e, hc⟩ := j.conclude_fault span last he s
    obtain ⟨e', hc'⟩ := (j.withHandler h').conclude_fault span last' he' s
    rw [hc, hc']
    refine settle_alike ?_ _ _ _
    refine Scene.unlogged_eq rfl ?_
    rw [Scene.world_onWorld, Scene.world_onWorld, World.unlogged_log, World.unlogged_log]

theorem worked_alike {progress : Progress α σ} {progress' : Progress α σ'}
    (hp : progress.Alike R progress') (span : Span) (s : Scene α) :
    Passage.AlikeIn R (j.close (.worked span progress) s)
      ((j.withHandler h').close (.worked span progress') s) := by
  cases progress with
  | waiting state =>
    cases progress' with
    | ended => exact hp.elim
    | waiting state' =>
      by_cases hf : s.world.isFired j.call.token = true
      · simp only [close, withHandler, hf, if_true]
        exact settle_alike rfl _ _ _
      · simp only [close, withHandler, hf]
        exact ⟨⟨rfl, hp⟩, rfl, fun _ => rfl⟩
  | ended last ending =>
    cases progress' with
    | waiting => exact hp.elim
    | ended last' ending' => exact j.conclude_alike hp span last last' s

theorem turn_alike {t : Turn α σ} {t' : Turn α σ'} (ht : t.Alike R t') (span : Span) (s : Scene α) :
    Passage.AlikeIn R (j.close (.worked span (t.run s).1) (t.run s).2)
      ((j.withHandler h').close (.worked span (t'.run s).1) (t'.run s).2) := by
  obtain ⟨hs, hp⟩ := ht s
  rw [← hs]
  exact j.worked_alike hp span (t.run s).2

/-- Calls of handlers that are alike stay alike in every turn. -/
theorem step_alike (hh : j.handler.Alike R h') {call : Passage α σ} {call' : Passage α σ'}
    {s s' : Scene α} (ha : Passage.AlikeIn R (call, s) (call', s')) :
    Passage.AlikeIn R (j.step call s) ((j.withHandler h').step call' s') := by
  obtain ⟨hc, hu, hs⟩ := ha
  rw [step_eq, step_eq]
  cases call with
  | arrived =>
    cases call' with
    | running | settled => exact hc.elim
    | arrived =>
      obtain rfl : s = s' := hs rfl
      -- The gate does not know the handler, so it decides alike.
      simp only [work, withHandler]
      cases (j.gate.enter j.shape j.call s.world).1 with
      | error status => exact settle_alike rfl _ _ _
      | ok ctx => exact j.turn_alike (hh.first ctx) _ _
  | running span state =>
    cases call' with
    | arrived | settled => exact hc.elim
    | running span' state' =>
      obtain ⟨rfl, hR⟩ := hc
      obtain rfl : s = s' := hs rfl
      exact j.turn_alike (hh.turn hR) span s
  | settled last result =>
    cases call' with
    | arrived | running => exact hc.elim
    | settled last' result' => exact ⟨hc, hu, fun hr => absurd hr (Option.some_ne_none result)⟩

end Job

/-! ## Served calls -/

/-- The served calls are alike. -/
def Serving.Alike (R : σ → σ' → Prop) : Serving α σ → Serving α σ' → Prop
  | .watching call, .watching call' => call.Alike R call'
  | .abandoned call, .abandoned call' => call.Alike R call'
  | .delivering _ status, .delivering _ status' => status = status'
  | .finished _, .finished _ => True
  | _, _ => False

/-- The call is still made. -/
def Serving.isLive (v : Serving α σ) : Prop := ∃ call, v.call? = some call ∧ call.result? = none

theorem Serving.not_isLive {v : Serving α σ} (h : v.call? = none) : ¬ v.isLive := by
  rintro ⟨call, hv, -⟩
  rw [h] at hv
  cases hv

/-- The served calls are alike, as long as they are made with all that is around them. -/
abbrev Serving.AlikeIn (R : σ → σ' → Prop) (a : Serving α σ × Scene α)
    (b : Serving α σ' × Scene α) : Prop :=
  InStep (Serving.Alike R) Serving.isLive a b

namespace Job

variable {R : σ → σ' → Prop}

theorem deliver_alike {s s' : Scene α} (h : s.unlogged = s'.unlogged) (last : Option σ)
    (last' : Option σ') (status : Status) :
    Serving.AlikeIn R (deliver last status s) (deliver last' status s') := by
  have finished {s s' : Scene α} (h : s.unlogged = s'.unlogged) :
      Serving.AlikeIn R (.finished last, s) (.finished last', s') :=
    ⟨trivial, h, fun hl => absurd hl (Serving.not_isLive rfl)⟩
  have ho := Scene.outbox_eq h
  have hw := Scene.world_unlogged_eq h
  unfold deliver
  rw [← Scene.verdict_eq h]
  cases s.verdict with
  | sent =>
    refine finished (Scene.unlogged_dropSink (Scene.unlogged_eq ?_ hw))
    exact congrArg (Option.map fun channel => channel.offer (.failure status)) ho
  | full => exact ⟨rfl, h, fun hl => absurd hl (Serving.not_isLive rfl)⟩
  | refused =>
    refine finished (Scene.unlogged_dropSink (Scene.unlogged_eq ho ?_))
    rw [Scene.world_onWorld, Scene.world_onWorld, World.unlogged_log, World.unlogged_log]
    exact hw

theorem proceed_alike (goOn : Passage α σ → Serving α σ) (goOn' : Passage α σ' → Serving α σ')
    (hgo : ∀ call call', call.Alike R call' → (goOn call).Alike R (goOn' call')) {a : Passage α σ × Scene α}
    {b : Passage α σ' × Scene α} (h : Passage.AlikeIn R a b) :
    Serving.AlikeIn R (proceed goOn a) (proceed goOn' b) := by
  obtain ⟨call, s⟩ := a
  obtain ⟨call', s'⟩ := b
  obtain ⟨hc, hu, hs⟩ := h
  cases hr : call.result? with
  | none =>
    rw [proceed_of_result?_eq_none goOn hr, proceed_of_result?_eq_none goOn' (hc.result? ▸ hr)]
    exact ⟨hgo call call' hc, hu, fun _ => hs hr⟩
  | some result =>
    cases call with
    | arrived | running => cases hr
    | settled last result =>
      cases call' with
      | arrived | running => exact hc.elim
      | settled last' result' =>
        obtain rfl : result = result' := hc
        cases result with
        | error status => exact deliver_alike hu last last' status
        | ok reply =>
          exact ⟨trivial, Scene.unlogged_dropSink hu, fun hl => absurd hl (Serving.not_isLive rfl)⟩

variable (j : Job α σ) {h' : Handler α σ'}

theorem giveUp_alike {call : Passage α σ} {call' : Passage α σ'} {s s' : Scene α}
    (h : Passage.AlikeIn R (call, s) (call', s')) :
    Passage.AlikeIn R (call, j.giveUp s) (call', (j.withHandler h').giveUp s') := by
  have ho : s.outbox = s'.outbox := Scene.outbox_eq h.unlogged
  have hw : s.world.unlogged = s'.world.unlogged := Scene.world_unlogged_eq h.unlogged
  refine ⟨h.call, Scene.unlogged_eq ho ?_, ?_⟩
  · simp only [Job.giveUp, Scene.world_onWorld, World.unlogged_fire, World.unlogged_log, hw]
    rfl
  · intro hr
    exact congrArg j.giveUp (h.scene hr)

theorem abandon_alike (hh : j.handler.Alike R h') {call : Passage α σ} {call' : Passage α σ'}
    {s s' : Scene α} (h : Passage.AlikeIn R (call, s) (call', s')) :
    Serving.AlikeIn R (j.abandon call s) ((j.withHandler h').abandon call' s') :=
  proceed_alike .abandoned .abandoned (fun _ _ h => h) (j.step_alike hh (j.giveUp_alike h))

/-- Served calls of handlers that are alike stay alike in every turn. -/
theorem serve_alike (hh : j.handler.Alike R h') (order : TurnOrder) {v : Serving α σ}
    {v' : Serving α σ'} {s s' : Scene α} (h : Serving.AlikeIn R (v, s) (v', s')) :
    Serving.AlikeIn R (j.serve order v s) ((j.withHandler h').serve order v' s') := by
  obtain ⟨hc, hu, hs⟩ := h
  cases v with
  | watching call =>
    cases v' with
    | abandoned | delivering | finished => exact hc.elim
    | watching call' =>
      have hp : Passage.AlikeIn R (call, s) (call', s') := ⟨hc, hu, fun hr => hs ⟨call, rfl, hr⟩⟩
      have hstep := j.step_alike hh hp
      cases order with
      | streamFirst =>
        simp only [serve]
        rw [← Scene.streamGone_eq hu]
        split
        · exact j.abandon_alike hh hp
        · exact proceed_alike .watching .watching (fun _ _ h => h) hstep
      | handlerFirst =>
        rw [serve_handlerFirst, serve_handlerFirst]
        dsimp only
        rw [← hstep.call.result?, ← Scene.streamGone_eq hstep.unlogged]
        split
        · exact j.abandon_alike hh hstep
        · exact proceed_alike .watching .watching (fun _ _ h => h) hstep
  | abandoned call =>
    cases v' with
    | watching | delivering | finished => exact hc.elim
    | abandoned call' =>
      have hp : Passage.AlikeIn R (call, s) (call', s') := ⟨hc, hu, fun hr => hs ⟨call, rfl, hr⟩⟩
      exact proceed_alike .abandoned .abandoned (fun _ _ h => h) (j.step_alike hh hp)
  | delivering last status =>
    cases v' with
    | watching | abandoned | finished => exact hc.elim
    | delivering last' status' =>
      obtain rfl : status = status' := hc
      exact deliver_alike hu last last' status
  | finished last =>
    cases v' with
    | watching | abandoned | delivering => exact hc.elim
    | finished last' => exact ⟨trivial, hu, fun hl => absurd hl (Serving.not_isLive rfl)⟩

end Job

/-! ## Whole runs -/

namespace Exchange

variable {A : τ → τ' → Prop} {live : τ → Prop} {turn : TurnOrder → τ → Scene α → τ × Scene α}
  {turn' : TurnOrder → τ' → Scene α → τ' × Scene α}

/-- The exchanges are alike, and their callers have received the same. -/
def InStep (A : τ → τ' → Prop) (live : τ → Prop) (x : Exchange α τ) (y : Exchange α τ') : Prop :=
  CallGate.InStep A live (x.call, x.scene) (y.call, y.scene) ∧ x.received = y.received

/-- A move that is not a turn leaves exchanges alike. -/
theorem inStep_beside {x : Exchange α τ} {y : Exchange α τ'} (h : x.InStep A live y) {move : Move}
    (hm : ∀ order, move ≠ .turn order) : (x.step turn move).InStep A live (y.step turn' move) := by
  obtain ⟨⟨hA, hu, hs⟩, hr⟩ := h
  have ho : x.scene.outbox = y.scene.outbox := Scene.outbox_eq hu
  have hw : x.scene.world.unlogged = y.scene.world.unlogged := Scene.world_unlogged_eq hu
  have onOutbox (f : Option (Channel (Delivery α)) → Option (Channel (Delivery α))) :
      CallGate.InStep A live (x.call, { x.scene with outbox := f x.scene.outbox })
        (y.call, { y.scene with outbox := f y.scene.outbox }) := by
    refine ⟨hA, Scene.unlogged_eq (congrArg f ho) hw, fun hl => ?_⟩
    have hs' : x.scene = y.scene := hs hl
    simp only [hs']
  cases move with
  | turn order => exact absurd rfl (hm order)
  | take =>
    rw [step_take, step_take]
    refine ⟨onOutbox (Option.map Channel.receive), ?_⟩
    simp only [hr, ho]
  | close => exact ⟨onOutbox (Option.map Channel.close), hr⟩
  | drop => exact ⟨onOutbox (Option.map Channel.drop), hr⟩
  | fire token =>
    refine ⟨⟨hA, Scene.unlogged_eq ho ?_, fun hl => ?_⟩, hr⟩
    · simp only [step, Scene.world_onWorld, World.unlogged_fire, hw]
    · exact congrArg (Scene.onWorld · fun w => w.fire token) (hs hl)

/-- If the turns keep calls alike, so do runs. -/
theorem inStep_run
    (inside : ∀ order a b, CallGate.InStep A live a b →
      CallGate.InStep A live (turn order a.1 a.2) (turn' order b.1 b.2))
    (moves : List Move) {x : Exchange α τ} {y : Exchange α τ'} (h : x.InStep A live y) :
    (x.run turn moves).InStep A live (y.run turn' moves) := by
  induction moves generalizing x y with
  | nil => exact h
  | cons move moves ih =>
    refine ih ?_
    by_cases hm : ∃ order, move = .turn order
    · obtain ⟨order, rfl⟩ := hm
      exact ⟨inside order _ _ h.1, h.2⟩
    · exact inStep_beside h fun order ho => hm ⟨order, ho⟩

theorem next_eq {x : Exchange α τ} {y : Exchange α τ'} (h : x.InStep A live y) :
    x.next = y.next := by
  have ho : x.scene.outbox = y.scene.outbox := Scene.outbox_eq h.1.unlogged
  rw [next, ho, next]

end Exchange

namespace Job

variable {R : σ → σ' → Prop} (j : Job α σ) {h' : Handler α σ'}

theorem direct_alike (hh : j.handler.Alike R h') (w : World)
    (outbox : Option (Channel (Delivery α))) (moves : List Move) :
    ((Exchange.ofCall w outbox).run j.directTurn moves).InStep (Passage.Alike R)
      (fun call => call.result? = none)
      ((Exchange.ofCall w outbox).run (j.withHandler h').directTurn moves) :=
  Exchange.inStep_run (fun _ _ _ h => j.step_alike hh h) moves ⟨⟨trivial, rfl, fun _ => rfl⟩, rfl⟩

theorem served_alike (hh : j.handler.Alike R h') (w : World) (capacity : Capacity)
    (moves : List Move) :
    ((Exchange.ofService w capacity).run j.serve moves).InStep (Serving.Alike R) Serving.isLive
      ((Exchange.ofService w capacity).run (j.withHandler h').serve moves) :=
  Exchange.inStep_run (fun order _ _ h => j.serve_alike hh order h) moves
    ⟨⟨trivial, rfl, fun _ => rfl⟩, rfl⟩

end Job

end CallGate
