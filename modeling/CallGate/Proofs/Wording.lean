import Mathlib.Data.List.Forall2
import CallGate.Proofs.Delivery
import CallGate.Proofs.Secrecy
import CallGate.Proofs.Traffic

/-!
# The wording of complaints

The messages of a complaint go to the caller of the call and nowhere else. Two handlers that do the
same, but for the wording of their complaints, leave the same world behind, turn by turn, with all that
was logged. Main statements: `reworded_step` and `reworded_serve` say so of a turn of a call and of a
served call, and `world_reworded` of all traffic.
-/

namespace CallGate

variable {α σ σ' τ τ' : Type}

/-! ## Handlers that are alike but for the wording -/

/-- The endings are the same, or both are complaints of as many messages. -/
inductive Ending.Reworded : Ending α → Ending α → Prop where
  | same (ending : Ending α) : Reworded ending ending
  | complaint {c c' : Complaint} (count : c'.messages.length = c.messages.length) :
      Reworded (.failed (.complaint c)) (.failed (.complaint c'))

/-- The handlers wait in related states, or have come to endings that differ in the wording. -/
inductive Progress.Reworded (R : σ → σ' → Prop) : Progress α σ → Progress α σ' → Prop where
  | waiting {state : σ} {state' : σ'} (related : R state state') :
      Reworded R (.waiting state) (.waiting state')
  | ended {last : σ} {last' : σ'} {ending ending' : Ending α} (reworded : ending.Reworded ending') :
      Reworded R (.ended last ending) (.ended last' ending')

/-- Wherever the turns are run, they do the same, and what they come to differs in the wording. -/
def Turn.Reworded (R : σ → σ' → Prop) (t : Turn α σ) (t' : Turn α σ') : Prop :=
  ∀ s, (t'.run s).2 = (t.run s).2 ∧ (t.run s).1.Reworded R (t'.run s).1

/-- The handlers do the same, but for the wording of complaints, in related states and at the start. -/
structure Handler.Reworded (R : σ → σ' → Prop) (h : Handler α σ) (h' : Handler α σ') : Prop where
  first : ∀ ctx, (h.first ctx).Reworded R (h'.first ctx)
  turn : ∀ {state state'}, R state state' → (h.turn state).Reworded R (h'.turn state')

theorem Turn.reworded_refl (t : Turn α σ) : t.Reworded Eq t := by
  intro s
  refine ⟨rfl, ?_⟩
  cases (t.run s).1 with
  | waiting state => exact .waiting rfl
  | ended last ending => exact .ended (.same ending)

theorem Handler.reworded_refl (h : Handler α σ) : h.Reworded Eq h :=
  ⟨fun ctx => (h.first ctx).reworded_refl, fun {state _} hs => hs ▸ (h.turn state).reworded_refl⟩

theorem Turn.reworded_sending {ending ending' : Ending α} (he : ending.Reworded ending')
    (elements : List α) : (Turn.sending ending elements).Reworded Eq (Turn.sending ending' elements) := by
  induction elements with
  | nil => exact fun _ => ⟨rfl, .ended he⟩
  | cons x rest ih =>
    intro s
    simp only [Turn.sending, Turn.run]
    cases s.verdict with
    | sent => exact ih _
    | full => exact ⟨rfl, .waiting rfl⟩
    | refused => exact ⟨rfl, .ended (.same _)⟩

/-- A handler that sends elements and then complains can word its complaint differently. -/
theorem Handler.reworded_sending {ending ending' : Ending α} (he : ending.Reworded ending')
    (elements : List α) :
    (Handler.sending elements ending).Reworded Eq (Handler.sending elements ending') :=
  ⟨fun _ => Turn.reworded_sending he elements,
    fun {state _} hs => hs ▸ Turn.reworded_sending he state⟩

/-! ## Turns -/

/-- The calls wait in related states, or both have come to their results, and both have failed or
neither has. -/
inductive Passage.Reworded (R : σ → σ' → Prop) : Passage α σ → Passage α σ' → Prop where
  | arrived : Reworded R .arrived .arrived
  | running (span : Span) {state : σ} {state' : σ'} (related : R state state') :
      Reworded R (.running span state) (.running span state')
  | failed (last : Option σ) (last' : Option σ') (status status' : Status) :
      Reworded R (.settled last (.error status)) (.settled last' (.error status'))
  | completed (last : Option σ) (last' : Option σ') (reply : Reply α) :
      Reworded R (.settled last (.ok reply)) (.settled last' (.ok reply))

section Passage

variable {R : σ → σ' → Prop}

theorem Passage.reworded_settled (last : Option σ) (last' : Option σ') (result : CallResult α) :
    Passage.Reworded R (.settled last result) (.settled last' result) := by
  cases result with
  | error status => exact .failed last last' status status
  | ok reply => exact .completed last last' reply

theorem Passage.Reworded.isSome_result? {call : Passage α σ} {call' : Passage α σ'}
    (h : call.Reworded R call') : call'.result?.isSome = call.result?.isSome := by
  cases h <;> rfl

namespace Job

variable (j : Job α σ) {h' : Handler α σ'}

theorem reworded_conclude {ending ending' : Ending α} (he : ending.Reworded ending') (span : Span)
    (last : σ) (last' : σ') (s : Scene α) :
    (j.conclude span last ending s).1.Reworded R
        ((j.withHandler h').conclude span last' ending' s).1 ∧
      ((j.withHandler h').conclude span last' ending' s).2 = (j.conclude span last ending s).2 := by
  cases he with
  | same =>
    cases ending with
    | returned value => exact ⟨Passage.reworded_settled _ _ _, rfl⟩
    | failed error => cases error <;> exact ⟨Passage.reworded_settled _ _ _, rfl⟩
    | panicked payload => exact ⟨Passage.reworded_settled _ _ _, rfl⟩
  | complaint hcount =>
    refine ⟨.failed _ _ _ _, ?_⟩
    simp only [conclude, endFailed, settle, Failure.event, hcount]

theorem reworded_close {progress : Progress α σ} {progress' : Progress α σ'}
    (hp : progress.Reworded R progress') (span : Span) (s : Scene α) :
    (j.close (.worked span progress) s).1.Reworded R
        ((j.withHandler h').close (.worked span progress') s).1 ∧
      ((j.withHandler h').close (.worked span progress') s).2 =
        (j.close (.worked span progress) s).2 := by
  cases hp with
  | waiting hR =>
    by_cases hf : s.world.isFired j.call.token = true
    · simp only [close, withHandler, hf, if_true]
      exact ⟨Passage.reworded_settled _ _ _, rfl⟩
    · simp only [close, withHandler, hf]
      exact ⟨.running span hR, rfl⟩
  | ended he => exact j.reworded_conclude he span _ _ s

theorem reworded_turn {t : Turn α σ} {t' : Turn α σ'} (ht : t.Reworded R t') (span : Span)
    (s : Scene α) :
    let after := j.close (.worked span (t.run s).1) (t.run s).2
    let after' := (j.withHandler h').close (.worked span (t'.run s).1) (t'.run s).2
    after.1.Reworded R after'.1 ∧ after'.2 = after.2 := by
  obtain ⟨hs, hp⟩ := ht s
  rw [hs]
  exact j.reworded_close hp span (t.run s).2

/-- A turn leaves the same scene behind, whatever the wording. -/
theorem reworded_step (hh : j.handler.Reworded R h') {call : Passage α σ} {call' : Passage α σ'}
    (hc : call.Reworded R call') (s : Scene α) :
    (j.step call s).1.Reworded R ((j.withHandler h').step call' s).1 ∧
      ((j.withHandler h').step call' s).2 = (j.step call s).2 := by
  rw [step_eq, step_eq]
  cases hc with
  | arrived =>
    -- The gate does not know the handler, so it decides alike.
    simp only [work, withHandler]
    cases (j.gate.enter j.shape j.call s.world).1 with
    | error status => exact ⟨Passage.reworded_settled _ _ _, rfl⟩
    | ok ctx => exact j.reworded_turn (hh.first ctx) _ _
  | running span hR => exact j.reworded_turn (hh.turn hR) span s
  | failed last last' status status' => exact ⟨.failed last last' status status', rfl⟩
  | completed last last' reply => exact ⟨.completed last last' reply, rfl⟩

end Job

end Passage

/-! ## Served calls -/

/-- The served calls are equally far. -/
inductive Serving.Reworded (R : σ → σ' → Prop) : Serving α σ → Serving α σ' → Prop where
  | watching {call : Passage α σ} {call' : Passage α σ'} (calls : call.Reworded R call') :
      Reworded R (.watching call) (.watching call')
  | abandoned {call : Passage α σ} {call' : Passage α σ'} (calls : call.Reworded R call') :
      Reworded R (.abandoned call) (.abandoned call')
  | delivering (last : Option σ) (last' : Option σ') (status status' : Status) :
      Reworded R (.delivering last status) (.delivering last' status')
  | finished (last : Option σ) (last' : Option σ') : Reworded R (.finished last) (.finished last')

/-- The call is over. -/
def Serving.IsFinished (v : Serving α σ) : Prop := ∃ last, v = .finished last

/-- The served calls are equally far in the same world, and until they are over with the same stream;
the status at its end may differ. -/
structure Serving.RewordedIn (R : σ → σ' → Prop) (a : Serving α σ × Scene α)
    (b : Serving α σ' × Scene α) : Prop where
  call : a.1.Reworded R b.1
  world : b.2.world = a.2.world
  outbox : ¬ a.1.IsFinished → b.2.outbox = a.2.outbox

namespace Job

variable {R : σ → σ' → Prop}

theorem reworded_deliver (last : Option σ) (last' : Option σ') (status status' : Status) (s : Scene α) :
    Serving.RewordedIn R (deliver last status s) (deliver last' status' s) := by
  have finished {s s' : Scene α} (hw : s'.world = s.world) :
      Serving.RewordedIn R (.finished last, s) (.finished last', s') :=
    ⟨.finished last last', hw, fun h => absurd ⟨last, rfl⟩ h⟩
  unfold deliver
  cases s.verdict with
  | sent => exact finished rfl
  | full => exact ⟨.delivering last last' status status', rfl, fun _ => rfl⟩
  | refused => exact finished rfl

theorem reworded_proceed (goOn : Passage α σ → Serving α σ) (goOn' : Passage α σ' → Serving α σ')
    (hgo : ∀ {call call'}, call.Reworded R call' → (goOn call).Reworded R (goOn' call'))
    {call : Passage α σ} {call' : Passage α σ'} (hc : call.Reworded R call') {s s' : Scene α}
    (hs : s' = s) : Serving.RewordedIn R (proceed goOn (call, s)) (proceed goOn' (call', s')) := by
  subst hs
  cases hc with
  | arrived => exact ⟨hgo .arrived, rfl, fun _ => rfl⟩
  | running span hR => exact ⟨hgo (.running span hR), rfl, fun _ => rfl⟩
  | failed last last' status status' => exact reworded_deliver last last' status status' s'
  | completed last last' reply => exact ⟨.finished last last', rfl, fun _ => rfl⟩

variable (j : Job α σ) {h' : Handler α σ'}

theorem reworded_abandon (hh : j.handler.Reworded R h') {call : Passage α σ} {call' : Passage α σ'}
    (hc : call.Reworded R call') {s s' : Scene α} (hs : s' = s) :
    Serving.RewordedIn R (j.abandon call s) ((j.withHandler h').abandon call' s') := by
  subst hs
  obtain ⟨hafter, hscene⟩ := j.reworded_step hh hc (j.giveUp s')
  exact reworded_proceed .abandoned .abandoned .abandoned hafter hscene

/-- A turn of a served call leaves the same world behind, whatever the wording. -/
theorem reworded_serve (hh : j.handler.Reworded R h') (order : TurnOrder) {v : Serving α σ}
    {v' : Serving α σ'} {s s' : Scene α} (h : Serving.RewordedIn R (v, s) (v', s')) :
    Serving.RewordedIn R (j.serve order v s) ((j.withHandler h').serve order v' s') := by
  obtain ⟨hv, hw, ho⟩ := h
  have same (hn : ¬ v.IsFinished) : s' = s := by
    rcases s with ⟨w, outbox⟩
    rcases s' with ⟨w', outbox'⟩
    rw [show w' = w from hw, show outbox' = outbox from ho hn]
  cases hv with
  | watching hc =>
    obtain rfl : s' = s := same (by rintro ⟨_, ⟨⟩⟩)
    obtain ⟨hafter, hscene⟩ := j.reworded_step hh hc s'
    cases order with
    | streamFirst =>
      simp only [serve]
      split
      · exact j.reworded_abandon hh hc rfl
      · exact reworded_proceed .watching .watching .watching hafter hscene
    | handlerFirst =>
      rw [serve_handlerFirst, serve_handlerFirst]
      dsimp only
      rw [hscene, ← Option.not_isSome, ← Option.not_isSome, hafter.isSome_result?]
      split
      · exact j.reworded_abandon hh hafter rfl
      · exact reworded_proceed .watching .watching .watching hafter hscene
  | abandoned hc =>
    obtain rfl : s' = s := same (by rintro ⟨_, ⟨⟩⟩)
    obtain ⟨hafter, hscene⟩ := j.reworded_step hh hc s'
    exact reworded_proceed .abandoned .abandoned .abandoned hafter hscene
  | delivering last last' status status' =>
    obtain rfl : s' = s := same (by rintro ⟨_, ⟨⟩⟩)
    exact reworded_deliver last last' status status' s'
  | finished last last' => exact ⟨.finished last last', hw, ho⟩

end Job

/-! ## Traffic -/

/-- What is beside a turn does not know how far the calls are. -/
theorem Exchange.step_beside (turn : TurnOrder → τ → Scene α → τ × Scene α)
    (turn' : TurnOrder → τ' → Scene α → τ' × Scene α) {x : Exchange α τ} {y : Exchange α τ'} {move : Move}
    (hm : ∀ order, move ≠ .turn order) :
    (y.scene.world = x.scene.world →
      (y.step turn' move).scene.world = (x.step turn move).scene.world) ∧
    (y.scene.outbox = x.scene.outbox →
      (y.step turn' move).scene.outbox = (x.step turn move).scene.outbox) := by
  cases move with
  | turn order => exact absurd rfl (hm order)
  | take =>
    rw [step_take, step_take]
    exact ⟨id, congrArg (Option.map Channel.receive)⟩
  | close => exact ⟨id, congrArg (Option.map Channel.close)⟩
  | drop => exact ⟨id, congrArg (Option.map Channel.drop)⟩
  | fire token => exact ⟨congrArg fun w : World => w.fire token, id⟩

/-- The calls differ in the wording of their handlers, and perhaps in the status at the end of their
streams. -/
inductive Undertaking.Reworded : Undertaking → Undertaking → Prop where
  | direct {α σ σ' : Type} {R : σ → σ' → Prop} (shape : Shape) (call : Call) {h : Handler α σ}
      {h' : Handler α σ'} {x : Exchange α (Passage α σ)} {y : Exchange α (Passage α σ')}
      (handlers : h.Reworded R h') (calls : x.call.Reworded R y.call)
      (outbox : y.scene.outbox = x.scene.outbox) :
      Reworded (.direct shape call h x) (.direct shape call h' y)
  | served {α σ σ' : Type} {R : σ → σ' → Prop} (shape : Shape) (call : Call) {h : Handler α σ}
      {h' : Handler α σ'} {x : Exchange α (Serving α σ)} {y : Exchange α (Serving α σ')}
      (handlers : h.Reworded R h') (calls : x.call.Reworded R y.call)
      (outbox : ¬ x.call.IsFinished → y.scene.outbox = x.scene.outbox) :
      Reworded (.served shape call h x) (.served shape call h' y)

theorem Undertaking.reworded_step {g : Gate} {u u' : Undertaking} (h : u.Reworded u') (move : Move)
    (w : World) :
    (u.step g move w).1.Reworded (u'.step g move w).1 ∧ (u'.step g move w).2 = (u.step g move w).2 := by
  by_cases hm : ∃ order, move = .turn order
  · obtain ⟨order, rfl⟩ := hm
    cases h with
    | direct shape call hh hc ho =>
      rename_i handler handler' x y
      rcases x with ⟨passage, ⟨_, outbox⟩, received⟩
      rcases y with ⟨passage', ⟨_, outbox'⟩, received'⟩
      obtain rfl : outbox' = outbox := ho
      obtain ⟨hafter, hscene⟩ := Job.reworded_step ⟨g, shape, call, handler⟩ hh hc ⟨w, outbox'⟩
      exact ⟨.direct shape call hh hafter (congrArg Scene.outbox hscene), congrArg Scene.world hscene⟩
    | served shape call hh hc ho =>
      rename_i handler handler' x y
      have hx : Serving.RewordedIn _ (x.call, (x.inWorld w).scene) (y.call, (y.inWorld w).scene) :=
        ⟨hc, rfl, ho⟩
      obtain ⟨hafter, hworld, houtbox⟩ := Job.reworded_serve ⟨g, shape, call, handler⟩ hh order hx
      exact ⟨.served shape call hh hafter houtbox, hworld⟩
  · have hturn (order : TurnOrder) : move ≠ .turn order := fun h => hm ⟨order, h⟩
    cases h with
    | direct shape call hh hc ho =>
      rename_i handler handler' x y
      have hx := (x.inWorld w).beside_step (Job.directTurn ⟨g, shape, call, handler⟩) hturn
      have hy := (y.inWorld w).beside_step (Job.directTurn ⟨g, shape, call, handler'⟩) hturn
      obtain ⟨hworld, houtbox⟩ := Exchange.step_beside (Job.directTurn ⟨g, shape, call, handler⟩)
        (Job.directTurn ⟨g, shape, call, handler'⟩) (x := x.inWorld w) (y := y.inWorld w) hturn
      refine ⟨.direct shape call hh ?_ (houtbox ho), hworld rfl⟩
      rw [hx.call, hy.call]
      exact hc
    | served shape call hh hc ho =>
      rename_i handler handler' x y
      have hx := (x.inWorld w).beside_step (Job.serve ⟨g, shape, call, handler⟩) hturn
      have hy := (y.inWorld w).beside_step (Job.serve ⟨g, shape, call, handler'⟩) hturn
      obtain ⟨hworld, houtbox⟩ := Exchange.step_beside (Job.serve ⟨g, shape, call, handler⟩)
        (Job.serve ⟨g, shape, call, handler'⟩) (x := x.inWorld w) (y := y.inWorld w) hturn
      refine ⟨.served shape call hh ?_ fun hn => houtbox (ho ?_), hworld rfl⟩
      · rw [hx.call, hy.call]
        exact hc
      · rw [hx.call] at hn
        exact hn

/-- The incidents are the same, or calls are made whose handlers differ in the wording. -/
inductive Incident.Reworded : Incident → Incident → Prop where
  | same (i : Incident) : Reworded i i
  | make {α σ σ' : Type} {R : σ → σ' → Prop} (shape : Shape) (call : Call) {h : Handler α σ}
      {h' : Handler α σ'} (outbox : Option (Channel (Delivery α))) (handlers : h.Reworded R h') :
      Reworded (.make shape call h outbox) (.make shape call h' outbox)
  | serve {α σ σ' : Type} {R : σ → σ' → Prop} (shape : Shape) (call : Call) {h : Handler α σ}
      {h' : Handler α σ'} (capacity : Capacity) (handlers : h.Reworded R h') :
      Reworded (.serve shape call h capacity) (.serve shape call h' capacity)

namespace Traffic

/-- The worlds are the same, and so are the calls but for the wording. -/
structure Reworded (t t' : Traffic) : Prop where
  world : t'.world = t.world
  calls : List.Forall₂ Undertaking.Reworded t.calls t'.calls

theorem reworded_move {g : Gate} {t t' : Traffic} (h : t.Reworded t') (n : Nat) (move : Move) :
    (t.step g (.move n move)).Reworded (t'.step g (.move n move)) := by
  obtain ⟨hw, hcalls⟩ := h
  have set {l l' : List Undertaking} (hl : List.Forall₂ Undertaking.Reworded l l') (n : Nat)
      {u u' : Undertaking} (hu : u.Reworded u') :
      List.Forall₂ Undertaking.Reworded (l.set n u) (l'.set n u') := by
    induction hl generalizing n with
    | nil => exact .nil
    | cons hhead htail ih =>
      cases n with
      | zero => exact .cons hu htail
      | succ n => exact .cons hhead (ih n)
  have found : t.calls[n]? = none ∧ t'.calls[n]? = none ∨
      ∃ u u', t.calls[n]? = some u ∧ t'.calls[n]? = some u' ∧ u.Reworded u' := by
    have hlength := hcalls.length_eq
    by_cases hn : n < t.calls.length
    · have hn' : n < t'.calls.length := hlength ▸ hn
      exact Or.inr ⟨_, _, List.getElem?_eq_getElem hn, List.getElem?_eq_getElem hn', hcalls.get hn hn'⟩
    · have hn' : ¬ n < t'.calls.length := hlength ▸ hn
      exact Or.inl ⟨List.getElem?_eq_none (Nat.le_of_not_lt hn),
        List.getElem?_eq_none (Nat.le_of_not_lt hn')⟩
  simp only [step]
  rcases found with ⟨hu, hu'⟩ | ⟨u, u', hu, hu', hreworded⟩
  · rw [hu, hu']
    exact ⟨hw, hcalls⟩
  · rw [hu, hu', hw]
    obtain ⟨hafter, hworld⟩ := Undertaking.reworded_step (g := g) hreworded move t.world
    exact ⟨hworld, set hcalls n hafter⟩

theorem reworded_step {g : Gate} {t t' : Traffic} (h : t.Reworded t') {i i' : Incident}
    (hi : i.Reworded i') : (t.step g i).Reworded (t'.step g i') := by
  obtain ⟨hw, hcalls⟩ := h
  have added {u u' : Undertaking} (hu : u.Reworded u') :
      List.Forall₂ Undertaking.Reworded (t.calls ++ [u]) (t'.calls ++ [u']) :=
    List.rel_append hcalls (.cons hu .nil)
  have made {α σ σ' : Type} {R : σ → σ' → Prop} (shape : Shape) (call : Call) {h : Handler α σ}
      {h' : Handler α σ'} (outbox : Option (Channel (Delivery α))) (hh : h.Reworded R h') :
      (t.step g (.make shape call h outbox)).Reworded (t'.step g (.make shape call h' outbox)) :=
    ⟨hw, added (.direct shape call hh .arrived rfl)⟩
  have served {α σ σ' : Type} {R : σ → σ' → Prop} (shape : Shape) (call : Call) {h : Handler α σ}
      {h' : Handler α σ'} (capacity : Capacity) (hh : h.Reworded R h') :
      (t.step g (.serve shape call h capacity)).Reworded (t'.step g (.serve shape call h' capacity)) :=
    ⟨hw, added (.served shape call hh (.watching .arrived) fun _ => rfl)⟩
  cases hi with
  | same =>
    cases i with
    | lookUp method service => exact ⟨congrArg (g.consult none method service) hw, hcalls⟩
    | screen call => exact ⟨congrArg (fun w => (g.screen none call w).2) hw, hcalls⟩
    | setProfile p locale => exact ⟨congrArg (fun w : World => w.setProfile p locale) hw, hcalls⟩
    | fire token => exact ⟨congrArg (fun w : World => w.fire token) hw, hcalls⟩
    | make shape call handler outbox => exact made shape call outbox handler.reworded_refl
    | serve shape call handler capacity => exact served shape call capacity handler.reworded_refl
    | move n move => exact reworded_move ⟨hw, hcalls⟩ n move
  | make shape call outbox hh => exact made shape call outbox hh
  | serve shape call capacity hh => exact served shape call capacity hh

/-- Whatever the wording of complaints is, traffic leaves the same world behind. -/
theorem world_reworded {g : Gate} {t t' : Traffic} (h : t.Reworded t') {incidents incidents' : List Incident}
    (hi : List.Forall₂ Incident.Reworded incidents incidents') :
    (t'.run g incidents').world = (t.run g incidents).world := by
  induction hi generalizing t t' with
  | nil => exact h.world
  | cons hhead _ ih => exact ih (reworded_step h hhead)

end Traffic

end CallGate
