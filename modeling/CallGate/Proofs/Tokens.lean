import CallGate.Proofs.Cleanup
import CallGate.Proofs.Share

/-!
# Who fires tokens

A token is fired from outside, by a handler, or by a gate that finds the stream of a served call gone
while the call has not come to its result. Nothing else that a gate does fires a token, and it fires
none but that of the call. Main statements: `gate_fires_iff` says when a gate fires a token in a
turn of a served call, `serve_gone` what becomes of a call in the turn after its stream was dropped, and
`tokens_fired` what follows for traffic. A call whose handler is looked at first and ends then is over
before its stream is missed, and its token is not fired.
-/

namespace CallGate

variable {α σ : Type}

/-! ## Tokens in ledgers -/

namespace Change

/-- The token that is fired. -/
def token? : Change → Option TokenId
  | fired t => some t
  | _ => none

end Change

/-- The token that is fired by a gate. -/
def gateToken? (entry : Agent × Change) : Option TokenId :=
  if entry.1 = .gate then entry.2.token? else none

theorem mem_firings_iff {l : Ledger} {t : TokenId} :
    t ∈ l.filterMap gateToken? ↔ (Agent.gate, Change.fired t) ∈ l := by
  rw [List.mem_filterMap]
  constructor
  · rintro ⟨⟨agent, c⟩, hentry, hc⟩
    unfold gateToken? at hc
    split at hc
    · next hagent =>
      obtain rfl : agent = .gate := hagent
      cases c <;> cases hc
      exact hentry
    · cases hc
  · intro h
    exact ⟨_, h, rfl⟩

theorem Agent.firings_did (agent : Agent) (changes : List Change) :
    (agent.did changes).filterMap gateToken? =
      if agent = .gate then changes.filterMap Change.token? else [] := by
  unfold did
  rw [List.filterMap_map]
  by_cases h : agent = .gate
  · rw [if_pos h]
    exact congrArg (List.filterMap · changes) (funext fun _ => if_pos h)
  · rw [if_neg h, List.filterMap_eq_nil_iff]
    exact fun _ _ => if_neg h

namespace World

/-- A token is fired if it was so before, or by a change. -/
theorem isFired_replay (w : World) (changes : List Change) (t : TokenId) :
    (w.replay changes).isFired t = true ↔ w.isFired t = true ∨ .fired t ∈ changes := by
  induction changes generalizing w with
  | nil => simp
  | cons c changes ih =>
    have hone : (w.apply c).isFired t = true ↔ w.isFired t = true ∨ Change.fired t = c := by
      cases c with
      | fired t' =>
        rw [apply, isFired_fire, Bool.or_eq_true, beq_iff_eq]
        exact or_congr_right ⟨fun h => h ▸ rfl, fun h => Change.fired.inj h⟩
      | noted | drawn | asked | profileSet | remembered =>
        constructor
        · exact Or.inl
        · rintro (h | h)
          · exact h
          · cases h
    rw [replay_cons, ih, hone, List.mem_cons, or_assoc]

end World

namespace Gate

variable (g : Gate)

theorem tokens_consultChanges (span : Option Span) (method service : String) (w : World) :
    (g.consultChanges span method service w).filterMap Change.token? = [] := by
  rw [filterMap_consultChanges (fun _ => rfl) (fun _ _ => rfl)]
  split <;> rfl

theorem tokens_screenChanges (span : Option Span) (call : Call) (w : World) :
    (g.screenChanges span call w).filterMap Change.token? = [] := by
  rw [filterMap_screenChanges (fun _ => rfl) (fun _ => rfl) rfl, tokens_consultChanges, List.append_nil,
    List.filterMap_eq_nil_iff]
  exact fun _ _ => rfl

theorem tokens_enterChanges (shape : Shape) (call : Call) (w : World) :
    (g.enterChanges shape call w).filterMap Change.token? = [] := by
  unfold enterChanges
  split
  · rfl
  · exact g.tokens_screenChanges _ call w

end Gate

/-! ## Turns -/

namespace Job

variable (j : Job α σ)

/-- In a turn of the call itself no gate fires a token. -/
theorem firings_ledger (call : Passage α σ) (s : Scene α) :
    (j.ledger call s).filterMap gateToken? = [] := by
  have hentry : (j.entryChanges call s).filterMap Change.token? = [] := by
    rw [j.filterMap_entryChanges (fun _ => rfl)]
    cases call with
    | arrived => exact j.gate.tokens_enterChanges _ _ _
    | running | settled => rfl
  have hclose := j.filterMap_closeChanges (f := Change.token?) (fun _ => rfl) (j.work call s).1
    (j.work call s).2
  simp [ledger, Agent.firings_did, hentry, hclose]

theorem firings_proceedLedger (call : Passage α σ) (s : Scene α) :
    (j.proceedLedger call s).filterMap gateToken? = [] := by
  have hdeliver (s : Scene α) : (Agent.gate.did (deliverChanges s)).filterMap gateToken? = [] := by
    unfold deliverChanges
    cases s.verdict <;> rfl
  unfold proceedLedger
  rw [List.filterMap_append, firings_ledger, List.nil_append]
  split
  · exact hdeliver _
  · rfl

variable {j}

theorem not_fires_of_firings {l : Ledger} (h : l.filterMap gateToken? = []) (t : TokenId) :
    (Agent.gate, Change.fired t) ∉ l := by
  rw [← mem_firings_iff, h]
  exact List.not_mem_nil

/-- In the turn the stream is found to be gone while the call has not come to its result. -/
inductive FoundGone (j : Job α σ) : TurnOrder → Serving α σ → Scene α → Prop where
  | streamFirst {call : Passage α σ} {s : Scene α} (gone : s.streamGone = true) :
      FoundGone j .streamFirst (.watching call) s
  | handlerFirst {call : Passage α σ} {s : Scene α} (pending : (j.step call s).1.result? = none)
      (gone : (j.step call s).2.streamGone = true) : FoundGone j .handlerFirst (.watching call) s

theorem FoundGone.streamGone {order : TurnOrder} {v : Serving α σ} {s : Scene α}
    (h : j.FoundGone order v s) : ∃ call, v = .watching call ∧ s.streamGone = true := by
  cases h with
  | streamFirst gone => exact ⟨_, rfl, gone⟩
  | handlerFirst pending gone => exact ⟨_, rfl, (j.step_streamGone _ s).symm.trans gone⟩

/-- A gate fires the token of a served call whose stream it finds gone, and no other. -/
theorem gate_fires_iff (order : TurnOrder) (v : Serving α σ) (s : Scene α) (t : TokenId) :
    (Agent.gate, Change.fired t) ∈ j.serveLedger order v s ↔
      j.FoundGone order v s ∧ j.call.token = t := by
  have hgiveUp : (Agent.gate, Change.fired t) ∈ Agent.gate.did j.giveUpChanges ↔ j.call.token = t := by
    simp [Agent.did, giveUpChanges, logChanges, eq_comm]
  have hproceed (call : Passage α σ) (s : Scene α) :
      (Agent.gate, Change.fired t) ∉ j.proceedLedger call s :=
    not_fires_of_firings (j.firings_proceedLedger call s) t
  have never {l : Ledger} (hl : (Agent.gate, Change.fired t) ∉ l) (hn : ¬ j.FoundGone order v s) :
      (Agent.gate, Change.fired t) ∈ l ↔ j.FoundGone order v s ∧ j.call.token = t :=
    ⟨fun h => absurd h hl, fun h => absurd h.1 hn⟩
  cases v with
  | watching call =>
    cases order with
    | streamFirst =>
      by_cases hg : s.streamGone = true
      · simp only [serveLedger, if_pos hg, List.mem_append, hgiveUp, hproceed, or_false]
        exact ⟨fun h => ⟨.streamFirst hg, h⟩, And.right⟩
      · simp only [serveLedger, if_neg hg]
        refine never (hproceed call s) ?_
        rintro ⟨gone⟩
        exact hg gone
    | handlerFirst =>
      by_cases hg : ((j.step call s).1.result?.isNone && (j.step call s).2.streamGone) = true
      · have hledger := not_fires_of_firings (j.firings_ledger call s) t
        obtain ⟨hpending, hgone⟩ := (Bool.and_eq_true _ _).mp hg
        simp only [serveLedger, if_pos hg, List.mem_append, hgiveUp, hproceed, hledger, or_false,
          false_or]
        exact ⟨fun h => ⟨.handlerFirst (Option.isNone_iff_eq_none.mp hpending) hgone, h⟩, And.right⟩
      · simp only [serveLedger, if_neg hg]
        refine never (hproceed call s) ?_
        rintro (_ | ⟨pending, gone⟩)
        exact hg (by rw [pending, gone]; rfl)
  | abandoned call =>
    refine never (hproceed call s) ?_
    rintro ⟨⟩
  | delivering last status =>
    refine never (not_fires_of_firings ?_ t) ?_
    · simp only [serveLedger, deliverChanges]
      cases s.verdict <;> rfl
    · rintro ⟨⟩
  | finished last =>
    refine never List.not_mem_nil ?_
    rintro ⟨⟩

end Job

/-- No token is fired by a gate but in a turn of a served call whose stream it finds gone. -/
theorem Traffic.gate_fires_iff (g : Gate) (t : Traffic) (i : Incident) (token : TokenId) :
    (Agent.gate, Change.fired token) ∈ t.entries g i ↔
      ∃ n order, i = .move n (.turn order) ∧ ∃ (α σ : Type) (shape : Shape) (call : Call)
        (handler : Handler α σ) (x : Exchange α (Serving α σ)),
        t.calls[n]? = some (.served shape call handler x) ∧ call.token = token ∧
          Job.FoundGone ⟨g, shape, call, handler⟩ order x.call (x.inWorld t.world).scene := by
  -- Nothing else that the gate does fires a token.
  have never {l : Ledger} {P : Prop} (h : l.filterMap gateToken? = []) (hP : ¬ P) :
      (Agent.gate, Change.fired token) ∈ l ↔ P :=
    iff_of_false (Job.not_fires_of_firings h token) hP
  cases i with
  | lookUp method service =>
    refine never ((Agent.firings_did _ _).trans (g.tokens_consultChanges _ _ _ _)) ?_
    exact fun ⟨_, _, h, _⟩ => nomatch h
  | screen call =>
    refine never ((Agent.firings_did _ _).trans (g.tokens_screenChanges _ _ _)) ?_
    exact fun ⟨_, _, h, _⟩ => nomatch h
  | setProfile | fire | make | serve => exact never rfl fun ⟨_, _, h, _⟩ => nomatch h
  | move n move =>
    simp only [entries]
    cases hu : t.calls[n]? with
    | none =>
      refine never rfl ?_
      rintro ⟨n', order, heq, α, σ, shape, call, handler, x, hcall, -⟩
      cases heq
      rw [hu] at hcall
      cases hcall
    | some u =>
      cases u with
      | direct shape call handler x =>
        have hnone : ((Undertaking.direct shape call handler x).ledger g move t.world).filterMap
            gateToken? = [] := by
          cases move with
          | turn order => exact Job.firings_ledger _ _ _
          | take | close | drop | fire => rfl
        refine never hnone ?_
        rintro ⟨n', order, heq, α, σ, shape, call, handler, x, hcall, -⟩
        cases heq
        rw [hu] at hcall
        cases hcall
      | served shape call handler x =>
        cases move with
        | turn order =>
          refine (Job.gate_fires_iff order x.call (x.inWorld t.world).scene token).trans ?_
          constructor
          · rintro ⟨hfound, htoken⟩
            exact ⟨n, order, rfl, _, _, shape, call, handler, x, hu, htoken, hfound⟩
          · rintro ⟨n', order', heq, α, σ, shape', call', handler', x', hcall, htoken, hfound⟩
            cases heq
            rw [hu] at hcall
            cases hcall
            exact ⟨hfound, htoken⟩
        | take | close | drop | fire =>
          refine never rfl ?_
          rintro ⟨n', order, heq, -⟩
          cases heq

/-! ## Streams that are gone -/

namespace Job

variable {j : Job α σ}

theorem deliver_ne_watching (last : Option σ) (status : Status) (s : Scene α) (call : Passage α σ) :
    (deliver last status s).1 ≠ .watching call := by
  unfold deliver
  cases s.verdict <;> exact fun h => nomatch h

theorem result?_of_proceed_watching {after : Passage α σ × Scene α} {call : Passage α σ}
    (h : (proceed .watching after).1 = .watching call) : call.result? = none := by
  rcases after with ⟨_ | _ | ⟨last, status | reply⟩, s⟩
  · cases h
    rfl
  · cases h
    rfl
  · exact absurd h (deliver_ne_watching last status s call)
  · cases h

theorem proceed_abandoned_ne_watching (after : Passage α σ × Scene α) (call : Passage α σ) :
    (proceed .abandoned after).1 ≠ .watching call := by
  rcases after with ⟨_ | _ | ⟨last, status | reply⟩, s⟩
  · exact fun h => nomatch h
  · exact fun h => nomatch h
  · exact deliver_ne_watching last status s call
  · exact fun h => nomatch h

/-- The stream of a call that has come to its result is not watched any more. -/
theorem result?_of_serve_watching {order : TurnOrder} {v : Serving α σ} {s : Scene α}
    {call : Passage α σ} (h : (j.serve order v s).1 = .watching call) : call.result? = none := by
  cases v with
  | watching call' =>
    cases order with
    | streamFirst =>
      simp only [serve] at h
      split at h
      · exact absurd h (proceed_abandoned_ne_watching _ call)
      · exact result?_of_proceed_watching h
    | handlerFirst =>
      rw [serve_handlerFirst] at h
      dsimp only at h
      split at h
      · exact absurd h (proceed_abandoned_ne_watching _ call)
      · exact result?_of_proceed_watching h
  | abandoned call' => exact absurd h (proceed_abandoned_ne_watching _ call)
  | delivering last status => exact absurd h (deliver_ne_watching last status s call)
  | finished last => cases h

end Job

/-- A served call is watched until it comes to its result, and its stream is gone only if one of the
moves has closed or dropped it. -/
def Undertaking.WatchedIn (moves : List Move) : Undertaking → Prop
  | direct .. => True
  | served _ _ _ x =>
    (∀ passage, x.call = .watching passage → passage.result? = none) ∧
      (x.scene.streamGone = true → .close ∈ moves ∨ .drop ∈ moves)

theorem Exchange.streamGone_take {τ : Type} (turn : TurnOrder → τ → Scene α → τ × Scene α)
    (x : Exchange α τ) : (x.step turn .take).scene.streamGone = x.scene.streamGone := by
  rw [step_take]
  rcases x with ⟨call, ⟨w, _ | channel⟩, received⟩ <;> rfl

theorem Undertaking.watchedIn_step {g : Gate} {u : Undertaking} {moves : List Move} (move : Move)
    (w : World) (hu : u.WatchedIn moves) : (u.step g move w).1.WatchedIn (moves ++ [move]) := by
  cases u with
  | direct => trivial
  | served shape call handler x =>
    obtain ⟨hpending, hgone⟩ := hu
    have hgone' (h : x.scene.streamGone = true) : .close ∈ moves ++ [move] ∨ .drop ∈ moves ++ [move] :=
      (hgone h).imp (List.mem_append_left _) (List.mem_append_left _)
    cases move with
    | turn order =>
      refine ⟨fun passage h => Job.result?_of_serve_watching h, fun h => hgone' ?_⟩
      exact (Job.serve_streamGone order x.call (x.inWorld w).scene).symm.trans h
    | take =>
      let y := x.inWorld w
      have hturn (order : TurnOrder) : Move.take ≠ .turn order := fun h => nomatch h
      refine ⟨fun passage h => hpending passage ?_, fun h => hgone' ?_⟩
      · exact (y.beside_step (Job.serve _) hturn).call.symm.trans h
      · exact (y.streamGone_take (Job.serve _)).symm.trans h
    | close => exact ⟨hpending, fun _ => Or.inl (by simp)⟩
    | drop => exact ⟨hpending, fun _ => Or.inr (by simp)⟩
    | fire token => exact ⟨hpending, fun h => hgone' h⟩

namespace Traffic

/-- The moves of one call in a run. -/
def callMoves (g : Gate) (n : Nat) (w : World) (incidents : List Incident) : List Move :=
  share (fun move _ _ => [move]) g n (start w) incidents

theorem watchedIn_callMoves {g : Gate} {n : Nat} {w : World} {incidents : List Incident}
    {u : Undertaking} (hu : ((start w).run g incidents).calls[n]? = some u) :
    u.WatchedIn (callMoves g n w incidents) := by
  refine run_keeps_call (I := fun u moves => u.WatchedIn moves) ?_ Undertaking.watchedIn_step w
    incidents hu
  intro u hfresh
  cases hfresh with
  | direct => trivial
  | served =>
    refine ⟨fun passage h => ?_, fun h => nomatch h⟩
    cases h
    rfl

/-- After the incidents, the call that was made after `n` others has a turn in which the gate finds its
stream gone, though the call, which is served, has not come to its result. The stream was closed or
dropped before. -/
inductive GivenUp (g : Gate) (w : World) (incidents : List Incident) (n : Nat) (order : TurnOrder) :
    TokenId → Prop where
  | intro {α σ : Type} {shape : Shape} {call : Call} {handler : Handler α σ}
      {x : Exchange α (Serving α σ)} {passage : Passage α σ}
      (served : ((start w).run g incidents).calls[n]? = some (.served shape call handler x))
      (watched : x.call = .watching passage) (pending : passage.result? = none)
      (closed : .close ∈ callMoves g n w incidents ∨ .drop ∈ callMoves g n w incidents)
      (found : Job.FoundGone ⟨g, shape, call, handler⟩ order x.call
        (x.inWorld ((start w).run g incidents).world).scene) :
      GivenUp g w incidents n order call.token

theorem fired_iff (g : Gate) (w : World) (incidents : List Incident) (token : TokenId) :
    let ledger := (start w).ledger g incidents
    ((start w).run g incidents).world.isFired token = true ↔
      w.isFired token = true ∨ (Agent.outside, Change.fired token) ∈ ledger ∨
        (Agent.handler, Change.fired token) ∈ ledger ∨
        ∃ before n order after, incidents = before ++ .move n (.turn order) :: after ∧
          GivenUp g w before n order token := by
  intro ledger
  have hchanges : Change.fired token ∈ ledger.changes ↔
      (Agent.outside, Change.fired token) ∈ ledger ∨ (Agent.handler, Change.fired token) ∈ ledger ∨
        (Agent.gate, Change.fired token) ∈ ledger := by
    rw [Ledger.changes, List.mem_map]
    constructor
    · rintro ⟨⟨agent, c⟩, hentry, rfl⟩
      cases agent with
      | gate => exact Or.inr (Or.inr hentry)
      | handler => exact Or.inr (Or.inl hentry)
      | outside => exact Or.inl hentry
    · rintro (h | h | h) <;> exact ⟨_, h, rfl⟩
  rw [world_run, World.isFired_replay, hchanges]
  refine or_congr_right (or_congr_right (or_congr_right ?_))
  rw [mem_ledger_iff]
  constructor
  · rintro ⟨before, i, after, rfl, hentry⟩
    obtain ⟨n, order, rfl, α, σ, shape, call, handler, x, hcall, rfl, hfound⟩ :=
      (gate_fires_iff g _ i token).mp hentry
    obtain ⟨hpending, hgone⟩ := watchedIn_callMoves hcall
    obtain ⟨passage, hpassage, hg⟩ := hfound.streamGone
    exact ⟨before, n, order, after, rfl, hcall, hpassage, hpending passage hpassage, hgone hg, hfound⟩
  · rintro ⟨before, n, order, after, rfl, hcall, -, -, -, hfound⟩
    refine ⟨before, _, after, rfl, (gate_fires_iff g _ _ _).mpr ?_⟩
    exact ⟨n, order, rfl, _, _, _, _, _, _, hcall, rfl, hfound⟩

end Traffic

/-! ## Streams that are dropped -/

/-- The handler has complained, failed unexpectedly or panicked. -/
def TurnEnd.IsLoud (t : TurnEnd α) : Prop :=
  (∃ c, t.ending = some (.failed (.complaint c))) ∨
    (∃ chain, t.ending = some (.failed (.unexpected chain))) ∨
      ∃ payload, t.ending = some (.panicked payload)

theorem TurnEnd.isLoud_of_closingEvent? {ending : Option (Ending α)} {fired : Bool} {e : Event}
    (h : closingEvent? ending fired = some e) (hl : e.level ≠ .debug) :
    (⟨ending, fired⟩ : TurnEnd α).IsLoud := by
  rcases ending with _ | value | (status | c | chain | _) | payload
  · cases fired <;> cases h
    exact absurd rfl hl
  · cases h
  · cases h
    exact absurd rfl hl
  · exact Or.inl ⟨c, rfl⟩
  · exact Or.inr (Or.inl ⟨chain, rfl⟩)
  · cases h
    exact absurd rfl hl
  · exact Or.inr (Or.inr ⟨payload, rfl⟩)

/-- The gate logs nothing above the debug level, unless `P`. -/
def Ledger.LoudOnlyIf (l : Ledger) (P : Prop) : Prop :=
  ∀ entry, (Agent.gate, Change.noted (.logged entry)) ∈ l → entry.event.level ≠ .debug → P

namespace Ledger.LoudOnlyIf

variable {l l' : Ledger} {P Q : Prop}

theorem mono (hl : l.LoudOnlyIf P) (h : P → Q) : l.LoudOnlyIf Q :=
  fun entry hentry hlevel => h (hl entry hentry hlevel)

theorem append (hl : l.LoudOnlyIf P) (hl' : LoudOnlyIf l' P) : LoudOnlyIf (l ++ l') P := by
  intro entry hentry hlevel
  rcases List.mem_append.mp hentry with hentry | hentry
  · exact hl entry hentry hlevel
  · exact hl' entry hentry hlevel

theorem of_gate {span : Option Span} {events : List Event}
    (h : ∀ e ∈ events, e.level ≠ .debug → P) : (Agent.gate.did (logChanges span events)).LoudOnlyIf P := by
  intro entry hentry hlevel
  obtain ⟨c, hc, heq⟩ := List.mem_map.mp hentry
  obtain ⟨e, he, rfl⟩ := List.mem_map.mp hc
  cases heq
  exact h e he hlevel

theorem of_handler (changes : List Change) : (Agent.handler.did changes).LoudOnlyIf P := by
  intro entry hentry
  obtain ⟨c, -, heq⟩ := List.mem_map.mp hentry
  cases heq

end Ledger.LoudOnlyIf

namespace Job

variable {j : Job α σ} {span : Span} {state : σ} {s : Scene α}

/-- A call goes on after a turn just if its handler waits and its token is not fired. -/
theorem result?_step_running (span : Span) (state : σ) (s : Scene α) :
    (j.step (.running span state) s).1.result? = none ↔ (j.handler.turn state).Suspends s ∧
      ((j.handler.turn state).run s).2.world.isFired j.call.token = false := by
  rw [step_eq, work, close_worked_fst, Turn.Suspends]
  cases ((j.handler.turn state).run s).1 with
  | waiting state' =>
    dsimp only
    cases ((j.handler.turn state).run s).2.world.isFired j.call.token with
    | true => simp [Passage.result?]
    | false => simp [Passage.result?, Progress.ending?]
  | ended last ending => simp [Passage.result?, Progress.ending?]

theorem exists_running {call : Passage α σ} {s : Scene α} (h : (j.step call s).1.result? = none) :
    ∃ span state, (j.step call s).1 = .running span state := by
  have hne := step_ne_arrived (j := j) call s
  cases hafter : (j.step call s).1 with
  | arrived => exact absurd hafter hne
  | running span state => exact ⟨span, state, rfl⟩
  | settled last result =>
    rw [hafter] at h
    cases h

theorem loud_ledger (span : Span) (state : σ) (s : Scene α) :
    (j.ledger (.running span state) s).LoudOnlyIf
      (∃ t ∈ j.turnEnds [(.running span state, s)], t.IsLoud) := by
  unfold ledger
  refine .append (.append (fun _ h => nomatch h) (.of_handler _)) (.of_gate fun e he hlevel => ?_)
  exact ⟨_, List.mem_singleton_self _, TurnEnd.isLoud_of_closingEvent? (Option.mem_toList.mp he) hlevel⟩

theorem loud_proceedLedger (span : Span) (state : σ) (s : Scene α) :
    (j.proceedLedger (.running span state) s).LoudOnlyIf
      (∃ t ∈ j.turnEnds [(.running span state, s)], t.IsLoud) := by
  have hdeliver (s : Scene α) {P : Prop} : (Agent.gate.did (deliverChanges s)).LoudOnlyIf P := by
    unfold deliverChanges
    cases s.verdict with
    | sent | full => exact fun _ h => nomatch h
    | refused =>
      refine .of_gate fun e he hlevel => absurd ?_ hlevel
      rw [List.mem_singleton.mp he]
      rfl
  unfold proceedLedger
  refine (loud_ledger span state s).append ?_
  split
  · exact hdeliver _
  · exact fun _ h => nomatch h

/-- What is above the debug level in a turn of a served call tells how its handler has failed in it. -/
theorem loud_serveLedger (order : TurnOrder) (span : Span) (state : σ) (s : Scene α) :
    let v : Serving α σ := .watching (.running span state)
    (j.serveLedger order v s).LoudOnlyIf (∃ t ∈ j.turnEnds (j.callTurns order v s), t.IsLoud) := by
  intro v
  have hgiveUp {P : Prop} : (Agent.gate.did j.giveUpChanges).LoudOnlyIf P := by
    intro entry hentry hlevel
    rcases List.mem_cons.mp hentry with heq | hentry
    · cases heq
      exact absurd rfl hlevel
    · cases List.mem_singleton.mp hentry
  cases order with
  | streamFirst =>
    simp only [v, serveLedger, callTurns]
    split
    · exact hgiveUp.append (loud_proceedLedger span state _)
    · exact loud_proceedLedger span state s
  | handlerFirst =>
    simp only [v, serveLedger, callTurns]
    split
    · next hg =>
      obtain ⟨hpending, -⟩ := (Bool.and_eq_true _ _).mp hg
      obtain ⟨span', state', hafter⟩ := exists_running (Option.isNone_iff_eq_none.mp hpending)
      rw [hafter]
      -- The handler has two turns, and each is one of the course.
      have among {course course' : Course α σ} (h : ∀ turn ∈ course, turn ∈ course') :
          (∃ t ∈ j.turnEnds course, t.IsLoud) → ∃ t ∈ j.turnEnds course', t.IsLoud := by
        rintro ⟨t, ht, hloud⟩
        obtain ⟨turn, hturn, ht⟩ := List.mem_filterMap.mp ht
        exact ⟨t, List.mem_filterMap.mpr ⟨turn, h turn hturn, ht⟩, hloud⟩
      refine .append (.append ((loud_ledger span state s).mono (among ?_)) hgiveUp)
        ((loud_proceedLedger span' state' _).mono (among ?_))
      · intro turn hturn
        rw [List.mem_singleton.mp hturn]
        exact List.mem_cons_self
      · exact fun turn hturn => List.mem_cons_of_mem _ hturn
    · exact loud_proceedLedger span state s

theorem finished_of_proceed (goOn : Passage α σ → Serving α σ) {after : Passage α σ × Scene α}
    (hr : after.1.result? ≠ none) (gone : after.2.streamGone = true) :
    ∃ last, (proceed goOn after).1 = .finished last := by
  rcases after with ⟨_ | _ | ⟨last, status | reply⟩, s⟩
  · exact absurd rfl hr
  · exact absurd rfl hr
  · have hverdict : s.verdict = .refused := (Scene.verdict_eq_refused_iff s).mpr gone
    exact ⟨last, by simp [proceed, deliver, hverdict]⟩
  · exact ⟨last, rfl⟩

/-- How the call is concluded does not depend on tokens any more, and fires none. -/
theorem isFired_proceed (goOn : Passage α σ → Serving α σ) (after : Passage α σ × Scene α)
    (t : TokenId) : (proceed goOn after).2.world.isFired t = after.2.world.isFired t := by
  rcases after with ⟨_ | _ | ⟨last, status | reply⟩, s⟩
  · rfl
  · rfl
  · simp only [proceed, deliver]
    cases s.verdict <;> rfl
  · rfl

/-- In a turn of the call itself a token is fired by the handler, if at all. -/
theorem isFired_step_running (span : Span) (state : σ) (s : Scene α) (t : TokenId) :
    (j.step (.running span state) s).2.world.isFired t =
      ((j.handler.turn state).run s).2.world.isFired t := by
  have hclose := j.filterMap_closeChanges (f := Change.token?) (fun _ => rfl)
    (j.work (.running span state) s).1 (j.work (.running span state) s).2
  have hnone : .fired t ∉ j.closeChanges (j.work (.running span state) s).1
      (j.work (.running span state) s).2 := by
    intro hmem
    cases List.filterMap_eq_nil_iff.mp hclose _ hmem
  rw [Bool.eq_iff_iff, step_eq, world_close, World.isFired_replay, or_iff_left hnone]
  rfl

/-- A call that is given up while its handler waits is over at once. -/
theorem finished_of_abandon (span : Span) (state : σ) (gone : s.streamGone = true) :
    ∃ last, (j.abandon (.running span state) s).1 = .finished last := by
  have hfired : (j.giveUp s).world.isFired j.call.token = true := by
    rw [giveUp, Scene.world_onWorld, World.isFired_fire]
    simp
  refine finished_of_proceed .abandoned (fun h => ?_) ((j.step_streamGone _ _).trans gone)
  obtain ⟨-, hunfired⟩ := (result?_step_running span state (j.giveUp s)).mp h
  rw [(j.handler.turn state).isFired_run hfired] at hunfired
  cases hunfired

/-- In the turn after the stream of a served call was closed or dropped while the handler waits, the
call ends, whatever the turn looks at first. The token is fired then just if the stream is looked at
first, or if the handler goes on waiting, or if the handler leaves it fired. -/
theorem serve_gone (order : TurnOrder) (span : Span) (state : σ) (gone : s.streamGone = true) :
    let after := j.serve order (.watching (.running span state)) s
    (∃ last, after.1 = .finished last) ∧
      (after.2.world.isFired j.call.token = true ↔
        order = .streamFirst ∨ (j.handler.turn state).Suspends s ∨
          ((j.handler.turn state).run s).2.world.isFired j.call.token = true) := by
  intro after
  have fired (h : j.FoundGone order (.watching (.running span state)) s) :
      after.2.world.isFired j.call.token = true := by
    rw [show after.2.world = _ from j.world_serve order _ s, World.isFired_replay]
    exact Or.inr (List.mem_map_of_mem (f := Prod.snd) ((gate_fires_iff order _ s _).mpr ⟨h, rfl⟩))
  cases order with
  | streamFirst =>
    have hafter : after = j.abandon (.running span state) s := if_pos gone
    refine ⟨?_, iff_of_true (fired (.streamFirst gone)) (Or.inl rfl)⟩
    rw [hafter]
    exact finished_of_abandon span state gone
  | handlerFirst =>
    let next := j.step (.running span state) s
    have hafter : after = if next.1.result?.isNone && next.2.streamGone then j.abandon next.1 next.2
        else proceed .watching next := j.serve_handlerFirst (.running span state) s
    have hgone : next.2.streamGone = true := (j.step_streamGone _ s).trans gone
    by_cases hpending : next.1.result? = none
    · obtain ⟨span', state', hrunning⟩ := exists_running hpending
      obtain ⟨hsuspends, -⟩ := (result?_step_running span state s).mp hpending
      refine ⟨?_, iff_of_true (fired (.handlerFirst hpending hgone)) (Or.inr (Or.inl hsuspends))⟩
      have habandon : after = j.abandon (.running span' state') next.2 := by
        rw [hafter, hpending, hgone, ← hrunning]
        rfl
      rw [habandon]
      exact finished_of_abandon span' state' hgone
    · have hproceed : after = proceed .watching next := by
        rw [hafter]
        simp [hpending]
      rw [hproceed, isFired_proceed, isFired_step_running]
      refine ⟨finished_of_proceed .watching hpending hgone, fun h => Or.inr (Or.inr h), ?_⟩
      rintro (horder | hsuspends | hfired)
      · cases horder
      · -- The handler still waits, so it was dropped, because its token had been fired.
        have hnot := mt (result?_step_running span state s).mpr hpending
        simpa [hsuspends] using hnot
      · exact hfired

end Job

namespace Traffic

variable {g : Gate} {n : Nat} {shape : Shape} {call : Call} {handler : Handler α σ}

theorem calls_step_of_no_turn {t : Traffic} {x : Exchange α (Serving α σ)}
    (hx : t.calls[n]? = some (.served shape call handler x)) {i : Incident}
    (hi : ∀ order, i ≠ .move n (.turn order)) :
    ∃ y, (t.step g i).calls[n]? = some (.served shape call handler y) ∧ y.call = x.call ∧
      (x.scene.streamGone = true → y.scene.streamGone = true) := by
  have hne : (t.step g i).calls[n]? ≠ none := by
    intro h
    rw [t.calls_step_none i h] at hx
    cases hx
  obtain ⟨u, hu⟩ := Option.ne_none_iff_exists'.mp hne
  rcases t.calls_step (fun _ _ _ => ([] : List Unit)) i n hu with ⟨hnone, -⟩ | ⟨v, hv, hmove⟩
  · rw [hx] at hnone
    cases hnone
  · obtain rfl : Undertaking.served shape call handler x = v := Option.some.inj (hx.symm.trans hv)
    rcases hmove with ⟨rfl, -⟩ | ⟨move, rfl, rfl, -⟩
    · exact ⟨x, hu, rfl, id⟩
    · have hb := (x.inWorld t.world).beside_step (Job.serve ⟨g, shape, call, handler⟩)
        fun order h => hi order (congrArg (Incident.move n) h)
      refine ⟨_, hu, hb.call, fun hgone => ?_⟩
      cases hy : ((x.inWorld t.world).step (Job.serve ⟨g, shape, call, handler⟩) move).scene.streamGone with
      | true => rfl
      | false => exact absurd ((hb.streamGone hy).symm.trans hgone) Bool.false_ne_true

theorem calls_run_of_no_turn {others : List Incident}
    (hothers : ∀ order, .move n (.turn order) ∉ others) {t : Traffic}
    {x : Exchange α (Serving α σ)} (hx : t.calls[n]? = some (.served shape call handler x)) :
    ∃ y, (t.run g others).calls[n]? = some (.served shape call handler y) ∧ y.call = x.call ∧
      (x.scene.streamGone = true → y.scene.streamGone = true) := by
  induction others generalizing t x with
  | nil => exact ⟨x, hx, rfl, id⟩
  | cons i others ih =>
    obtain ⟨y, hy, hcall, hgone⟩ := calls_step_of_no_turn (g := g) hx
      fun order h => hothers order (h ▸ List.mem_cons_self)
    obtain ⟨z, hz, hcall', hgone'⟩ := ih (fun order h => hothers order (List.mem_cons_of_mem _ h)) hy
    exact ⟨z, hz, hcall'.trans hcall, fun h => hgone' (hgone h)⟩

/-- What becomes of a served call with a handler that waits in `state`, in its next turn: the call ends;
its token is fired just if the stream is looked at first, or if the handler goes on waiting, or if the
handler leaves it fired; and nothing is logged above the debug level, unless the handler fails in that
turn. -/
structure EndsIn (g : Gate) (t : Traffic) (n : Nat) (order : TurnOrder) (shape : Shape) (call : Call)
    (handler : Handler α σ) (y : Exchange α (Serving α σ)) (state : σ) : Prop where
  ended : ∃ z last, (t.step g (.move n (.turn order))).calls[n]? = some (.served shape call handler z) ∧
    z.call = .finished last
  fired : (t.step g (.move n (.turn order))).world.isFired call.token = true ↔
    order = .streamFirst ∨ (handler.turn state).Suspends (y.inWorld t.world).scene ∨
      ((handler.turn state).run (y.inWorld t.world).scene).2.world.isFired call.token = true
  quiet : (t.entries g (.move n (.turn order))).LoudOnlyIf
    (∃ e ∈ Job.turnEnds ⟨g, shape, call, handler⟩ (Job.callTurns ⟨g, shape, call, handler⟩ order y.call
      (y.inWorld t.world).scene), e.IsLoud)

theorem endsIn_of_dropped (w : World) (incidents : List Incident)
    {x : Exchange α (Serving α σ)} {span : Span} {state : σ}
    (hx : ((start w).run g incidents).calls[n]? = some (.served shape call handler x))
    (hwaits : x.call = .watching (.running span state)) {others : List Incident}
    (hothers : ∀ order, .move n (.turn order) ∉ others) (order : TurnOrder) :
    let t := (start w).run g (incidents ++ .move n .drop :: others)
    ∃ y, t.calls[n]? = some (.served shape call handler y) ∧ y.call = x.call ∧
      EndsIn g t n order shape call handler y state := by
  intro t
  let j : Job α σ := ⟨g, shape, call, handler⟩
  let i := Incident.move n (.turn order)
  let y₀ := (x.inWorld ((start w).run g incidents).world).step j.serve .drop
  have hdropped : (((start w).run g incidents).step g (.move n .drop)).calls[n]? =
      some (.served shape call handler y₀) := by
    simp only [step, hx]
    exact List.getElem?_set_self (List.getElem?_eq_some_iff.mp hx).1
  have hgone₀ : y₀.scene.streamGone = true := by
    rcases x with ⟨_, ⟨_, _ | channel⟩, _⟩ <;> rfl
  obtain ⟨y, hy, hcall, hgone⟩ := calls_run_of_no_turn (g := g) hothers hdropped
  have ht : t = (((start w).run g incidents).step g (.move n .drop)).run g others := run_append _ _ _
  rw [← ht] at hy
  have hrunning : y.call = .watching (.running span state) := hcall.trans hwaits
  let z := (y.inWorld t.world).step j.serve (.turn order)
  have hlt : n < t.calls.length := (List.getElem?_eq_some_iff.mp hy).1
  have hstep : t.step g i = ⟨z.scene.world, t.calls.set n (.served shape call handler z)⟩ := by
    simp only [i, step, hy]
    rfl
  have hentries : t.entries g i = j.serveLedger order y.call (y.inWorld t.world).scene := by
    simp only [i, entries, hy]
    rfl
  obtain ⟨⟨last, hlast⟩, hfired⟩ := j.serve_gone (s := (y.inWorld t.world).scene) order span state
    (hgone hgone₀)
  rw [← hrunning] at hlast hfired
  refine ⟨y, hy, hcall, ⟨z, last, ?_, hlast⟩, ?_, ?_⟩
  · change (t.step g i).calls[n]? = _
    rw [hstep]
    exact List.getElem?_set_self hlt
  · change (t.step g i).world.isFired call.token = true ↔ _
    rw [hstep]
    exact hfired
  · change (t.entries g i).LoudOnlyIf _
    rw [hentries, hrunning]
    exact Job.loud_serveLedger order span state _

/-- Whatever goes on around a gate, a token is fired in the end just if it was so before, if it was
fired from outside or by a handler, or if it was the token of a served call that the gate gave up
because its stream was gone. If the stream of a served call is dropped while its handler waits, the
call ends in its next turn, whether that looks at the handler first or at the stream, with nothing
above the debug level in the log unless the handler fails in that turn. Its token is fired then just if
the stream is looked at first, or if the handler goes on waiting, or if it was fired before or by the
handler; the token of a handler that is looked at first and ends by itself stays as it was. -/
theorem tokens_fired (g : Gate) (w : World) (incidents : List Incident) :
    (∀ token,
      let ledger := (start w).ledger g incidents
      ((start w).run g incidents).world.isFired token = true ↔
        w.isFired token = true ∨ (Agent.outside, Change.fired token) ∈ ledger ∨
          (Agent.handler, Change.fired token) ∈ ledger ∨
          ∃ before n order after, incidents = before ++ .move n (.turn order) :: after ∧
            GivenUp g w before n order token) ∧
    ∀ {α σ : Type} (n : Nat) (shape : Shape) (call : Call) (handler : Handler α σ)
      (x : Exchange α (Serving α σ)) (span : Span) (state : σ),
      ((start w).run g incidents).calls[n]? = some (.served shape call handler x) →
      x.call = .watching (.running span state) →
      ∀ (others : List Incident), (∀ order, .move n (.turn order) ∉ others) → ∀ order,
        let t := (start w).run g (incidents ++ .move n .drop :: others)
        ∃ y, t.calls[n]? = some (.served shape call handler y) ∧ y.call = x.call ∧
          EndsIn g t n order shape call handler y state :=
  ⟨fired_iff g w incidents, fun _ _ _ _ _ _ _ hx hwaits _ hothers order =>
    endsIn_of_dropped w incidents hx hwaits hothers order⟩

/-- A handler that waits for ever; its stream is dropped, and somebody fires another token. -/
theorem tokens_fired_waiting :
    let endless : Handler Nat Nat := ⟨fun _ => .ready 0, fun turns => .wait (turns + 1)⟩
    let j := Job.plain [] .free none .serverStreaming endless
    let first : List Incident :=
      [.serve j.shape j.call endless ⟨8, by decide, by decide⟩, .move 0 (.turn .handlerFirst)]
    let incidents := first ++ [.move 0 .drop, .fire (.shared "other"), .move 0 (.turn .handlerFirst)]
    ((start World.blank).run j.gate incidents).world.isFired j.call.token = true ∧
      ∃ before n order after, incidents = before ++ .move n (.turn order) :: after ∧
        GivenUp j.gate World.blank before n order j.call.token := by
  intro endless j first incidents
  let span : Span := ⟨j.call.method, j.call.service, some (.generated World.blank.nextId)⟩
  obtain ⟨-, hdropped⟩ := tokens_fired j.gate World.blank first
  obtain ⟨y, -, -, hends⟩ := hdropped 0 j.shape j.call endless _ span 1 rfl rfl
    [.fire (.shared "other")] (by simp) .handlerFirst
  have hfired : ((start World.blank).run j.gate incidents).world.isFired j.call.token = true :=
    hends.fired.mpr (Or.inr (Or.inl rfl))
  obtain ⟨hiff, -⟩ := tokens_fired j.gate World.blank incidents
  rcases (hiff j.call.token).mp hfired with hbefore | houtside | hhandler | hgate
  · exact absurd hbefore (by decide +kernel)
  · exact absurd houtside (by decide +kernel)
  · exact absurd hhandler (by decide +kernel)
  · exact ⟨hfired, hgate⟩

/-- A handler waits for room for its second element while the stream is dropped, and ends as soon as it
is told so. If the turn looks at it first, the call is over and its token is not fired. -/
theorem token_unfired_handler_first :
    let handler : Handler Nat (List Nat) := .sending [1, 2] (.returned 3)
    let j := Job.plain [] .free none .serverStreaming handler
    let first : List Incident :=
      [.serve j.shape j.call handler ⟨1, by decide, by decide⟩, .move 0 (.turn .handlerFirst)]
    let waiting := (start World.blank).run j.gate first
    let dropped (order : TurnOrder) :=
      (start World.blank).run j.gate (first ++ [.move 0 .drop, .move 0 (.turn order)])
    (∃ x span, waiting.calls[0]? = some (.served j.shape j.call handler x) ∧
        x.call = .watching (.running span [2])) ∧
      (∀ order, ∃ x, (dropped order).calls[0]? = some (.served j.shape j.call handler x) ∧
        x.call = .finished (some [])) ∧
      (dropped .handlerFirst).world.isFired j.call.token = false ∧
      (dropped .streamFirst).world.isFired j.call.token = true := by
  intro handler j first waiting dropped
  refine ⟨⟨_, _, rfl, rfl⟩, fun order => ?_, by decide +kernel, by decide +kernel⟩
  cases order with
  | handlerFirst => exact ⟨_, rfl, rfl⟩
  | streamFirst => exact ⟨_, rfl, rfl⟩

end Traffic

end CallGate
