import CallGate.Proofs.Run

/-!
# Ledgers

A ledger lists every single change of a world, in order, and on whose part it is made: by a gate, by
the handler of a call, or from outside. Replayed from the world before, it gives the world after. Main
statements: `Gate.world_enter`, `Turn.world_run`, `Job.world_step` and `Job.world_serve` say so of
entering, of a turn of a handler, of a turn of a call and of a turn of a served call, and
`Exchange.world_run` of a run. What holds of every change therefore holds of all that a gate does.
-/

namespace CallGate

variable {α σ τ : Type}

/-- A single change of a world. -/
inductive Change where
  | noted (observation : Occurrence)
  | drawn
  | asked (inquiry : Inquiry)
  | profileSet (principal : PrincipalId) (locale : Locale)
  | fired (token : TokenId)
  | remembered (method service : String) (required : Requirement)
deriving DecidableEq

/-- Who makes a change. -/
inductive Agent where
  | gate
  | handler
  | outside
deriving DecidableEq

/-- The changes of a world, the first one first, and who made them. -/
abbrev Ledger := List (Agent × Change)

namespace Ledger

def changes (l : Ledger) : List Change := l.map Prod.snd

/-- The changes on somebody's part. -/
def madeBy (l : Ledger) (agent : Agent) : List Change :=
  l.filterMap fun entry => if entry.1 = agent then some entry.2 else none

@[simp] theorem changes_append (l l' : Ledger) : changes (l ++ l') = l.changes ++ changes l' :=
  List.map_append

/-- What changes show can be seen in a ledger. -/
theorem filterMap_changes {β : Type} (f : Change → Option β) (l : Ledger) :
    l.changes.filterMap f = l.filterMap fun entry => f entry.2 := by
  rw [changes, List.filterMap_map]
  rfl

@[simp] theorem madeBy_append (l l' : Ledger) (agent : Agent) :
    madeBy (l ++ l') agent = l.madeBy agent ++ madeBy l' agent :=
  List.filterMap_append

theorem mem_madeBy_iff {l : Ledger} {agent : Agent} {c : Change} :
    c ∈ l.madeBy agent ↔ (agent, c) ∈ l := by
  unfold madeBy
  rw [List.mem_filterMap]
  constructor
  · rintro ⟨⟨agent', c'⟩, hentry, hc⟩
    split at hc
    · next h =>
      cases h
      cases hc
      exact hentry
    · cases hc
  · intro h
    exact ⟨(agent, c), h, if_pos rfl⟩

end Ledger

namespace Agent

/-- The ledger of what one agent has done. -/
def did (agent : Agent) (changes : List Change) : Ledger := changes.map (agent, ·)

@[simp] theorem changes_did (agent : Agent) (changes : List Change) :
    (agent.did changes).changes = changes :=
  List.map_map.trans (List.map_id' changes)

theorem madeBy_did (agent agent' : Agent) (changes : List Change) :
    (agent.did changes).madeBy agent' = if agent = agent' then changes else [] := by
  unfold did Ledger.madeBy
  rw [List.filterMap_map]
  by_cases h : agent = agent'
  · rw [if_pos h]
    exact (congrArg (List.filterMap · changes) (funext fun _ => if_pos h)).trans
      List.filterMap_some
  · rw [if_neg h, List.filterMap_eq_nil_iff]
    exact fun _ _ => if_neg h

end Agent

namespace World

theorem isFired_fire (w : World) (t t' : TokenId) :
    (w.fire t).isFired t' = (w.isFired t' || t' == t) := by
  unfold fire
  split
  · next h =>
    by_cases ht : t' = t
    · subst ht
      rw [h]
      rfl
    · simp [ht]
  · by_cases ht : t' = t
    · subst ht
      simp [isFired]
    · simp [isFired, ht]

theorem fire_eq (w : World) (t : TokenId) :
    w.fire t = { w with fired := (w.fire t).fired } := by
  unfold fire
  split <;> rfl

/-- The world after a change. -/
def apply (w : World) : Change → World
  | .noted o => w.note o
  | .drawn => w.drawId
  | .asked i =>
    (w.setPrincipal i.principal ((w.principals i.principal).afterQuestion i.question)).note
      (.asked i.principal i.question i.answer)
  | .profileSet p locale => w.setProfile p locale
  | .fired t => w.fire t
  | .remembered method service r => { w with memo := w.memo.insert (method, service) r }

/-- A principal is changed by being asked and by having its profile set. -/
theorem principals_apply (w : World) (c : Change) (p : PrincipalId) :
    (w.apply c).principals p =
      match c with
      | .asked i =>
        if p = i.principal then (w.principals p).afterQuestion i.question else w.principals p
      | .profileSet q locale =>
        if p = q then { w.principals p with profile := some locale } else w.principals p
      | _ => w.principals p := by
  cases c with
  | noted | drawn | remembered => rfl
  | fired t =>
    simp only [apply, fire]
    split <;> rfl
  | asked i =>
    simp only [apply, note, setPrincipal]
    split
    · next h => rw [h]
    · rfl
  | profileSet q locale =>
    simp only [apply, setProfile, setPrincipal]
    split
    · next h => rw [h]
    · rfl

/-- The world after changes, one after the other. -/
def replay (w : World) (changes : List Change) : World := changes.foldl apply w

@[simp] theorem replay_nil (w : World) : w.replay [] = w := rfl

@[simp] theorem replay_cons (w : World) (c : Change) (changes : List Change) :
    w.replay (c :: changes) = (w.apply c).replay changes := rfl

theorem replay_append (w : World) (changes more : List Change) :
    w.replay (changes ++ more) = (w.replay changes).replay more :=
  List.foldl_append

end World

/-- What is logged, as changes. -/
def logChanges (span : Option Span) (events : List Event) : List Change :=
  events.map fun e => .noted (.logged ⟨e, span⟩)

theorem World.replay_logChanges (w : World) (span : Option Span) (events : List Event) :
    w.replay (logChanges span events) = w.logAll span events :=
  List.foldl_map

/-- Logging shows only in the log. -/
theorem filterMap_logChanges {β : Type} {f : Change → Option β}
    (hf : ∀ entry, f (.noted (.logged entry)) = none) (span : Option Span) (events : List Event) :
    (logChanges span events).filterMap f = [] := by
  rw [logChanges, List.filterMap_map, List.filterMap_eq_nil_iff]
  exact fun e _ => hf ⟨e, span⟩

/-! ## Letting a call in -/

/-- What a decision changes. -/
def World.decisionChanges (w : World) (span : Option Span) (principal : Option PrincipalId)
    (r : Requirement) : List Change :=
  if r.isFree then []
  else
    match principal with
    | none => logChanges span [.principalMissing r.resource]
    | some p =>
      .asked ⟨p, r, w.answer p r⟩ ::
        if w.answer p r then [] else logChanges span [.operationsMissing r.resource r.operations]

/-- The update of its principal's profile that goes with an enrichment. -/
def Enrichment.update? (e : Enrichment) : Option (PrincipalId × Locale) :=
  match e.context.principal, e.profile with
  | some p, some locale => some (p, locale)
  | _, _ => none

namespace Gate

variable (g : Gate)

/-- What it changes that the gate finds out about a method. -/
def consultChanges (span : Option Span) (method service : String) (w : World) : List Change :=
  let answer := g.resolver method service
  let asking := .noted (.resolved method service) :: logChanges span answer.events
  if g.remembers then
    match w.memo.get? (method, service) with
    | some _ => []
    | none => asking ++ [.remembered method service answer.requirement]
  else asking

/-- What an enrichment changes. -/
def recordChanges (span : Option Span) (e : Enrichment) : List Change :=
  logChanges span e.events ++ e.update?.toList.map fun update => .profileSet update.1 update.2

/-- What the screening of a call changes. -/
def screenChanges (span : Option Span) (call : Call) (w : World) : List Change :=
  let enriched := (Context.new call w.nextId).enrich g.settings call.metadata call.trace
  .drawn :: recordChanges span enriched ++ g.consultChanges span call.method call.service w ++
    w.decisionChanges span call.principal (g.requirement call.method call.service w)

/-- What it changes to let a call in, or to refuse it. -/
def enterChanges (shape : Shape) (call : Call) (w : World) : List Change :=
  if g.bypasses shape call then .drawn :: logChanges (some (callSpan call)) [.infrastructureCall]
  else g.screenChanges (some (callSpan call)) call w

end Gate

theorem World.world_afterDecision (w : World) (span : Option Span)
    (principal : Option PrincipalId) (r : Requirement) :
    w.afterDecision span principal r = w.replay (w.decisionChanges span principal r) := by
  unfold afterDecision decisionChanges
  split
  · rfl
  · cases principal with
    | none => rfl
    | some p =>
      dsimp only
      split <;> rfl

theorem World.decisionChanges_congr {w w' : World}
    (h : ∀ p question, w'.answer p question = w.answer p question) (span : Option Span)
    (principal : Option PrincipalId) (r : Requirement) :
    w'.decisionChanges span principal r = w.decisionChanges span principal r := by
  unfold decisionChanges
  simp only [h]

namespace Gate

variable {g : Gate}

theorem world_consult (span : Option Span) (method service : String) (w : World) :
    g.consult span method service w = w.replay (g.consultChanges span method service w) := by
  have hask : g.askResolver span method service w =
      w.replay (.noted (.resolved method service) ::
        logChanges span (g.resolver method service).events) := by
    rw [World.replay_cons, World.replay_logChanges]
    rfl
  unfold consult consultChanges
  dsimp only
  split
  · cases w.memo.get? (method, service) with
    | some r => rfl
    | none =>
      -- What is remembered has not changed while the resolver was asked.
      have hmemo : (g.askResolver span method service w).memo = w.memo :=
        ((World.DecidesAlike.note w _).trans (.logAll _ span _)).memo
      dsimp only
      rw [World.replay_append, ← hask, World.replay_cons, World.replay_nil, World.apply, hmemo]
  · exact hask

theorem consultChanges_congr {w w' : World} (h : w'.memo = w.memo) (span : Option Span)
    (method service : String) :
    g.consultChanges span method service w' = g.consultChanges span method service w := by
  unfold consultChanges
  rw [h]

theorem world_record (span : Option Span) (e : Enrichment) (w : World) :
    record span e w = w.replay (recordChanges span e) := by
  unfold record recordChanges Enrichment.update?
  rw [World.replay_append, World.replay_logChanges]
  cases e.context.principal with
  | none => rfl
  | some p => cases e.profile <;> rfl

theorem world_screen (span : Option Span) (call : Call) (w : World) :
    (g.screen span call w).2 = w.replay (g.screenChanges span call w) := by
  -- The changes are read off the world before, but the screening looks at later worlds; what is
  -- remembered and what principals answer has not changed in between.
  have hmemo (e : Enrichment) : (record span e w.drawId).memo = w.memo :=
    ((World.DecidesAlike.drawId w).trans (.record span e _)).memo
  have hasking : g.screeningWorld span call w = w.replay (.drawn ::
      recordChanges span
        ((Context.new call w.nextId).enrich g.settings call.metadata call.trace) ++
      g.consultChanges span call.method call.service w) := by
    unfold screeningWorld
    dsimp only
    rw [world_consult, consultChanges_congr (hmemo _), world_record, World.replay_append]
    rfl
  rw [screen_eq]
  unfold screenChanges
  dsimp only
  rw [World.world_afterDecision, World.replay_append, ← hasking,
    World.decisionChanges_congr fun p question => answer_screeningWorld span p question]

theorem world_enter (shape : Shape) (call : Call) (w : World) :
    (g.enter shape call w).2 = w.replay (g.enterChanges shape call w) := by
  unfold enter enterChanges bypasses
  split
  · rfl
  · exact world_screen _ call w

end Gate

/-! What shows neither questions nor the log. -/

section View

variable {β : Type} {f : Change → Option β}

theorem World.filterMap_decisionChanges (hlog : ∀ entry, f (.noted (.logged entry)) = none)
    (hasked : ∀ inquiry, f (.asked inquiry) = none) (w : World) (span : Option Span)
    (principal : Option PrincipalId) (r : Requirement) :
    (w.decisionChanges span principal r).filterMap f = [] := by
  unfold decisionChanges
  split
  · rfl
  · cases principal with
    | none => exact filterMap_logChanges hlog span _
    | some p =>
      dsimp only
      rw [List.filterMap_cons_none (hasked _)]
      split
      · rfl
      · exact filterMap_logChanges hlog span _

/-- Only what is remembered shows of a consultation, unless it shows that a resolver is asked. -/
theorem Gate.filterMap_consultChanges (hlog : ∀ entry, f (.noted (.logged entry)) = none)
    (hresolved : ∀ method service, f (.noted (.resolved method service)) = none) (g : Gate)
    (span : Option Span) (method service : String) (w : World) :
    (g.consultChanges span method service w).filterMap f =
      if g.remembers = true ∧ w.memo.get? (method, service) = none then
        (f (.remembered method service (g.resolver method service).requirement)).toList
      else [] := by
  unfold consultChanges
  dsimp only
  cases g.remembers with
  | false => simp [hresolved, filterMap_logChanges hlog]
  | true =>
    cases w.memo.get? (method, service) with
    | some r => rfl
    | none =>
      rw [if_pos rfl, if_pos ⟨rfl, rfl⟩]
      dsimp only
      rw [List.filterMap_append, List.filterMap_cons_none (hresolved _ _),
        filterMap_logChanges hlog, List.nil_append]
      cases h : f (.remembered method service (g.resolver method service).requirement) <;> simp [h]

theorem Gate.filterMap_screenChanges (hlog : ∀ entry, f (.noted (.logged entry)) = none)
    (hasked : ∀ inquiry, f (.asked inquiry) = none) (hdrawn : f .drawn = none) (g : Gate)
    (span : Option Span) (call : Call) (w : World) :
    (g.screenChanges span call w).filterMap f =
      ((Context.new call w.nextId).enrich g.settings call.metadata call.trace).update?.toList.filterMap
          (fun update => f (.profileSet update.1 update.2)) ++
        (g.consultChanges span call.method call.service w).filterMap f := by
  unfold screenChanges recordChanges
  dsimp only
  rw [List.filterMap_append, List.filterMap_append, List.filterMap_cons_none hdrawn,
    List.filterMap_append, filterMap_logChanges hlog, World.filterMap_decisionChanges hlog hasked,
    List.nil_append, List.append_nil, List.filterMap_map]
  rfl

end View

/-! ## A turn of a call -/

/-- The change that a happening in a call is, on the part of the handler. -/
def Happening.change? : Happening α → Option Change
  | asked inquiry => some (.asked inquiry)
  | profileSet p locale => some (.profileSet p locale)
  | fired t => some (.fired t)
  | _ => none

/-- What the handler has changed. -/
def History.changes (h : History α) : List Change := h.filterMap Happening.change?

theorem Turn.world_run (t : Turn α σ) (s : Scene α) :
    (t.run s).2.world = s.world.replay (t.happenings s).changes := by
  refine t.run_keeps (P := fun s' h => s'.world = s.world.replay h.changes) ?_ (h := []) rfl
  intro s₁ e s₂ h hd hP
  rw [History.changes, List.filterMap_append, World.replay_append, ← History.changes, ← hP]
  cases hd <;> rfl

/-- What is logged when a handler has ended, or when it waits and the token of its call is fired or
not. -/
def closingEvent? : Option (Ending α) → (fired : Bool) → Option Event
  | some (.returned _), _ => none
  | some (.failed .cancelled), _ => some .invocationCancelled
  | some (.failed e), _ => some e.event
  | some (.panicked payload), _ => some (Failure.unexpected payload.chain).event
  | none, fired => if fired then some .invocationCancelled else none

namespace Job

variable (j : Job α σ)

/-- The invocation of the handler, if the call is let in. -/
def invocation : Except Status Context → List Change
  | .error _ => []
  | .ok ctx => [.noted (.invoked ctx)]

/-- What the gate changes before the handler works in a turn of the call. -/
def entryChanges : Passage α σ → Scene α → List Change
  | .arrived, s =>
    j.gate.enterChanges j.shape j.call s.world ++
      invocation (j.gate.enter j.shape j.call s.world).1
  | _, _ => []

/-- What the gate changes after the handler has worked in a turn of the call. -/
def closeChanges : Stage α σ → Scene α → List Change
  | .worked span progress, s =>
    logChanges (some span) (closingEvent? progress.ending? (s.world.isFired j.call.token)).toList
  | _, _ => []

/-- What is changed in a turn of the call. -/
def ledger (call : Passage α σ) (s : Scene α) : Ledger :=
  Agent.gate.did (j.entryChanges call s) ++ Agent.handler.did (j.deeds call s).changes ++
    Agent.gate.did (j.closeChanges (j.work call s).1 (j.work call s).2)

@[simp] theorem changes_ledger (call : Passage α σ) (s : Scene α) :
    (j.ledger call s).changes = j.entryChanges call s ++ (j.deeds call s).changes ++
      j.closeChanges (j.work call s).1 (j.work call s).2 := by
  simp [ledger]

theorem filterMap_entryChanges {β : Type} {f : Change → Option β}
    (hinvoked : ∀ ctx, f (.noted (.invoked ctx)) = none) (call : Passage α σ) (s : Scene α) :
    (j.entryChanges call s).filterMap f =
      match call with
      | .arrived => (j.gate.enterChanges j.shape j.call s.world).filterMap f
      | _ => [] := by
  cases call with
  | arrived =>
    have hinvocation (result : Except Status Context) : (invocation result).filterMap f = [] := by
      cases result with
      | error status => rfl
      | ok ctx => exact List.filterMap_cons_none (hinvoked ctx)
    rw [entryChanges, List.filterMap_append, hinvocation, List.append_nil]
  | running | settled => rfl

theorem filterMap_closeChanges {β : Type} {f : Change → Option β}
    (hlog : ∀ entry, f (.noted (.logged entry)) = none) (stage : Stage α σ) (s : Scene α) :
    (j.closeChanges stage s).filterMap f = [] := by
  cases stage with
  | worked => exact filterMap_logChanges hlog _ _
  | refused | past => rfl

theorem world_work (call : Passage α σ) (s : Scene α) :
    (j.work call s).2.world =
      s.world.replay (j.entryChanges call s ++ (j.deeds call s).changes) := by
  cases call with
  | arrived =>
    have henter : (j.gate.enter j.shape j.call s.world).2 =
        s.world.replay (j.gate.enterChanges j.shape j.call s.world) := Gate.world_enter _ _ _
    simp only [work, deeds, entryChanges]
    cases (j.gate.enter j.shape j.call s.world).1 with
    | error status => simpa [History.changes, invocation] using henter
    | ok ctx =>
      have hnote : s.world.replay (j.gate.enterChanges j.shape j.call s.world ++
          invocation (.ok ctx)) =
          (j.gate.enter j.shape j.call s.world).2.note (.invoked ctx) := by
        rw [World.replay_append, ← henter]
        rfl
      dsimp only
      rw [World.replay_append, hnote]
      exact (j.handler.first ctx).world_run _
  | running span state => exact (j.handler.turn state).world_run s
  | settled last result => rfl

theorem world_close (stage : Stage α σ) (s : Scene α) :
    (j.close stage s).2.world = s.world.replay (j.closeChanges stage s) := by
  cases stage with
  | refused status => rfl
  | past last result => rfl
  | worked span progress =>
    cases progress with
    | waiting state =>
      simp only [close, closeChanges, closingEvent?, Progress.ending?]
      split <;> rfl
    | ended last ending =>
      cases ending with
      | returned value => rfl
      | failed e => cases e <;> rfl
      | panicked payload => rfl

theorem world_step (call : Passage α σ) (s : Scene α) :
    (j.step call s).2.world = s.world.replay (j.ledger call s).changes := by
  rw [step_eq, world_close, world_work, ← World.replay_append, changes_ledger]

/-! ## A turn of a served call -/

/-- What it changes to give up a stream. -/
def giveUpChanges : List Change := logChanges none [.streamGone] ++ [.fired j.call.token]

/-- What it changes to hand over the status of a failed call. -/
def deliverChanges (s : Scene α) : List Change :=
  match s.verdict with
  | .refused => logChanges none [.statusLost]
  | _ => []

/-- What is changed in a turn of the call after which it is decided how the serving goes on. -/
def proceedLedger (call : Passage α σ) (s : Scene α) : Ledger :=
  j.ledger call s ++
    match j.step call s with
    | (.settled _ (.error _), s) => Agent.gate.did (deliverChanges s)
    | _ => []

/-- What is changed in a turn of a served call. -/
def serveLedger (order : TurnOrder) : Serving α σ → Scene α → Ledger
  | .watching call, s =>
    match order with
    | .streamFirst =>
      if s.streamGone then Agent.gate.did j.giveUpChanges ++ j.proceedLedger call (j.giveUp s)
      else j.proceedLedger call s
    | .handlerFirst =>
      let after := j.step call s
      if after.1.result?.isNone && after.2.streamGone then
        j.ledger call s ++ Agent.gate.did j.giveUpChanges ++
          j.proceedLedger after.1 (j.giveUp after.2)
      else j.proceedLedger call s
  | .abandoned call, s => j.proceedLedger call s
  | .delivering .., s => Agent.gate.did (deliverChanges s)
  | .finished _, _ => []

theorem world_giveUp (s : Scene α) : (j.giveUp s).world = s.world.replay j.giveUpChanges := rfl

theorem world_deliver (last : Option σ) (status : Status) (s : Scene α) :
    (deliver last status s).2.world = s.world.replay (deliverChanges s) := by
  unfold deliver deliverChanges
  cases s.verdict <;> rfl

theorem world_proceed (goOn : Passage α σ → Serving α σ) (call : Passage α σ) (s : Scene α) :
    (proceed goOn (j.step call s)).2.world = s.world.replay (j.proceedLedger call s).changes := by
  have hstep := j.world_step call s
  unfold proceedLedger
  rw [Ledger.changes_append, World.replay_append, ← hstep]
  rcases j.step call s with ⟨_ | _ | ⟨last, status | reply⟩, s'⟩
  · rfl
  · rfl
  · exact (world_deliver last status s').trans (by rw [Agent.changes_did])
  · rfl

theorem world_serve (order : TurnOrder) (v : Serving α σ) (s : Scene α) :
    (j.serve order v s).2.world = s.world.replay (j.serveLedger order v s).changes := by
  cases v with
  | watching call =>
    cases order with
    | streamFirst =>
      simp only [serve, serveLedger]
      split
      · rw [Ledger.changes_append, Agent.changes_did, World.replay_append, ← world_giveUp]
        exact j.world_proceed .abandoned call _
      · exact j.world_proceed .watching call s
    | handlerFirst =>
      rw [serve_handlerFirst]
      simp only [serveLedger]
      split
      · rw [Ledger.changes_append, Ledger.changes_append, Agent.changes_did, World.replay_append,
          World.replay_append, ← world_step, ← world_giveUp]
        exact j.world_proceed .abandoned _ _
      · exact j.world_proceed .watching call s
  | abandoned call => exact j.world_proceed .abandoned call s
  | delivering last status => exact (world_deliver last status s).trans (by simp [serveLedger])
  | finished last => rfl

/-- What does not show that a stream is given up, nor that a status is lost, shows of a turn of a served
call what it shows of the turns of the call. -/
theorem filterMap_serveLedger {β : Type} {f : Agent × Change → Option β}
    (hgone : f (.gate, .noted (.logged ⟨.streamGone, none⟩)) = none)
    (hlost : f (.gate, .noted (.logged ⟨.statusLost, none⟩)) = none)
    (hfire : f (.gate, .fired j.call.token) = none) (order : TurnOrder) (v : Serving α σ)
    (s : Scene α) :
    (j.serveLedger order v s).filterMap f =
      (j.callTurns order v s).flatMap fun turn => (j.ledger turn.1 turn.2).filterMap f := by
  have hdeliver (s : Scene α) : (Agent.gate.did (deliverChanges s)).filterMap f = [] := by
    unfold deliverChanges
    cases s.verdict with
    | sent | full => rfl
    | refused => simp [Agent.did, logChanges, hlost]
  have hgiveUp : (Agent.gate.did j.giveUpChanges).filterMap f = [] := by
    simp [Agent.did, giveUpChanges, logChanges, hgone, hfire]
  have hproceed (call : Passage α σ) (s : Scene α) :
      (j.proceedLedger call s).filterMap f = (j.ledger call s).filterMap f := by
    unfold proceedLedger
    rw [List.filterMap_append]
    rcases j.step call s with ⟨_ | _ | ⟨last, status | reply⟩, s'⟩
    · exact List.append_nil _
    · exact List.append_nil _
    · exact (congrArg _ (hdeliver s')).trans (List.append_nil _)
    · exact List.append_nil _
  cases v with
  | watching call =>
    cases order with
    | streamFirst =>
      simp only [serveLedger, callTurns]
      split <;> simp [hgiveUp, hproceed]
    | handlerFirst =>
      simp only [serveLedger, callTurns]
      split <;> simp [hgiveUp, hproceed]
  | abandoned call => simp [serveLedger, callTurns, hproceed]
  | delivering last status => exact hdeliver s
  | finished last => rfl

end Job

/-! ## Runs -/

namespace Exchange

/-- What a move changes. -/
def entries (inTurn : TurnOrder → τ → Scene α → Ledger) (x : Exchange α τ) : Move → Ledger
  | .turn order => inTurn order x.call x.scene
  | .fire token => Agent.outside.did [.fired token]
  | _ => []

/-- What is changed in a run. -/
def ledger (turn : TurnOrder → τ → Scene α → τ × Scene α)
    (inTurn : TurnOrder → τ → Scene α → Ledger) : Exchange α τ → List Move → Ledger
  | _, [] => []
  | x, move :: moves => x.entries inTurn move ++ ledger turn inTurn (x.step turn move) moves

variable {turn : TurnOrder → τ → Scene α → τ × Scene α} {inTurn : TurnOrder → τ → Scene α → Ledger}

theorem world_step
    (inside : ∀ order call s,
      (turn order call s).2.world = s.world.replay (inTurn order call s).changes)
    (x : Exchange α τ) (move : Move) :
    (x.step turn move).scene.world = x.scene.world.replay (x.entries inTurn move).changes := by
  cases move with
  | turn order => exact inside order x.call x.scene
  | take =>
    rw [step_take]
    rfl
  | close | drop | fire => rfl

theorem world_run
    (inside : ∀ order call s,
      (turn order call s).2.world = s.world.replay (inTurn order call s).changes)
    (x : Exchange α τ) (moves : List Move) :
    (x.run turn moves).scene.world =
      x.scene.world.replay (x.ledger turn inTurn moves).changes := by
  induction moves generalizing x with
  | nil => rfl
  | cons move moves ih =>
    rw [ledger, Ledger.changes_append, World.replay_append, ← world_step inside x move]
    exact ih (x.step turn move)

end Exchange

end CallGate
