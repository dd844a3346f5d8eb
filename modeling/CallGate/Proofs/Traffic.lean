import CallGate.Proofs.Ledger

/-!
# Traffic

Many calls go through a gate at the same time. Traffic is the world that they share together with all
calls that were made in it, and what can happen to it is an incident: a call is made, one of the calls
moves, or something is done without a call. The moves of different calls can come in any order. Main
statements: `world_run` says that the ledger of a run lists every change of the world, and
`filterMap_ledger` that what does not show that a call is given up shows of a run what it shows of the
turns of its calls.
-/

namespace CallGate

variable {α σ τ : Type}

/-- The exchange in a world that others have changed in the meantime. -/
def Exchange.inWorld (x : Exchange α τ) (w : World) : Exchange α τ :=
  { x with scene := { x.scene with world := w } }

/-- A call that was made, and how far it is. While it does not move, the world in its exchange is that
of its last move. -/
inductive Undertaking : Type 1 where
  | direct {α σ : Type} (shape : Shape) (call : Call) (handler : Handler α σ)
      (exchange : Exchange α (Passage α σ))
  | served {α σ : Type} (shape : Shape) (call : Call) (handler : Handler α σ)
      (exchange : Exchange α (Serving α σ))

namespace Undertaking

/-- The call after a move, and the world. -/
def step (g : Gate) (move : Move) (w : World) : Undertaking → Undertaking × World
  | direct shape call handler x =>
    let y := (x.inWorld w).step (Job.directTurn ⟨g, shape, call, handler⟩) move
    (direct shape call handler y, y.scene.world)
  | served shape call handler x =>
    let y := (x.inWorld w).step (Job.serve ⟨g, shape, call, handler⟩) move
    (served shape call handler y, y.scene.world)

/-- What is changed in a move. -/
def ledger (g : Gate) (move : Move) (w : World) : Undertaking → Ledger
  | direct shape call handler x =>
    (x.inWorld w).entries (fun _ => Job.ledger ⟨g, shape, call, handler⟩) move
  | served shape call handler x =>
    (x.inWorld w).entries (Job.serveLedger ⟨g, shape, call, handler⟩) move

/-- What is listed about the turns that the call has in a move. -/
def collect {β : Type} (inTurn : ∀ {α σ : Type}, Job α σ → Passage α σ → Scene α → List β)
    (g : Gate) (move : Move) (w : World) : Undertaking → List β
  | direct shape call handler x =>
    (x.inWorld w).listed (fun _ => inTurn ⟨g, shape, call, handler⟩) move
  | served shape call handler x =>
    let j : Job _ _ := ⟨g, shape, call, handler⟩
    (x.inWorld w).listed
      (fun order v s => (j.callTurns order v s).flatMap fun turn => inTurn j turn.1 turn.2) move

theorem world_step (g : Gate) (move : Move) (w : World) (u : Undertaking) :
    (u.step g move w).2 = w.replay (u.ledger g move w).changes := by
  cases u with
  | direct shape call handler x =>
    exact Exchange.world_step (fun _ => Job.world_step _) (x.inWorld w) move
  | served shape call handler x => exact Exchange.world_step (Job.world_serve _) (x.inWorld w) move

theorem filterMap_ledger {β : Type} {f : Agent × Change → Option β}
    (hgone : f (.gate, .noted (.logged ⟨.streamGone, none⟩)) = none)
    (hlost : f (.gate, .noted (.logged ⟨.statusLost, none⟩)) = none)
    (hfire : ∀ agent token, f (agent, .fired token) = none) (g : Gate) (move : Move) (w : World)
    (u : Undertaking) :
    (u.ledger g move w).filterMap f =
      u.collect (fun j call s => (j.ledger call s).filterMap f) g move w := by
  have hfired (token : TokenId) : (Agent.outside.did [.fired token]).filterMap f = [] := by
    simp [Agent.did, hfire]
  cases u with
  | direct shape call handler x =>
    cases move with
    | fire token => exact hfired token
    | turn | take | close | drop => rfl
  | served shape call handler x =>
    cases move with
    | fire token => exact hfired token
    | turn order => exact Job.filterMap_serveLedger _ hgone hlost (hfire _ _) order _ _
    | take | close | drop => rfl

theorem filterMap_changes {β : Type} {f : Change → Option β}
    (hgone : f (.noted (.logged ⟨.streamGone, none⟩)) = none)
    (hlost : f (.noted (.logged ⟨.statusLost, none⟩)) = none)
    (hfire : ∀ token, f (.fired token) = none) (g : Gate) (move : Move) (w : World) (u : Undertaking) :
    (u.ledger g move w).changes.filterMap f =
      u.collect (fun j call s => (j.ledger call s).changes.filterMap f) g move w := by
  simp only [Ledger.filterMap_changes]
  exact filterMap_ledger hgone hlost (fun _ => hfire) g move w u

/-- Of all that is listed about turns, each is listed about some turn. -/
theorem mem_collect {β : Type}
    {inTurn : ∀ {α σ : Type}, Job α σ → Passage α σ → Scene α → List β} {g : Gate} {move : Move}
    {w : World} {u : Undertaking} {b : β} (h : b ∈ u.collect inTurn g move w) :
    ∃ (α σ : Type) (j : Job α σ) (call : Passage α σ) (s : Scene α),
      j.gate = g ∧ b ∈ inTurn j call s := by
  cases u with
  | direct shape call handler x =>
    cases move with
    | turn order => exact ⟨_, _, ⟨g, shape, call, handler⟩, _, _, rfl, h⟩
    | take | close | drop | fire => cases h
  | served shape call handler x =>
    cases move with
    | turn order =>
      obtain ⟨turn, -, hb⟩ := List.mem_flatMap.mp h
      exact ⟨_, _, ⟨g, shape, call, handler⟩, turn.1, turn.2, rfl, hb⟩
    | take | close | drop | fire => cases h

end Undertaking

/-- What can happen at a gate. -/
inductive Incident : Type 1 where
  /-- The requirement of a method is looked up. -/
  | lookUp (method service : String)
  /-- A call is screened, and nothing more. -/
  | screen (call : Call)
  | setProfile (principal : PrincipalId) (locale : Locale)
  | fire (token : TokenId)
  | make {α σ : Type} (shape : Shape) (call : Call) (handler : Handler α σ)
      (outbox : Option (Channel (Delivery α)))
  | serve {α σ : Type} (shape : Shape) (call : Call) (handler : Handler α σ) (capacity : Capacity)
  /-- The call that was made after `n` others moves. -/
  | move (n : Nat) (move : Move)

/-- A world and the calls that were made in it, the first one first. -/
structure Traffic : Type 1 where
  world : World
  calls : List Undertaking

namespace Traffic

/-- No call has been made. -/
def start (w : World) : Traffic := ⟨w, []⟩

def step (g : Gate) (t : Traffic) : Incident → Traffic
  | .lookUp method service => { t with world := g.consult none method service t.world }
  | .screen call => { t with world := (g.screen none call t.world).2 }
  | .setProfile p locale => { t with world := t.world.setProfile p locale }
  | .fire token => { t with world := t.world.fire token }
  | .make shape call handler outbox =>
    { t with calls := t.calls ++ [.direct shape call handler (.ofCall t.world outbox)] }
  | .serve shape call handler capacity =>
    { t with calls := t.calls ++ [.served shape call handler (.ofService t.world capacity)] }
  | .move n move =>
    match t.calls[n]? with
    | none => t
    | some u => ⟨(u.step g move t.world).2, t.calls.set n (u.step g move t.world).1⟩

def run (g : Gate) (t : Traffic) (incidents : List Incident) : Traffic :=
  incidents.foldl (step g) t

/-- What an incident changes. -/
def entries (g : Gate) (t : Traffic) : Incident → Ledger
  | .lookUp method service => Agent.gate.did (g.consultChanges none method service t.world)
  | .screen call => Agent.gate.did (g.screenChanges none call t.world)
  | .setProfile p locale => Agent.outside.did [.profileSet p locale]
  | .fire token => Agent.outside.did [.fired token]
  | .make .. => []
  | .serve .. => []
  | .move n move =>
    match t.calls[n]? with
    | none => []
    | some u => u.ledger g move t.world

/-- What is changed in a run. -/
def ledger (g : Gate) : Traffic → List Incident → Ledger
  | _, [] => []
  | t, i :: incidents => t.entries g i ++ ledger g (t.step g i) incidents

variable {g : Gate}

theorem world_step (t : Traffic) (i : Incident) :
    (t.step g i).world = t.world.replay (t.entries g i).changes := by
  cases i with
  | lookUp method service =>
    rw [entries, Agent.changes_did]
    exact Gate.world_consult none method service t.world
  | screen call =>
    rw [entries, Agent.changes_did]
    exact Gate.world_screen none call t.world
  | setProfile | fire | make | serve => rfl
  | move n move =>
    simp only [step, entries]
    cases t.calls[n]? with
    | none => rfl
    | some u => exact u.world_step g move t.world

theorem world_run (t : Traffic) (incidents : List Incident) :
    (t.run g incidents).world = t.world.replay (t.ledger g incidents).changes := by
  induction incidents generalizing t with
  | nil => rfl
  | cons i incidents ih =>
    rw [ledger, Ledger.changes_append, World.replay_append, ← world_step t i]
    exact ih (t.step g i)

end Traffic

end CallGate
