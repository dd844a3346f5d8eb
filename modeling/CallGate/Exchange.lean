import CallGate.Serving

/-!
# Exchanges between a call and its caller

While a call is made, its caller reads the response stream and may close or drop it, and tokens may
be fired from outside. An exchange is the state of the call together with everything around it and
with what the caller has received so far; a move changes it. The moves can come in any order.
-/

namespace CallGate

/-- What can happen next in an exchange. -/
inductive Move where
  /-- The call has a turn. -/
  | turn (order : TurnOrder)
  /-- The caller takes what the stream holds first, if it holds anything. -/
  | take
  /-- The caller closes the stream. -/
  | close
  /-- The caller drops the stream. -/
  | drop
  /-- A token is fired from outside. -/
  | fire (token : TokenId)
deriving DecidableEq

/-- A call in state `τ` with its surroundings. -/
structure Exchange (α τ : Type) where
  /-- How far the call is. -/
  call : τ
  /-- The world and the channel of the response stream. -/
  scene : Scene α
  /-- What the caller has received, the first one first. -/
  received : List (Delivery α)

namespace Exchange

variable {α τ σ : Type}

/-- What the response stream yields when it is read now. Without a stream there is nothing. -/
def next (x : Exchange α τ) : Receipt (Delivery α) :=
  match x.scene.outbox with
  | some channel => channel.next
  | none => .ended

/-- The exchange with a changed channel. -/
def onOutbox (x : Exchange α τ) (f : Channel (Delivery α) → Channel (Delivery α)) : Exchange α τ :=
  { x with scene := { x.scene with outbox := x.scene.outbox.map f } }

/-- The exchange after a move, where `turn` is what a turn does to the call. -/
def step (turn : TurnOrder → τ → Scene α → τ × Scene α) (x : Exchange α τ) : Move → Exchange α τ
  | .turn order =>
    let after := turn order x.call x.scene
    { x with call := after.1, scene := after.2 }
  | .take =>
    match x.next with
    | .item value => { x.onOutbox Channel.receive with received := x.received ++ [value] }
    | _ => x
  | .close => x.onOutbox Channel.close
  | .drop => x.onOutbox Channel.drop
  | .fire token => { x with scene := x.scene.onWorld fun w => w.fire token }

/-- The exchange after moves, one after the other. -/
def run (turn : TurnOrder → τ → Scene α → τ × Scene α) (x : Exchange α τ) (moves : List Move) :
    Exchange α τ :=
  moves.foldl (step turn) x

/-- The exchange in which a call is about to be made. A call with a response stream sends over the
given channel. -/
def ofCall (w : World) (outbox : Option (Channel (Delivery α))) :
    Exchange α (Passage α σ) where
  call := .arrived
  scene := ⟨w, outbox⟩
  received := []

/-- The exchange in which a call is about to be served, over a stream of the given capacity. One
sink is the handler's; the other keeps the stream open for the status of the call. -/
def ofService (w : World) (capacity : Capacity) : Exchange α (Serving α σ) where
  call := .watching .arrived
  scene := ⟨w, some (Channel.new capacity).addSink⟩
  received := []

end Exchange

/-- A turn of a call that is not served: there is no choice of what to look at first. -/
def Job.directTurn {α σ : Type} (j : Job α σ) :
    TurnOrder → Passage α σ → Scene α → Passage α σ × Scene α :=
  fun _ => j.step

end CallGate
