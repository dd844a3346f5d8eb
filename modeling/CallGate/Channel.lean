/-!
# Bounded channels

A channel carries elements from one or more sinks to one stream. It holds a bounded number of
elements that have been sent but not received. A stream can be closed, which keeps the elements held
so far, or dropped, which discards them; either way nothing can be sent any more. A stream ends when
nothing is held and nothing can come: it was closed, or there is no sink left.
-/

namespace CallGate

/-- The largest number of elements that a channel can hold, one less than two to the power of 61. -/
def maxCapacity : Nat := 2305843009213693951

/-- The number of elements that a channel can hold: at least one, and not too many. -/
structure Capacity where
  /-- The number. -/
  size : Nat
  /-- A channel holds something. -/
  pos : 0 < size
  /-- No channel holds more than this. -/
  le : size ≤ maxCapacity

/-- Why there is no channel of a given capacity. -/
inductive CapacityError where
  /-- The channel could hold nothing. -/
  | zero
  /-- The channel could hold too much. -/
  | tooLarge
deriving DecidableEq

/-- The text that reports the error. -/
def CapacityError.message : CapacityError → String
  | zero => "mpsc bounded channel requires buffer > 0"
  | tooLarge => "a semaphore may not have more than MAX_PERMITS permits (2305843009213693951)"

/-- The capacity of a given size. -/
def Capacity.ofNat (n : Nat) : Except CapacityError Capacity :=
  if pos : 0 < n then
    if le : n ≤ maxCapacity then .ok ⟨n, pos, le⟩ else .error .tooLarge
  else
    .error .zero

/-- What the receiving side has done to its stream. -/
inductive StreamState where
  /-- The stream takes elements. -/
  | attached
  /-- The stream takes no more elements. -/
  | closed
  /-- There is no stream any more. -/
  | dropped
deriving DecidableEq, Repr

/-- What becomes of an element that is offered. -/
inductive Offer where
  /-- The channel has taken the element. -/
  | sent
  /-- The channel holds as much as it can. -/
  | full
  /-- The stream was closed or dropped. -/
  | refused
deriving DecidableEq, Repr

/-- What a stream yields when it is read. -/
inductive Receipt (α : Type) where
  /-- The next element. -/
  | item (value : α)
  /-- Nothing yet. -/
  | pending
  /-- Nothing any more. -/
  | ended
deriving DecidableEq, Repr

/-- A channel with its sinks and its stream. -/
structure Channel (α : Type) where
  /-- How many elements the channel can hold. -/
  capacity : Capacity
  /-- The elements that have been sent but not received, the first one first. -/
  held : List α
  /-- What was done to the stream. -/
  stream : StreamState
  /-- The number of sinks. -/
  sinks : Nat

namespace Channel

variable {α : Type}

/-- A channel with one sink that holds nothing. -/
def new (capacity : Capacity) : Channel α := ⟨capacity, [], .attached, 1⟩

/-- The stream was closed or dropped. -/
def isClosed (c : Channel α) : Bool := c.stream != .attached

/-- The channel holds as much as it can. -/
def isFull (c : Channel α) : Bool := c.capacity.size ≤ c.held.length

/-- What becomes of an element that is offered now. -/
def verdict (c : Channel α) : Offer :=
  if c.isClosed then .refused else if c.isFull then .full else .sent

/-- The channel after an element has been offered. -/
def offer (c : Channel α) (x : α) : Channel α :=
  if c.verdict = .sent then { c with held := c.held ++ [x] } else c

/-- What the stream yields when it is read now. -/
def next (c : Channel α) : Receipt α :=
  match c.held with
  | x :: _ => .item x
  | [] => if c.isClosed || c.sinks == 0 then .ended else .pending

/-- The channel after its stream has been read. -/
def receive (c : Channel α) : Channel α := { c with held := c.held.tail }

/-- The channel with one more sink. -/
def addSink (c : Channel α) : Channel α := { c with sinks := c.sinks + 1 }

/-- The channel with one sink less. -/
def dropSink (c : Channel α) : Channel α := { c with sinks := c.sinks - 1 }

/-- The channel after its stream has been closed. -/
def close (c : Channel α) : Channel α :=
  if c.stream = .attached then { c with stream := .closed } else c

/-- The channel after its stream has been dropped. -/
def drop (c : Channel α) : Channel α := { c with stream := .dropped, held := [] }

end Channel

end CallGate
