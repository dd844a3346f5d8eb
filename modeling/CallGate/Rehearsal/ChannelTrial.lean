import CallGate.Channel

/-!
# Trials of a channel

A channel is tried out by steps at both of its ends. Its sinks are known by numbers, in the order in
which they came to be, and the first is there from the start. No step waits: an element for which
there is no room is given up, and a stream that holds nothing yields nothing.
-/

namespace CallGate.Rehearsal

/-- A step at one end of a channel. -/
inductive ChannelStep (α : Type) where
  /-- A sink sends an element. -/
  | send (value : α)
  /-- A sink looks whether the stream was closed or dropped. -/
  | isClosed
  /-- A sink waits until the stream is closed or dropped. -/
  | awaitClosed
  /-- A further sink is made. -/
  | addSink
  /-- A sink is dropped. -/
  | dropSink (number : Nat)
  /-- The stream is read. -/
  | receive
  /-- The stream is closed. -/
  | close
  /-- The stream is dropped. -/
  | drop
deriving DecidableEq

/-- What comes out of a step. -/
inductive ChannelAnswer (α : Type) where
  /-- What became of an element. -/
  | offered (offer : Offer)
  /-- Whether the stream was closed or dropped. -/
  | closed (gone : Bool)
  /-- The number of a new sink. -/
  | sink (number : Nat)
  /-- What the stream has yielded. -/
  | received (receipt : Receipt α)
  /-- Nothing in particular. -/
  | done
deriving DecidableEq

/-- A channel that is being tried out. -/
structure ChannelTrial (α : Type) where
  /-- The channel. -/
  channel : Channel α
  /-- For each sink that was ever made, whether it is still there. -/
  present : List Bool

namespace ChannelTrial

variable {α : Type}

/-- A new channel of a capacity. -/
def new (capacity : Capacity) : ChannelTrial α := ⟨.new capacity, [true]⟩

/-- One step. A sink is dropped only once. -/
def perform (t : ChannelTrial α) : ChannelStep α → ChannelAnswer α × ChannelTrial α
  | .send value => (.offered t.channel.verdict, { t with channel := t.channel.offer value })
  | .isClosed => (.closed t.channel.isClosed, t)
  | .awaitClosed => (.closed t.channel.isClosed, t)
  | .addSink =>
    (.sink t.present.length, { channel := t.channel.addSink, present := t.present ++ [true] })
  | .dropSink number =>
    if t.present.getD number false then
      (.done, { channel := t.channel.dropSink, present := t.present.set number false })
    else
      (.done, t)
  | .receive => (.received t.channel.next, { t with channel := t.channel.receive })
  | .close => (.done, { t with channel := t.channel.close })
  | .drop => (.done, { t with channel := t.channel.drop })

/-- The answers to steps that are taken one after the other. -/
def performAll (t : ChannelTrial α) : List (ChannelStep α) → List (ChannelAnswer α)
  | [] => []
  | step :: rest => (t.perform step).1 :: (t.perform step).2.performAll rest

end ChannelTrial

end CallGate.Rehearsal
