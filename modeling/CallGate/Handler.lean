import CallGate.Channel
import CallGate.Gate

/-!
# Handlers

A handler does the work of a call. It is set up with the context of the call and then runs in turns.
In each turn it does finitely many things, each of which may depend on what came out of the ones
before, until it waits or ends; a handler that waits may get any number of further turns. A handler
is given by its states, of which nothing is known, and by what it does in each of them.
-/

namespace CallGate

/-- What a handler panics with. -/
inductive PanicPayload where
  /-- A text. -/
  | text (message : String)
  /-- Anything else. -/
  | other
deriving DecidableEq

/-- How a panic is reported. -/
def PanicPayload.chain : PanicPayload → ErrorChain
  | text message => ⟨["handler panicked: " ++ message]⟩
  | other => ⟨["handler panicked: non-string panic payload"]⟩

/-- How a handler ends. -/
inductive Ending (α : Type) where
  /-- The handler returns a value. -/
  | returned (value : α)
  /-- The handler fails. -/
  | failed (error : Failure)
  /-- The handler panics. -/
  | panicked (payload : PanicPayload)

/-- What goes over the response stream of a call. -/
inductive Delivery (α : Type) where
  /-- An element that the handler has sent. -/
  | element (value : α)
  /-- The status with which the call has failed. -/
  | failure (status : Status)
deriving DecidableEq

/-- What a handler with states `σ` and elements `α` does in one turn. -/
inductive Turn (α σ : Type) where
  /-- The handler waits for its next turn. -/
  | wait (state : σ)
  /-- The handler ends. -/
  | finish (state : σ) (ending : Ending α)
  /-- The handler asks a principal. -/
  | ask (principal : PrincipalId) (question : Requirement) (next : Bool → Turn α σ)
  /-- The handler reads the profile of a principal. -/
  | readProfile (principal : PrincipalId) (next : Option Locale → Turn α σ)
  /-- The handler sets the profile of a principal. -/
  | setProfile (principal : PrincipalId) (locale : Locale) (next : Turn α σ)
  /-- The handler looks whether a token has been fired. -/
  | readToken (token : TokenId) (next : Bool → Turn α σ)
  /-- The handler fires a token. -/
  | fire (token : TokenId) (next : Turn α σ)
  /-- The handler offers an element to its sink. -/
  | offer (value : α) (next : Offer → Turn α σ)
  /-- The handler looks whether the stream behind its sink was closed or dropped. -/
  | readStream (next : Bool → Turn α σ)

/-- How a handler is set up. -/
inductive Setup (σ : Type) where
  /-- The handler is ready for its first turn. -/
  | ready (state : σ)
  /-- The handler panics. -/
  | panicked (state : σ) (payload : PanicPayload)

/-- A handler with states `σ` and elements `α`. -/
structure Handler (α σ : Type) where
  /-- Sets the handler up for a call. -/
  setup : Context → Setup σ
  /-- What the handler does in its next turn. -/
  turn : σ → Turn α σ

/-- Where a handler is after a turn. -/
inductive Progress (α σ : Type) where
  /-- The handler waits. -/
  | waiting (state : σ)
  /-- The handler has ended. -/
  | ended (state : σ) (ending : Ending α)

/-- What a handler can reach: the world, and for calls with a response stream its channel. -/
structure Scene (α : Type) where
  /-- The state that calls share. -/
  world : World
  /-- The channel of the response stream. -/
  outbox : Option (Channel (Delivery α))

namespace Scene

variable {α : Type}

/-- The scene with a changed world. -/
def onWorld (s : Scene α) (f : World → World) : Scene α := { s with world := f s.world }

/-- What becomes of something that is offered now. Without a channel it is refused. -/
def verdict (s : Scene α) : Offer :=
  match s.outbox with
  | some channel => channel.verdict
  | none => .refused

/-- The scene after something has been offered. -/
def offer (s : Scene α) (d : Delivery α) : Scene α :=
  { s with outbox := s.outbox.map fun channel => channel.offer d }

/-- The response stream was closed or dropped, or there is none. -/
def streamGone (s : Scene α) : Bool :=
  match s.outbox with
  | some channel => channel.isClosed
  | none => true

/-- The scene after a sink of the channel has been dropped. -/
def dropSink (s : Scene α) : Scene α := { s with outbox := s.outbox.map Channel.dropSink }

end Scene

/-- Runs a turn. -/
def Turn.run {α σ : Type} : Turn α σ → Scene α → Progress α σ × Scene α
  | wait state, s => (.waiting state, s)
  | finish state ending, s => (.ended state ending, s)
  | ask p question next, s =>
    (next (s.world.answer p question)).run (s.onWorld fun w => w.ask p question)
  | readProfile p next, s => (next (s.world.profile p)).run s
  | setProfile p locale next, s => next.run (s.onWorld fun w => w.setProfile p locale)
  | readToken t next, s => (next (s.world.isFired t)).run s
  | fire t next, s => next.run (s.onWorld fun w => w.fire t)
  | offer value next, s => (next s.verdict).run (s.offer (.element value))
  | readStream next, s => (next s.streamGone).run s

end CallGate
