import CallGate.Failure.Presentation
import CallGate.Handler

/-!
# Calls on their way through a gate

A gate lets a call in, sets the handler of its method up and runs the handler turn by turn. After a
turn in which the handler has not ended, the token of the call is looked at, and if it has been
fired the handler gets no further turn. So a handler always has its first turn, and it always comes
before the token. What the handler makes of the call, or its cancellation, becomes the result.

Nothing happens between turns: a passage is the state of a call, and `Job.step` is what one turn
does to it and to everything around it.
-/

namespace CallGate

/-- What a call comes to when it does not fail. -/
inductive Reply (α : Type) where
  /-- The response of a call with one response. -/
  | value (value : α)
  /-- The end of a call whose responses went over a stream. -/
  | completed
deriving DecidableEq

/-- The result of a call. -/
abbrev CallResult (α : Type) := Except Status (Reply α)

namespace Shape

/-- The result of a call whose handler returns a value. Only a call with one response has use for
it. -/
def returned {α : Type} : Shape → α → CallResult α
  | unary, value => .ok (.value value)
  | _, _ => .ok .completed

/-- The result of a call that was cancelled. A call with a stream just ends it, but a call with one
response has none to give. -/
def cancelled {α : Type} : Shape → CallResult α
  | unary => .error .callCancelled
  | _ => .ok .completed

end Shape

/-- A call with what is needed to make it. -/
structure Job (α σ : Type) where
  /-- The gate that the call goes through. -/
  gate : Gate
  /-- The shape of the call. -/
  shape : Shape
  /-- The description of the call. -/
  call : Call
  /-- The handler of the method. -/
  handler : Handler α σ

/-- How far a call is on its way. -/
inductive Passage (α σ : Type) where
  /-- Nothing has happened yet. -/
  | arrived
  /-- The handler waits. -/
  | running (span : Span) (state : σ)
  /-- The call has come to its result. If the handler was invoked, its last state is known. -/
  | settled (last : Option σ) (result : CallResult α)

namespace Job

variable {α σ : Type}

/-- The span of an admitted call. -/
def span (j : Job α σ) (ctx : Context) : Span :=
  { Gate.callSpan j.call with correlation := some ctx.correlation }

/-- The call comes to its result, and the handler's sink is gone. -/
def settle (s : Scene α) (last : Option σ) (result : CallResult α) : Passage α σ × Scene α :=
  (.settled last result, s.dropSink)

/-- The call ends as cancelled. -/
def endCancelled (j : Job α σ) (span : Span) (last : σ) (s : Scene α) :
    Passage α σ × Scene α :=
  settle (s.onWorld fun w => w.log (some span) .invocationCancelled) (some last) j.shape.cancelled

/-- The call ends with a failure that the caller is told about. -/
def endFailed (span : Span) (last : σ) (e : Failure) (s : Scene α) : Passage α σ × Scene α :=
  settle (s.onWorld fun w => w.log (some span) e.event) (some last) (.error e.presentation.toStatus)

/-- The call ends as its handler has ended. -/
def conclude (j : Job α σ) (span : Span) (last : σ) (ending : Ending α) (s : Scene α) :
    Passage α σ × Scene α :=
  match ending with
  | .returned value => settle s (some last) (j.shape.returned value)
  | .failed .cancelled => j.endCancelled span last s
  | .failed e => endFailed span last e s
  | .panicked payload => endFailed span last (.unexpected payload.chain) s

/-- Gives the handler a turn. -/
def advance (j : Job α σ) (span : Span) (state : σ) (s : Scene α) : Passage α σ × Scene α :=
  match (j.handler.turn state).run s with
  | (.ended last ending, s) => j.conclude span last ending s
  | (.waiting state, s) =>
    if s.world.isFired j.call.token then j.endCancelled span state s else (.running span state, s)

/-- Invokes the handler of an admitted call and gives it its first turn. -/
def invoke (j : Job α σ) (ctx : Context) (s : Scene α) : Passage α σ × Scene α :=
  let s := s.onWorld fun w => w.note (.invoked ctx)
  match j.handler.setup ctx with
  | .panicked last payload => j.conclude (j.span ctx) last (.panicked payload) s
  | .ready state => j.advance (j.span ctx) state s

/-- What one turn does to the call. -/
def step (j : Job α σ) : Passage α σ → Scene α → Passage α σ × Scene α
  | .arrived, s =>
    let entry := j.gate.enter j.shape j.call s.world
    let s := { s with world := entry.2 }
    match entry.1 with
    | .error status => settle s none (.error status)
    | .ok ctx => j.invoke ctx s
  | .running span state, s => j.advance span state s
  | .settled last result, s => (.settled last result, s)

end Job

/-- The result of a call that has come to one. -/
def Passage.result? {α σ : Type} : Passage α σ → Option (CallResult α)
  | settled _ result => some result
  | _ => none

/-- The last known state of the handler. -/
def Passage.last? {α σ : Type} : Passage α σ → Option σ
  | arrived => none
  | running _ state => some state
  | settled last _ => last

end CallGate
