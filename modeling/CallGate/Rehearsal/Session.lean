import CallGate.Rehearsal.Caller
import CallGate.Rehearsal.Script

/-!
# Sessions

A session is a rehearsal of a gate over several operations: looking up requirements, declaring new
ones, firing tokens, admitting calls, and making calls with scripted handlers and callers. Each
operation is followed by a report of what it came to and of what could be observed meanwhile.
-/

namespace CallGate.Rehearsal

/-- A gate that is being tried out. -/
structure Session where
  /-- The settings of the gate. -/
  settings : Settings
  /-- What is declared about methods. -/
  registry : Registry
  /-- The gate remembers requirements. -/
  remembers : Bool
  /-- The state that calls share. -/
  world : World
  /-- The number of calls described so far. -/
  calls : Nat

/-- What could be observed during an operation. -/
structure Observed where
  /-- The questions to the principal of the call, with the answers; nothing if it has none. -/
  checks : Option (List (Requirement × Bool))
  /-- The locale in the profile of the principal afterwards. -/
  profile : Option Locale
  /-- How often the registry was asked. -/
  resolved : Nat
  /-- How many requirements are remembered, if any can be. -/
  remembered : Option Nat
  /-- The events that were logged. -/
  logs : List LogEntry

/-- A call in a rehearsal: what a descriptor says of it, with a named token or one of its own. -/
structure CallPlan where
  /-- The path of the method. -/
  method : String
  /-- The name of the service. -/
  service : String
  /-- The metadata. -/
  metadata : Metadata
  /-- The principal in whose name the call is made. -/
  principal : Option PrincipalId
  /-- The trace context. -/
  trace : Option String
  /-- The name of the token, if it is shared. -/
  token : Option String

/-- What became of a call. -/
structure CallReport where
  /-- The result, if the call came to one. -/
  result : Option (CallResult Document)
  /-- What came over the response stream. -/
  items : List (Sight Document)
  /-- The token of the call has been fired. -/
  fired : Bool
  /-- The notes of the handler. -/
  trace : List Note
  /-- What else could be observed. -/
  observed : Observed

/-- How a call with a response stream is read when it is not served. -/
inductive Receiver where
  /-- Everything is taken whenever the handler waits. -/
  | reading
  /-- The stream is dropped before the call. -/
  | gone
deriving DecidableEq

namespace Session

/-- The gate. -/
def gate (s : Session) : Gate := ⟨s.settings, s.registry.resolver, s.remembers⟩

/-- What was observed since an earlier state of the session. -/
def observedSince (before now : Session) (principal : Option PrincipalId) : Observed :=
  { checks := principal.map (now.world.checksSince before.world)
    profile := principal.bind now.world.profile
    resolved := now.world.resolutionsSince before.world
    remembered := if now.remembers then some now.world.memo.size else none
    logs := now.world.entriesSince before.world }

/-- The descriptor of a planned call, and the session after the call has been described. -/
def describe (s : Session) (plan : CallPlan) : Call × Session :=
  ({ method := plan.method
     service := plan.service
     metadata := plan.metadata
     principal := plan.principal
     trace := plan.trace
     token := match plan.token with
       | some name => .shared name
       | none => .own s.calls },
   { s with calls := s.calls + 1 })

/-- The call that a request makes, and the session after it has been described. -/
def describeRequest (s : Session) (r : Request) (method service : String) :
    Call × Session :=
  (r.toCall method service (.own s.calls), { s with calls := s.calls + 1 })

/-- Looks up a requirement. -/
def lookUp (s : Session) (method service : String) : (Requirement × Observed) × Session :=
  let requirement := s.gate.requirement method service s.world
  let now := { s with world := s.gate.consult none method service s.world }
  ((requirement, observedSince s now none), now)

/-- Declares a requirement. -/
def declare (s : Session) (d : Declaration) : Session := { s with registry := s.registry.declare d }

/-- Fires a token. -/
def cancel (s : Session) (token : TokenId) : Session := { s with world := s.world.fire token }

/-- Screens a call. -/
def screen (s : Session) (call : Call) :
    (Except Status (Context × Bool) × Observed) × Session :=
  let admitted := s.gate.screen none call s.world
  let now := { s with world := admitted.2 }
  let result := admitted.1.map fun ctx => (ctx, now.world.isFired ctx.token)
  ((result, observedSince s now call.principal), now)

/-- The report of a call, made from the last state of its handler. -/
def report (before now : Session) (call : Call) (last : Option Actor)
    (result : Option (CallResult Document)) (items : List (Sight Document)) : CallReport where
  result := result
  items := items
  fired := now.world.isFired call.token
  trace := (last.map Actor.notes).getD []
  observed := observedSince before now call.principal

/-- Takes everything out of the stream of a call. -/
def takeAll {τ : Type} (turn : TurnOrder → τ → Scene Document → τ × Scene Document) :
    Exchange Document τ → Exchange Document τ := fun x =>
  let held := (x.scene.outbox.map fun channel => channel.held.length).getD 0
  x.run turn (List.replicate held .take)

/-- Gives a call turns until it has come to its result, but no more than the given number. The
stream is emptied after every turn. -/
def makeDirectly (j : Job Document Actor) :
    (turns : Nat) → Exchange Document (Passage Document Actor) →
      Exchange Document (Passage Document Actor)
  | 0, x => x
  | turns + 1, x =>
    let x := takeAll j.directTurn (x.step j.directTurn (.turn .handlerFirst))
    match x.call with
    | .settled .. => x
    | _ => makeDirectly j turns x

/-- Makes a call that is not served. -/
def makeCall (s : Session) (shape : Shape) (call : Call) (script : Script)
    (outbox : Option (Channel (Delivery Document))) : CallReport × Session :=
  let j : Job Document Actor := ⟨s.gate, shape, call, script.handler shape⟩
  let x := makeDirectly j script.patience (.ofCall s.world outbox)
  let now := { s with world := x.scene.world }
  (report s now call x.call.last? x.call.result? (x.received.map .delivery), now)

/-- Makes a call with one response. -/
def unary (s : Session) (call : Call) (script : Script) : CallReport × Session :=
  s.makeCall .unary call script none

/-- Makes a call with a response stream that is not served. -/
def stream (s : Session) (shape : Shape) (call : Call) (script : Script)
    (receiver : Receiver) : Except CapacityError (CallReport × Session) := do
  let channel := Channel.new (← Capacity.ofNat s.settings.streamBuffer.toNat)
  let channel := if receiver = .gone then channel.drop else channel
  return s.makeCall shape call script (some channel)

/-- Serves a call to a scripted caller. After its script the caller waits for one more turn. -/
def serve (s : Session) (shape : Shape) (call : Call) (script : Script)
    (caller : List CallerAction) : Except CapacityError (CallReport × Session) := do
  let capacity ← Capacity.ofNat s.settings.streamBuffer.toNat
  let j : Job Document Actor := ⟨s.gate, shape, call, script.handler shape⟩
  let start : Watch Document (Serving Document Actor) := ⟨.ofService s.world capacity, []⟩
  let w := start.performAll j.serve script.patience call.token (caller ++ [.settle])
  let now := { s with world := w.exchange.scene.world }
  return (report s now call w.exchange.call.last? none w.seen, now)

end Session

end CallGate.Rehearsal
