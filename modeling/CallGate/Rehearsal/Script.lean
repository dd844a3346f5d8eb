import CallGate.Document
import CallGate.Handler

/-!
# Scripted handlers

A gate can be tried out with handlers that follow a script. A script is a list of steps, which are
taken one after the other; what a step finds out goes into the notes of the handler. Some steps
wait: sending, while the stream has no room, waiting for a token or for the stream to go, and
yielding. A handler that waits takes the same step again in its next turn, unless it has yielded.
Steps that need a stream which a call of the given shape does not have are only noted. At the end of
its script a handler returns nothing in particular.
-/

namespace CallGate.Rehearsal

/-- One step of a script. -/
inductive Action where
  /-- Notes what the handler knows about its call. -/
  | context
  /-- Notes whether the token of the call has been fired. -/
  | cancelled
  /-- Notes a value. -/
  | note (value : Document)
  /-- Notes the request. -/
  | request
  /-- Asks the principal of the call, and notes the answer. -/
  | check (question : Requirement)
  /-- Sets the locale in the profile of the principal, if the tag names one. -/
  | setLocale (tag : String)
  /-- Notes the locale in the profile of the principal. -/
  | profile
  /-- Fires the token of the call. -/
  | cancel
  /-- Waits until the token of the call is fired, and notes that it was. -/
  | awaitCancel
  /-- Waits once. -/
  | yield
  /-- Waits for ever. -/
  | pending
  /-- Returns a value. -/
  | finish (value : Document)
  /-- Returns the request. -/
  | returnRequest
  /-- Fails. -/
  | fail (error : Failure)
  /-- Panics. -/
  | panic (payload : PanicPayload)
  /-- As the first step, panics while the handler is set up. -/
  | setupPanic (message : String)
  /-- Sends an element, and fails if the stream is gone. -/
  | send (value : Document)
  /-- Sends an element, and notes whether it went out. -/
  | trySend (value : Document)
  /-- Notes whether the stream is gone. -/
  | isClosed
  /-- Waits until the stream is gone, and notes that it is. -/
  | awaitClosed
  /-- Takes an element that comes in, and notes it. -/
  | receive
  /-- Sends all elements that come in, and fails if the stream is gone. -/
  | echo

/-- What a scripted handler has found out. -/
inductive Note where
  /-- The handler was invoked. -/
  | invoked
  /-- The context, and whether the token had been fired. -/
  | context (ctx : Context) (fired : Bool)
  /-- Whether the token had been fired. -/
  | cancelled (fired : Bool)
  /-- A value from the script. -/
  | value (value : Document)
  /-- The request. -/
  | request (request : Document)
  /-- The answer of the principal, if there is one. -/
  | check (answer : Option Bool)
  /-- The locale in the profile, if there is one. -/
  | profile (locale : Option Locale)
  /-- The token was fired while the handler waited for it. -/
  | sawCancel
  /-- An element could not be sent. -/
  | sendFailed
  /-- Whether an element could be sent. -/
  | sent (went : Bool)
  /-- Whether the stream was gone. -/
  | isClosed (gone : Bool)
  /-- The stream went while the handler waited for it. -/
  | sawClose
  /-- An element that came in, if there was one left. -/
  | received (value : Option Document)
  /-- A step that does not fit the call. -/
  | ignored (step : String)

/-- The name of a step that may not fit a call. -/
def Action.streamName? : Action → Option String
  | .send _ => some "send"
  | .trySend _ => some "try_send"
  | .isClosed => some "is_closed"
  | .awaitClosed => some "await_closed"
  | .receive => some "recv"
  | .echo => some "echo"
  | .setupPanic _ => some "build_panic"
  | _ => none

/-- The step fits a call of the given shape. A panic during set-up only fits before all other
steps. -/
def Action.fits (shape : Shape) : Action → Bool
  | .send _ | .trySend _ | .isClosed | .awaitClosed => shape != .unary
  | .receive | .echo => shape == .duplex
  | .setupPanic _ => false
  | _ => true

/-- A scripted handler at one moment. -/
structure Actor where
  /-- The shape of the call. -/
  shape : Shape
  /-- The context of the call. -/
  ctx : Context
  /-- The request, which calls with a stream of requests do not have. -/
  request : Document
  /-- The elements that come in and have not been taken yet. -/
  inbound : List Document
  /-- The notes so far, the first one first. -/
  notes : List Note
  /-- The steps that are left. -/
  steps : List Action

namespace Actor

/-- The handler with one more note. -/
def jot (a : Actor) (n : Note) : Actor := { a with notes := a.notes ++ [n] }

/-- The handler with other steps left. -/
def withSteps (a : Actor) (steps : List Action) : Actor := { a with steps := steps }

/-- The handler with other elements to come in. -/
def withInbound (a : Actor) (inbound : List Document) : Actor := { a with inbound := inbound }

/-- Sends elements one after the other. The handler goes on as `done` says when all are sent; while
there is no room it waits with the elements that are left, and it ends when the stream is gone. -/
def sendAll (a : Actor) (done : Actor → Turn Document Actor) : List Document → Turn Document Actor
  | [] => done (a.withInbound [])
  | x :: rest =>
    .offer x fun
      | .sent => sendAll a done rest
      | .full => .wait (a.withInbound (x :: rest))
      | .refused => .finish (a.withInbound rest) (.failed .cancelled)

/-- What the handler does with a list of steps. -/
def perform (a : Actor) : List Action → Turn Document Actor
  | [] => .finish (a.withSteps []) (.returned .null)
  | action :: rest =>
    if !action.fits a.shape then
      perform (a.jot (.ignored (action.streamName?.getD ""))) rest
    else
      let again := a.withSteps (action :: rest)
      let left := a.withSteps rest
      match action with
      | .context => .readToken a.ctx.token fun fired => perform (a.jot (.context a.ctx fired)) rest
      | .cancelled => .readToken a.ctx.token fun fired => perform (a.jot (.cancelled fired)) rest
      | .note value => perform (a.jot (.value value)) rest
      | .request => perform (a.jot (.request a.request)) rest
      | .check question =>
        match a.ctx.principal with
        | some p => .ask p question fun answer => perform (a.jot (.check (some answer))) rest
        | none => perform (a.jot (.check none)) rest
      | .setLocale tag =>
        match a.ctx.principal, Locale.parse tag with
        | some p, .ok locale => .setProfile p locale (perform a rest)
        | _, _ => perform a rest
      | .profile =>
        match a.ctx.principal with
        | some p => .readProfile p fun locale => perform (a.jot (.profile locale)) rest
        | none => perform (a.jot (.profile none)) rest
      | .cancel => .fire a.ctx.token (perform a rest)
      | .awaitCancel =>
        .readToken a.ctx.token fun
          | true => perform (a.jot .sawCancel) rest
          | false => .wait again
      | .yield => .wait left
      | .pending => .wait again
      | .finish value => .finish left (.returned value)
      | .returnRequest => .finish left (.returned a.request)
      | .fail error => .finish left (.failed error)
      | .panic payload => .finish left (.panicked payload)
      | .setupPanic _ => perform a rest
      | .send value =>
        .offer value fun
          | .sent => perform a rest
          | .full => .wait again
          | .refused => .finish (left.jot .sendFailed) (.failed .cancelled)
      | .trySend value =>
        .offer value fun
          | .sent => perform (a.jot (.sent true)) rest
          | .full => .wait again
          | .refused => perform (a.jot (.sent false)) rest
      | .isClosed => .readStream fun gone => perform (a.jot (.isClosed gone)) rest
      | .awaitClosed =>
        .readStream fun
          | true => perform (a.jot .sawClose) rest
          | false => .wait again
      | .receive => perform ((a.withInbound a.inbound.tail).jot (.received a.inbound.head?)) rest
      | .echo => sendAll again (fun a => perform a rest) a.inbound

end Actor

/-- A script with what its handler is given besides the context. -/
structure Script where
  /-- The steps. -/
  steps : List Action
  /-- The request. -/
  request : Document
  /-- The elements that come in. -/
  inbound : List Document

namespace Script

/-- The handler that follows a script in a call of the given shape. -/
def handler (script : Script) (shape : Shape) : Handler Document Actor where
  setup ctx :=
    let request := if shape = .duplex then .null else script.request
    let actor : Actor := ⟨shape, ctx, request, script.inbound, [.invoked], script.steps⟩
    match script.steps with
    | .setupPanic message :: rest => .panicked (actor.withSteps rest) (.text message)
    | _ => .ready actor
  turn actor := actor.perform actor.steps

/-- More turns than a handler needs to come to its end, if nothing but the end of a turn keeps it
from going on. -/
def patience (script : Script) : Nat := 2 * (script.steps.length + script.inbound.length) + 4

end Script

end CallGate.Rehearsal
