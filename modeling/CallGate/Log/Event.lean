import CallGate.Failure.Basic
import CallGate.Locale.Basic
import CallGate.NameSet

/-!
# Log events

A gate logs what it decides and how calls end. An event says what happened; its text, its level and
the fields that go with it follow from that. While a call is handled its events are marked with a
span, which names the call.
-/

namespace CallGate

/-- How serious an event is. -/
inductive Level where
  /-- Of interest to developers. -/
  | debug
  /-- A rule of the domain was broken. -/
  | warn
  /-- Something is wrong with this side. -/
  | error
deriving DecidableEq, Repr

/-- The name of a level. -/
def Level.name : Level → String
  | debug => "DEBUG"
  | warn => "WARN"
  | error => "ERROR"

/-- What a gate logs. -/
inductive Event where
  /-- Nothing is declared about a method, which is therefore open to all. -/
  | undeclared (method service : String)
  /-- A protected method was called by nobody in particular. -/
  | principalMissing (resource : String)
  /-- A principal may not do what a method requires. -/
  | operationsMissing (resource : String) (operations : NameSet)
  /-- The culture of a call names no available locale. -/
  | cultureIgnored (tag : String) (cause : TagError)
  /-- An infrastructure call goes past authorization. -/
  | infrastructureCall
  /-- A call was cancelled while its handler ran. -/
  | invocationCancelled
  /-- A handler handed on a status. -/
  | statusPassed (code : StatusCode) (message : String)
  /-- A handler complained; only the number of messages is logged. -/
  | complaintRaised (count : Nat)
  /-- A handler ran into an error. -/
  | unexpectedFailure (chain : ErrorChain)
  /-- A handler's finding that the call was cancelled has become a status. -/
  | callerCancelled
  /-- The caller has given up the response stream of a running call. -/
  | streamGone
  /-- The caller was gone before the last status of its call could be handed over. -/
  | statusLost
deriving DecidableEq

namespace Event

/-- The level of an event. -/
def level : Event → Level
  | complaintRaised _ => .warn
  | unexpectedFailure _ => .error
  | _ => .debug

/-- The text of an event. -/
def text : Event → String
  | undeclared .. => "No access declared, method is unprotected"
  | principalMissing _ => "Rejecting call without principal"
  | operationsMissing .. => "Principal lacks required operations"
  | cultureIgnored .. => "Ignoring culture metadata"
  | infrastructureCall => "Infrastructure call, skipping authorization"
  | invocationCancelled => "Call cancelled during invocation"
  | statusPassed .. => "Handler returned gRPC status, passing through"
  | complaintRaised _ => "Handler raised business fault"
  | unexpectedFailure chain => "Unexpected handler failure: " ++ chain.text
  | callerCancelled => "Call cancelled by caller"
  | streamGone => "Response stream dropped, cancelling call"
  | statusLost => "Receiver gone before final status could be delivered"

/-- A set of names as events show it. -/
def namesText (names : NameSet) : String :=
  "\x7b" ++ commaSeparated (names.toList.map quoted) ++ "\x7d"

/-- The fields that go with the text of an event. -/
def details : Event → List (String × String)
  | undeclared method service => [("method", method), ("service", service)]
  | principalMissing resource => [("resource", resource)]
  | operationsMissing resource operations =>
    [("resource", resource), ("operations", namesText operations)]
  | cultureIgnored tag cause => [("culture", tag), ("error", cause.message)]
  | statusPassed code message => [("code", code.name), ("message", message)]
  | complaintRaised count => [("message_count", toString count)]
  | _ => []

/-- All fields of an event; its text is the first. -/
def fields (e : Event) : List (String × String) := ("message", e.text) :: e.details

end Event

end CallGate
