import CallGate.Failure.Envelope
import CallGate.Principal.Basic

/-!
# Calls

A call is described by the path of its method, the service of the method, and what comes with it:
metadata, the principal in whose name it is made, a trace context, and the token by which it can be
cancelled. For a request that arrives from outside, the trace context is read from the metadata.
-/

namespace CallGate

/-- The name of a cancellation token. -/
inductive TokenId where
  /-- A token that several calls may hold. -/
  | shared (name : String)
  /-- The token of one call. -/
  | own (serial : Nat)
deriving DecidableEq

/-- Everything that a gate knows about a call. -/
structure Call where
  /-- The path of the method. -/
  method : String
  /-- The name of the service. -/
  service : String
  /-- The metadata. -/
  metadata : Metadata
  /-- The principal in whose name the call is made. -/
  principal : Option PrincipalId
  /-- The trace context. -/
  trace : Option String
  /-- The token by which the call can be cancelled. -/
  token : TokenId
deriving DecidableEq

/-- A request as it arrives. -/
structure Request where
  /-- The metadata. -/
  metadata : Metadata
  /-- The principals that were attached to the request, one after the other. -/
  attached : List PrincipalId
deriving DecidableEq

namespace Request

/-- The principal of a request: the one that was attached last. -/
def principal? (r : Request) : Option PrincipalId := r.attached.getLast?

/-- The principal of a request that must have one. -/
def principalOrRefusal (r : Request) : Except Status PrincipalId :=
  match r.principal? with
  | some principal => .ok principal
  | none => .error Envelope.noPrincipal.toStatus

/-- The header that carries the trace context of a request. -/
def traceHeader : String := "traceparent"

/-- The call that a request makes. -/
def toCall (r : Request) (method service : String) (token : TokenId) : Call where
  method := method
  service := service
  metadata := r.metadata
  principal := r.principal?
  trace := r.metadata.text? traceHeader
  token := token

end Request

end CallGate
