import CallGate.Failure.Complaint

/-!
# Envelopes

An envelope is what a caller is told about a fault of this side: one of three codes, a fixed
message, and details only for a complaint. Nothing else about the fault leaves the system.
-/

namespace CallGate

/-- The kinds of faults that callers are told about. -/
inductive EnvelopeCode where
  /-- The caller is not known. -/
  | unauthenticated
  /-- The caller lacks a right. -/
  | permissionDenied
  /-- The handler failed. -/
  | internal
deriving DecidableEq, Repr

namespace EnvelopeCode

/-- The code in words. -/
def text : EnvelopeCode → String
  | unauthenticated => "unauthenticated"
  | permissionDenied => "permission denied"
  | internal => "internal"

/-- The code of the status that carries the fault. -/
def statusCode : EnvelopeCode → StatusCode
  | unauthenticated => .unauthenticated
  | permissionDenied => .permissionDenied
  | internal => .internal

end EnvelopeCode

/-- What a caller is told about a fault. -/
structure Envelope where
  /-- The kind of fault. -/
  code : EnvelopeCode
  /-- The message for people. -/
  message : String
  /-- The details for programs. -/
  detail : Option Bytes
deriving DecidableEq

namespace Envelope

/-- The caller has not identified itself. -/
def noPrincipal : Envelope := ⟨.unauthenticated, "No user context.", none⟩

/-- The caller may not do this. -/
def denied : Envelope := ⟨.permissionDenied, "You don't have the expected rights.", none⟩

/-- Something went wrong. -/
def unexpected : Envelope := ⟨.internal, "An error occurs.", none⟩

/-- The call breaks rules of the domain. -/
def complaint (c : Complaint) : Envelope :=
  ⟨.internal, "A business rule was violated.", some c.detail⟩

/-- The status that carries the envelope. -/
def toStatus (e : Envelope) : Status :=
  { code := e.code.statusCode, message := e.message, details := e.detail.getD [] }

end Envelope

/-- The status of a call that was cancelled. -/
def Status.callCancelled : Status := { code := .cancelled, message := "Call cancelled." }

end CallGate
