import CallGate.Failure.Envelope
import CallGate.Log.Event

/-!
# From a failure to a status

A failure of a handler becomes the status that the caller sees, and one log event. A status that the
handler hands on passes unchanged; complaints and errors are put into envelopes, which keep
everything but the messages of a complaint from the caller.
-/

namespace CallGate

/-- How a failure is presented to the caller. -/
inductive Presentation where
  /-- A status goes to the caller as it is. -/
  | rethrow (status : Status)
  /-- The caller gets an envelope. -/
  | envelope (envelope : Envelope)
deriving DecidableEq

/-- The status that the caller sees. -/
def Presentation.toStatus : Presentation → Status
  | rethrow status => status
  | envelope e => e.toStatus

namespace Failure

/-- How the failure is presented to the caller. -/
def presentation : Failure → Presentation
  | handedOn status => .rethrow status
  | complaint c => .envelope (.complaint c)
  | unexpected _ => .envelope .unexpected
  | cancelled => .rethrow .callCancelled

/-- What is logged about the failure. -/
def event : Failure → Event
  | handedOn status => .statusPassed status.code status.message
  | complaint c => .complaintRaised c.messages.length
  | unexpected chain => .unexpectedFailure chain
  | cancelled => .callerCancelled

end Failure

end CallGate
