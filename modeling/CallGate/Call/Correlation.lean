import CallGate.Text.Blank
import CallGate.Uuid

/-!
# Correlation ids

All log events of a call carry its correlation id, by which they are found together. It is the trace
context that came with the call, without the blanks around it, or else an identifier drawn at
random.
-/

namespace CallGate

/-- The id under which the events of a call are found together. -/
inductive CorrelationId where
  /-- An id that was drawn for the call. -/
  | generated (id : Uuid)
  /-- An id that came with the call. -/
  | given (text : String)
deriving DecidableEq

namespace CorrelationId

/-- The id as a text. -/
def text : CorrelationId → String
  | generated id => id.text
  | given text => text

/-- The id in a trace context, if the context is not blank. -/
def ofTrace? (trace : String) : Option CorrelationId :=
  let trimmed := trimText trace
  if trimmed.isEmpty then none else some (.given trimmed)

end CorrelationId

end CallGate
