import CallGate.Failure.Complaint

/-!
# How a handler fails

A handler may fail in four ways. It may hand on a status that it got itself, complain about broken
rules of its domain, run into an error that nobody expected, or find that the call has been
cancelled.
-/

namespace CallGate

/-- An unexpected error: what went wrong at the outermost layer, then at each layer below, and last
the root cause. -/
structure ErrorChain where
  /-- The texts of the layers. -/
  layers : List String
deriving DecidableEq

/-- All layers in one line. -/
def ErrorChain.text (chain : ErrorChain) : String := ": ".intercalate chain.layers

/-- How a handler fails. -/
inductive Failure where
  /-- The handler hands on a status. -/
  | handedOn (status : Status)
  /-- The handler complains about broken rules. -/
  | complaint (complaint : Complaint)
  /-- The handler ran into an error. -/
  | unexpected (chain : ErrorChain)
  /-- The handler found the call cancelled. -/
  | cancelled
deriving DecidableEq

/-- The failure in one line. -/
def Failure.text : Failure → String
  | handedOn status => "transport fault: " ++ status.description
  | complaint c => "business fault: " ++ c.text
  | unexpected chain => "unexpected fault: " ++ chain.text
  | cancelled => "call cancelled"

end CallGate
