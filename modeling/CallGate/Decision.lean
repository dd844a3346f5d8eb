import CallGate.World

/-!
# Decisions about calls

A method that requires nothing is open to everybody. For any other the principal of the call is
asked, once and about exactly what the method requires; a call without a principal is refused.
-/

namespace CallGate

/-- What becomes of a call. -/
inductive Decision where
  /-- The call may be made. -/
  | allowed
  /-- The call is made by nobody in particular. -/
  | noPrincipal
  /-- The principal may not make the call. -/
  | denied
deriving DecidableEq, Repr

/-- The status of a call that is refused. -/
def Decision.refusal? : Decision → Option Status
  | allowed => none
  | noPrincipal => some Envelope.noPrincipal.toStatus
  | denied => some Envelope.denied.toStatus

namespace World

/-- The decision about a call in the name of `principal` to a method with the given requirement. -/
def decision (w : World) (principal : Option PrincipalId) (r : Requirement) : Decision :=
  if r.isFree then .allowed
  else
    match principal with
    | none => .noPrincipal
    | some p => if w.answer p r then .allowed else .denied

/-- The world after the decision: a question may have been asked, and a refusal is logged. -/
def afterDecision (w : World) (span : Option Span) (principal : Option PrincipalId)
    (r : Requirement) : World :=
  if r.isFree then w
  else
    match principal with
    | none => w.log span (.principalMissing r.resource)
    | some p =>
      if w.answer p r then w.ask p r
      else (w.ask p r).log span (.operationsMissing r.resource r.operations)

end World

end CallGate
