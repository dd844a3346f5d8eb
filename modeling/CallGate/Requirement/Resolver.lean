import CallGate.Requirement.Registry
import CallGate.Log.Event

/-!
# Resolving requirements

A resolver says what a method of a service requires, and what it logs while it finds that out. A
registry resolves a method about which nothing is declared to one that is open to everybody, and
logs that it did. A memo remembers answers, so that a resolver is asked about a method only once.
-/

namespace CallGate

/-- The answer of a resolver. -/
structure Resolution where
  /-- What the method requires. -/
  requirement : Requirement
  /-- What is logged about the answer. -/
  events : List Event
deriving DecidableEq

/-- What methods of services require, by the path of the method and the name of the service. -/
abbrev Resolver := (method service : String) → Resolution

/-- The requirements that are declared in a registry. -/
def Registry.resolver (r : Registry) : Resolver := fun method service =>
  match r.find? method service with
  | some requirement => ⟨requirement, []⟩
  | none => ⟨.free, [.undeclared method service]⟩

/-- Remembered requirements, by the exact path of a method and the name of its service. -/
abbrev Memo := Table (String × String) Requirement

end CallGate
