import CallGate.Requirement.Basic
import CallGate.Table

/-!
# Grants

Grants entitle to operations on resources. Grants on one resource add up. A question about a
resource on which no grant was ever made is answered in the negative, even if it asks for no
operation.
-/

namespace CallGate

/-- The granted operations, by resource. -/
abbrev Grants := Table String NameSet

namespace Grants

/-- The grants with further operations on a resource. -/
def add (g : Grants) (resource : String) (operations : List String) : Grants :=
  g.insert resource (((g.get? resource).getD .empty).insertAll operations)

/-- The grants that result from grants made one after the other. -/
def ofList (grants : List (String × List String)) : Grants :=
  grants.foldl (fun g entry => g.add entry.1 entry.2) Table.empty

/-- The grants cover what is required. -/
def covers (g : Grants) (r : Requirement) : Bool :=
  match g.get? r.resource with
  | some granted => r.operations.subset granted
  | none => false

end Grants

end CallGate
