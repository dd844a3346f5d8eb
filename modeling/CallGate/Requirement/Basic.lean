import CallGate.NameSet

/-!
# What a method requires

A method requires some operations on a resource. A method that requires no operation is open to
everybody, whatever resource is named with it.
-/

namespace CallGate

/-- Operations on a resource that a caller must be entitled to. -/
structure Requirement where
  /-- The resource. -/
  resource : String
  /-- The operations on it. -/
  operations : NameSet
deriving DecidableEq

namespace Requirement

/-- The requirement of the listed operations, in any order and with repetitions. -/
def of (resource : String) (operations : List String) : Requirement :=
  ⟨resource, .ofList operations⟩

/-- The requirement of a method about which nothing is declared. -/
def free : Requirement := ⟨"", .empty⟩

instance : Inhabited Requirement := ⟨free⟩

/-- The method is open to everybody. -/
def isFree (r : Requirement) : Bool := r.operations.isEmpty

end Requirement

end CallGate
