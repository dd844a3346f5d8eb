import CallGate.Requirement.Basic
import CallGate.Table

/-!
# Declared requirements

A registry holds what has been declared about the methods of services. A declaration is about one
method, named by its whole path or by the last part of it, or about all methods of a service that
have none of their own. A later declaration about the same replaces an earlier one. A method is
looked up by its whole path first, then by the last part of the path, and then as one of its
service.
-/

namespace CallGate

/-- A declared requirement. -/
inductive Declaration where
  /-- The requirement of one method, named by its path or the last part of it. -/
  | method (service key : String) (requirement : Requirement)
  /-- The requirement of all methods of a service that have none of their own. -/
  | service (service : String) (requirement : Requirement)
deriving DecidableEq

/-- What is declared about one service. -/
structure ServiceRules where
  /-- The requirement of methods that have none of their own. -/
  standard : Option Requirement
  /-- The requirements of methods, under their keys. -/
  methods : Table String Requirement

/-- Nothing is declared about the service. -/
def ServiceRules.empty : ServiceRules := ⟨none, .empty⟩

instance : Inhabited ServiceRules := ⟨.empty⟩

/-- What is declared about services. -/
structure Registry where
  /-- The services about which something is declared. -/
  services : Table String ServiceRules

/-- The last part of a method path: what follows its last slash, or all of it if it has none. -/
def lastSegment (path : String) : String :=
  String.ofList ((path.toList.reverse.takeWhile (· != '/')).reverse)

namespace Registry

/-- Nothing is declared. -/
def empty : Registry := ⟨.empty⟩

instance : Inhabited Registry := ⟨empty⟩

/-- What is declared about a service. -/
def rules (r : Registry) (service : String) : ServiceRules :=
  (r.services.get? service).getD .empty

/-- The registry with one more declaration. -/
def declare (r : Registry) : Declaration → Registry
  | .method service key requirement =>
    let rules := r.rules service
    ⟨r.services.insert service { rules with methods := rules.methods.insert key requirement }⟩
  | .service service requirement =>
    ⟨r.services.insert service { r.rules service with standard := some requirement }⟩

/-- The registry that results from declarations made one after the other. -/
def ofDeclarations (declarations : List Declaration) : Registry :=
  declarations.foldl declare empty

/-- The declared requirement of a method of a service. -/
def find? (r : Registry) (method service : String) : Option Requirement :=
  let rules := r.rules service
  rules.methods.get? method
    <|> rules.methods.get? (lastSegment method)
    <|> rules.standard

end Registry

end CallGate
