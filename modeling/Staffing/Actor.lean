import Staffing.Fault

/-!
# Actors

Who asks for an operation. Admins and operators may manage locks, jobs and teams; clients and
providers may not.

* `Actor.isOperational` — admin or operator
* `Actor.requireOperational` — refuses the others
-/

namespace Staffing

/-- What an actor is. -/
inductive Role where
  | admin
  | operator
  | client
  | provider
  deriving DecidableEq, Repr, Inhabited

namespace Role

/-- The name of the role. -/
def text : Role → String
  | admin => "admin"
  | operator => "operator"
  | client => "client"
  | provider => "provider"

/-- The role of a name. -/
def ofText? : String → Option Role
  | "admin" => some admin
  | "operator" => some operator
  | "client" => some client
  | "provider" => some provider
  | _ => none

end Role

/-- Who asks for an operation. -/
structure Actor where
  id : String
  role : Role
  deriving DecidableEq, Repr, Inhabited

namespace Actor

/-- The actor of the sweeps. -/
def system : Actor := ⟨"system", .admin⟩

/-- May the actor manage locks, jobs and teams? -/
def isOperational (a : Actor) : Bool := a.role = .admin || a.role = .operator

/-- Refuses an actor that may not do `action`. -/
def requireOperational (a : Actor) (action : String) : Except Fault Unit :=
  if a.isOperational then .ok () else .error (.forbidden action)

end Actor

end Staffing
