/-!
# Teams

A team is a named list of providers with a time zone of its own. Its members have one order, in
which assembly, eligibility and promotion take them: the leads first, then by order index, then by
provider id.

* `Member.precedes` — that order
* `Team.orderedMembers` — the members in it
* `Team.offers` — a team without services takes any
-/

namespace Staffing

/-- A provider's place in a team. -/
structure Member where
  providerId : String
  isLead : Bool := false
  orderIndex : Int := 0
  deriving DecidableEq, Repr, Inhabited

/-- A team. -/
structure Team where
  id : String
  name : String
  timezone : String
  dailyCap : Option Nat
  active : Bool
  services : List String
  members : List Member
  deriving DecidableEq, Repr, Inhabited

namespace Member

/-- Does `a` come before `b`, or stand level with it? -/
def precedes (a b : Member) : Bool :=
  if a.isLead ≠ b.isLead then a.isLead
  else if a.orderIndex ≠ b.orderIndex then a.orderIndex < b.orderIndex
  else a.providerId ≤ b.providerId

end Member

namespace Team

/-- Does the team take jobs for this service? -/
def offers (t : Team) (service : String) : Bool :=
  t.services.isEmpty || t.services.contains service

/-- The members, leads first, then by order index, then by provider id. -/
def orderedMembers (t : Team) : List Member := t.members.mergeSort Member.precedes

end Team

end Staffing
