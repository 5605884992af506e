import Staffing.Calendar.Instant
import Staffing.Demand.Job

/-!
# Faults

Why an operation refuses. A fault holds its cause; the wording and the stable code that callers
see are functions of it.

* `Conflict` — the request clashes with capacity or with what a provider already does
* `Invalid` — the request makes no sense
* `Fault` — all causes
* `Fault.code`, `Fault.message` — what callers see
-/

namespace Staffing

/-- A clash with capacity or with what a provider already does. -/
inductive Conflict where
  | capacityExceeded (slotId : String) (headroom : Int)
  | providerAlreadyLocked (providerId : String)
  | providerAlreadyAssigned (providerId : String)
  | duplicateMember (providerId : String)
  | insufficientMembers (required eligible : Nat)
  | providerNotEligible (providerId : String)
  deriving DecidableEq, Repr

namespace Conflict

/-- The stable code. -/
def code : Conflict → String
  | capacityExceeded .. => "CAPACITY_EXCEEDED"
  | providerAlreadyLocked .. => "PROVIDER_ALREADY_LOCKED"
  | providerAlreadyAssigned .. => "PROVIDER_ALREADY_ASSIGNED"
  | duplicateMember .. => "DUPLICATE_MEMBER"
  | insufficientMembers .. => "INSUFFICIENT_MEMBERS"
  | providerNotEligible .. => "PROVIDER_NOT_ELIGIBLE"

/-- The code and what it is about. -/
def message (c : Conflict) : String :=
  match c with
  | capacityExceeded slotId headroom =>
    c.code ++ " on slot " ++ slotId ++ " (headroom " ++ toString headroom ++ ")"
  | insufficientMembers required eligible =>
    c.code ++ ": " ++ toString eligible ++ " eligible, " ++ toString required ++ " required"
  | providerAlreadyLocked providerId | providerAlreadyAssigned providerId
  | duplicateMember providerId | providerNotEligible providerId =>
    c.code ++ " (" ++ providerId ++ ")"

end Conflict

/-- A request that makes no sense. -/
inductive Invalid where
  | emptyWindow (start stop : Instant)
  | headcount (required : Nat)
  | emptyProviderList
  | emptyTeam
  | emptyTeamName
  | unknownTimezone (name : String)
  | zeroDailyCap
  | teamTimezone (teamId name : String)
  | planRange (first last : Day)
  | closedJob (jobId : String) (status : JobStatus)
  | emptyLockTarget
  | emptyService
  | inactiveTeam (teamId : String)
  deriving DecidableEq, Repr

namespace Invalid

/-- What is wrong. -/
def message : Invalid → String
  | emptyWindow start stop =>
    "time window end " ++ stop.text ++ " must be after start " ++ start.text
  | headcount required => "headcount " ++ toString required ++ " outside [1, 20]"
  | emptyProviderList => "provider list is empty"
  | emptyTeam => "team needs at least one member"
  | emptyTeamName => "team name is empty"
  | unknownTimezone name => "unknown timezone '" ++ name ++ "'"
  | zeroDailyCap => "daily capacity cap must be at least 1"
  | teamTimezone teamId name => "team " ++ teamId ++ " has unknown timezone '" ++ name ++ "'"
  | planRange first last =>
    "plan range end " ++ last.text ++ " is before start " ++ first.text
  | closedJob jobId status => "job " ++ jobId ++ " is " ++ status.text ++ " and cannot be locked"
  | emptyLockTarget => "lock target has no providers"
  | emptyService => "job service is empty"
  | inactiveTeam teamId => "team " ++ teamId ++ " is inactive"

end Invalid

/-- What a missing record would have been. -/
inductive Entity where
  | job
  | team
  | provider
  | lock
  | plan
  deriving DecidableEq, Repr

/-- The name of the entity. -/
def Entity.text : Entity → String
  | job => "job"
  | team => "team"
  | provider => "provider"
  | lock => "lock"
  | plan => "capacity plan"

/-- Why an operation refuses. -/
inductive Fault where
  /-- The tables refuse a row: a repeated key, a missing referenced row or a broken bound. -/
  | database
  | notFound (entity : Entity) (id : String)
  | invalid (reason : Invalid)
  | conflict (reason : Conflict)
  | forbidden (action : String)
  deriving DecidableEq, Repr

instance : Inhabited Fault := ⟨.database⟩

namespace Fault

/-- The stable code. -/
def code : Fault → String
  | database => "DATABASE"
  | notFound .. => "NOT_FOUND"
  | invalid _ => "VALIDATION"
  | conflict reason => reason.code
  | forbidden _ => "FORBIDDEN"

/-- The text that goes with the code. -/
def message : Fault → String
  | database => "Database error"
  | notFound entity id => entity.text ++ " '" ++ id ++ "' not found"
  | invalid reason => "Validation failed: " ++ reason.message
  | conflict reason => "Conflict: " ++ reason.message
  | forbidden action => "Forbidden: role may not " ++ action

end Fault

/-! ## Checks that stand alone -/

/-- The window from `start` to `stop`, which has to hold an instant. -/
def Window.checked (start stop : Instant) : Except Fault Window :=
  match Window.make? start stop with
  | some w => .ok w
  | none => .error (.invalid (.emptyWindow start stop))

/-- A job asks for 1 to 20 providers. -/
def checkHeadcount (required : Nat) : Except Fault Unit :=
  if 1 ≤ required ∧ required ≤ 20 then .ok () else .error (.invalid (.headcount required))

end Staffing
