import Staffing.Calendar.Window

/-!
# Jobs

A job asks for a number of providers at a place and in a window. It waits as `pendingProvider`
until it is matched; the retry fields count the attempts that failed.

* `Job` — the record
* `Job.window` — the window it asks for
* `JobStatus`, `AssignmentMode` — its state, and whether the sweeps may match it
-/

namespace Staffing

/-- Where a job stands. -/
inductive JobStatus where
  | pendingProvider
  | assigned
  | inProgress
  | completed
  | cancelled
  deriving DecidableEq, Repr, Inhabited

namespace JobStatus

/-- The name of the status. -/
def text : JobStatus → String
  | pendingProvider => "pending_provider"
  | assigned => "assigned"
  | inProgress => "in_progress"
  | completed => "completed"
  | cancelled => "cancelled"

/-- The status of a name. -/
def ofText? : String → Option JobStatus
  | "pending_provider" => some pendingProvider
  | "assigned" => some assigned
  | "in_progress" => some inProgress
  | "completed" => some completed
  | "cancelled" => some cancelled
  | _ => none

end JobStatus

/-- Who matches a job. -/
inductive AssignmentMode where
  | auto
  | manual
  deriving DecidableEq, Repr, Inhabited

namespace AssignmentMode

/-- The name of the mode. -/
def text : AssignmentMode → String
  | auto => "auto"
  | manual => "manual"

/-- The mode of a name. -/
def ofText? : String → Option AssignmentMode
  | "auto" => some auto
  | "manual" => some manual
  | _ => none

end AssignmentMode

/-- A job. -/
structure Job where
  id : String
  clientId : String
  service : String
  ecoPreference : Bool
  city : Option String
  postalCode : Option String
  start : Instant
  stop : Instant
  requiredMembers : Nat
  surface : Option Float
  status : JobStatus
  mode : AssignmentMode
  retryCount : Nat
  fallbackTeam : Option String
  fallbackRequestedAt : Option Instant
  fallbackEscalatedAt : Option Instant
  createdAt : Instant
  updatedAt : Instant
  deriving Inhabited

namespace Job

/-- The window that the job asks for. -/
def window (j : Job) : Window := ⟨j.start, j.stop⟩

/-- Does the job still wait for providers? -/
def isPending (j : Job) : Bool := j.status = .pendingProvider

/-- Is the job over, so that nothing may be reserved for it any more? -/
def isClosed (j : Job) : Bool := j.status = .cancelled || j.status = .completed

end Job

end Staffing
