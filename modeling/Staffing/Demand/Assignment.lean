import Staffing.Calendar.Window

/-!
# Assignments

An assignment sends one provider to one job. While its status is blocking it occupies the
provider's calendar.

* `AssignmentStatus.isBlocking` — proposed, scheduled, confirmed or in progress
* `Assignment` — the record
-/

namespace Staffing

/-- Where an assignment stands. -/
inductive AssignmentStatus where
  | proposed
  | scheduled
  | confirmed
  | inProgress
  | completed
  | cancelled
  deriving DecidableEq, Repr, Inhabited

namespace AssignmentStatus

/-- The name of the status. -/
def text : AssignmentStatus → String
  | proposed => "proposed"
  | scheduled => "scheduled"
  | confirmed => "confirmed"
  | inProgress => "in_progress"
  | completed => "completed"
  | cancelled => "cancelled"

/-- The status of a name. -/
def ofText? : String → Option AssignmentStatus
  | "proposed" => some proposed
  | "scheduled" => some scheduled
  | "confirmed" => some confirmed
  | "in_progress" => some inProgress
  | "completed" => some completed
  | "cancelled" => some cancelled
  | _ => none

/-- Does the assignment occupy the provider's calendar? -/
def isBlocking : AssignmentStatus → Bool
  | proposed | scheduled | confirmed | inProgress => true
  | completed | cancelled => false

end AssignmentStatus

/-- A provider sent to a job. -/
structure Assignment where
  id : String
  jobId : String
  providerId : String
  teamId : Option String
  start : Instant
  stop : Instant
  status : AssignmentStatus
  createdAt : Instant
  deriving DecidableEq, Repr, Inhabited

namespace Assignment

/-- The window that the assignment covers. -/
def window (a : Assignment) : Window := ⟨a.start, a.stop⟩

/-- Has the assignment not been cancelled? -/
def isLive (a : Assignment) : Bool := a.status ≠ .cancelled

end Assignment

end Staffing
