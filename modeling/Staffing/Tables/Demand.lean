import Staffing.Ranking.Candidate
import Staffing.Tables.Roster

/-!
# Jobs and assignments in the tables

* `Tables.job?` — a job by id
* `Tables.jobsDue`, `Tables.promotableJobs` — what the sweeps look at
* `Tables.assignmentsFor` — the live assignments of a job, oldest first
* `Tables.hasConflict` — does a blocking assignment of a provider overlap a window?
* `Tables.history` — what a provider's assignments tell
* the statements that store jobs and assignments
-/

namespace Staffing.Tables

/-! ## Jobs -/

/-- The job of an id. -/
def job? (t : Tables) (id : String) : Option Job := t.jobs.find? (·.id == id)

/-- Is there a job of this id? -/
def hasJob (t : Tables) (id : String) : Bool := t.jobs.any (·.id == id)

/-- Changes the job of an id. -/
def updateJob (id : String) (f : Job → Job) (t : Tables) : Tables :=
  { t with jobs := updateWhere (·.id == id) f t.jobs }

/-- Stores a job, which has to last at least from one second to the next. -/
def insertJob (j : Job) : Statement := fun t =>
  if t.hasJob j.id || j.stop.wholeSecond ≤ j.start.wholeSecond then .error .database
  else .ok { t with jobs := t.jobs ++ [j.stored] }

/-- Sets the status of a job. -/
def setJobStatus (id : String) (status : JobStatus) (now : Instant) (t : Tables) : Tables :=
  t.updateJob id fun j => { j with status, updatedAt := now.wholeSecond }

/-- Takes over the retry and fallback fields of `j`. -/
def saveMatchingState (j : Job) (now : Instant) (t : Tables) : Tables :=
  t.updateJob j.id fun row =>
    { row with
      retryCount := j.retryCount
      fallbackTeam := j.fallbackTeam
      fallbackRequestedAt := j.fallbackRequestedAt.map Instant.wholeSecond
      fallbackEscalatedAt := j.fallbackEscalatedAt.map Instant.wholeSecond
      updatedAt := now.wholeSecond }

/-- Marks a job as assigned and clears its retry and fallback fields. -/
def markMatched (id : String) (now : Instant) (t : Tables) : Tables :=
  t.updateJob id fun row =>
    { row with
      status := .assigned
      retryCount := 0
      fallbackTeam := none
      fallbackRequestedAt := none
      fallbackEscalatedAt := none
      updatedAt := now.wholeSecond }

/-- Does `j` start before `k`, or with it and with an id that is no greater? -/
def startsBefore (j k : Job) : Bool :=
  if j.start ≠ k.start then j.start < k.start else j.id ≤ k.id

/-- Is the job one for the retry sweep: pending, matched automatically, still to come, not changed
since `staleBefore`, and with an attempt or the escalation left? -/
def isDue (now staleBefore : Instant) (maxRetries : Nat) (j : Job) : Bool :=
  j.isPending && j.mode = .auto && now.wholeSecond < j.start
    && j.updatedAt ≤ staleBefore.wholeSecond
    && (j.retryCount < maxRetries || j.fallbackEscalatedAt.isNone)

/-- The jobs for the retry sweep, by start and id. -/
def jobsDue (t : Tables) (now staleBefore : Instant) (maxRetries : Nat) : List Job :=
  (t.jobs.filter (isDue now staleBefore maxRetries)).mergeSort startsBefore

/-- The pending jobs without a live assignment that have a usable lock, by start and id. -/
def promotableJobs (t : Tables) (now : Instant) : List Job :=
  (t.jobs.filter fun j =>
    j.isPending && !t.assignments.any (fun a => a.jobId == j.id && a.isLive)
      && t.locks.any fun l => l.jobId == j.id && l.isUsable now
  ).mergeSort startsBefore

/-! ## Assignments -/

/-- Stores an assignment of a stored provider to a stored job. -/
def insertAssignment (a : Assignment) : Statement := fun t =>
  if t.assignments.any (·.id == a.id) || !t.hasJob a.jobId || !t.hasProvider a.providerId then
    .error .database
  else .ok { t with assignments := t.assignments ++ [a.stored] }

/-- Sets the status of an assignment. -/
def setAssignmentStatus (id : String) (status : AssignmentStatus) (t : Tables) : Tables :=
  { t with assignments := updateWhere (·.id == id) (fun a => { a with status }) t.assignments }

/-- Was `a` created before `b`, or with it and with an id that is no greater? -/
def createdBefore (a b : Assignment) : Bool :=
  if a.createdAt ≠ b.createdAt then a.createdAt < b.createdAt else a.id ≤ b.id

/-- The live assignments of a job, oldest first. -/
def assignmentsFor (t : Tables) (jobId : String) : List Assignment :=
  (t.assignments.filter fun a => a.jobId == jobId && a.isLive).mergeSort createdBefore

/-- Does a blocking assignment of the provider, on another job than `exclude`, overlap the
window? -/
def hasConflict (t : Tables) (providerId : String) (w : Window) (exclude : Option String) : Bool :=
  t.assignments.any fun a =>
    a.providerId == providerId && a.status.isBlocking
      && a.window.wholeSeconds.overlaps w.wholeSeconds && exclude != some a.jobId

/-- What a provider's assignments tell, looking `days` back from `now`. -/
def history (t : Tables) (providerId : String) (clientId : Option String) (now : Instant)
    (days : Int) : History :=
  let own := t.assignments.filter (·.providerId == providerId)
  let since := now.wholeSecond - days * Instant.dayLength
  let recent := own.filter fun a => since ≤ a.start && a.start < now.wholeSecond
  { recentAssignments := recent.length
    recentCancellations := recent.countP (!·.isLive)
    totalAssignments := own.countP (·.isLive)
    servedClient := clientId.any fun client => own.any fun a =>
      a.status = .completed && t.jobs.any fun j => j.id == a.jobId && j.clientId == client
    forwardLoad := own.countP fun a => now.wholeSecond ≤ a.start && a.status.isBlocking }

end Staffing.Tables
