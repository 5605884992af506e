import Staffing.Engine.Operations

/-!
# Sweeps

Three sweeps run over the stored jobs and locks, one after the other, again and again.

* `Sweep.retry` — tries again to match pending jobs; counts the attempts that failed, requests a
  fallback at the first, and escalates once when none is left
* `Sweep.promotion` — staffs pending jobs by their usable locks
* `Sweep.expiry` — releases lapsed locks of pending jobs, a batch at a time
* `Sweep.cycle`, `Sweep.runUntil` — one run of each; again until told to stop

A job or lock that fails is counted and passed over, and a sweep that fails as a whole is reported
as one failure.
-/

namespace Staffing

/-- What one run of a sweep did. -/
structure SweepReport where
  sweep : String
  examined : Nat := 0
  succeeded : Nat := 0
  failed : Nat := 0
  deriving DecidableEq, Repr, Inhabited

/-- Counts one more item: done, left as it was, or failed. -/
def SweepReport.count (r : SweepReport) : Except Fault Bool → SweepReport
  | .ok true => { r with examined := r.examined + 1, succeeded := r.succeeded + 1 }
  | .ok false => { r with examined := r.examined + 1 }
  | .error _ => { r with examined := r.examined + 1, failed := r.failed + 1 }

/-- A sweep: a name, and a run at an instant. -/
structure Sweep where
  name : String
  run : Instant → EngineWork SweepReport

namespace Sweep

/-- Treats the items one by one and counts. -/
def forEach {α : Type} (treat : α → EngineWork Bool) :
    List α → SweepReport → EngineWork SweepReport
  | [], r => pure r
  | a :: rest, r => do
    let outcome ← Engine.attempt (treat a)
    forEach treat rest (r.count outcome)

/-! ## Retry -/

/-- The job after one more failed attempt, and what is to be told. -/
def afterFailure (j : Job) (maxRetries : Nat) (fallbackTeam : Option String) (now : Instant) :
    Job × List Event :=
  let count := min (j.retryCount + 1) maxRetries
  let requested := j.fallbackRequestedAt.isNone
  let team := if requested then fallbackTeam else j.fallbackTeam
  let escalated := maxRetries ≤ count && j.fallbackEscalatedAt.isNone
  ({ j with
      retryCount := count
      fallbackTeam := team
      fallbackRequestedAt := if requested then some now else j.fallbackRequestedAt
      fallbackEscalatedAt := if escalated then some now else j.fallbackEscalatedAt },
    [.matchRetryFailed j.id count]
      ++ (if requested then [.fallbackRequested j.id team] else [])
      ++ (if escalated then [.jobEscalated j.id count team] else []))

/-- Counts a failed attempt, unless the stored job is no longer pending or has been changed since
`staleBefore`. -/
def noteFailure (jobId : String) (maxRetries : Nat) (fallbackTeam : Option String)
    (now staleBefore : Instant) : Work (List Event) := Work.atomic do
  match ← Work.ask (Tables.job? · jobId) with
  | none => return []
  | some j =>
    if !j.isPending || staleBefore.wholeSecond < j.updatedAt.wholeSecond then return []
    let (j, events) := afterFailure j maxRetries fallbackTeam now
    Work.write (Tables.saveMatchingState j now)
    return events

/-- Counts a failed attempt for the job `j` as it was listed; for the first, a team that could take
over is looked for. -/
def recordFailure (j : Job) (maxRetries : Nat) (now staleBefore : Instant) : EngineWork Unit := do
  let team ←
    if j.fallbackRequestedAt.isNone then do
      match ← Engine.attempt (Engine.matchTeamAt (.ofJob j) j.requiredMembers now) with
      | .ok found => pure (found.map (·.teamId))
      | .error _ => pure none
    else pure none
  let events ← Engine.onStore (noteFailure j.id maxRetries team now staleBefore)
  Engine.dispatch now events

/-- Tries to match a job, and counts the attempt when it fails. -/
def retryOne (maxRetries : Nat) (now staleBefore : Instant) (j : Job) : EngineWork Bool := do
  match ← Engine.attempt (Engine.autoAssign j.id now) with
  | .ok (some _) => return true
  | _ =>
    recordFailure j maxRetries now staleBefore
    return false

/-- Tries again to match pending jobs. -/
def retry (config : SweepConfig) : Sweep where
  name := "retry"
  run now := do
    let staleBefore := now - config.staleAfter * Instant.minute
    let jobs ← Engine.ask (Tables.jobsDue · now staleBefore config.maxRetries)
    forEach (retryOne config.maxRetries now staleBefore) jobs { sweep := "retry" }

/-! ## Promotion and expiry -/

/-- Staffs pending jobs by their usable locks. -/
def promotion : Sweep where
  name := "promotion"
  run now := do
    let jobs ← Engine.ask (Tables.promotableJobs · now)
    forEach (fun j => do pure (← Engine.promote j.id now).isSome) jobs { sweep := "promotion" }

/-- Releases lapsed locks of pending jobs. -/
def expiry (batch : Nat) : Sweep where
  name := "expiry"
  run now := do
    let locks ← Engine.ask (Tables.expiredLocks · now batch)
    forEach (fun l => do pure (← Engine.expireLock l.id now).isSome) locks { sweep := "expiry" }

/-- The three sweeps, in the order in which they run. -/
def standard (config : SweepConfig) : List Sweep :=
  [retry config, promotion, expiry config.lockBatch]

/-! ## Cycles -/

/-- One run of each sweep at the given instant. -/
def cycleAt (now : Instant) : List Sweep → EngineWork (List SweepReport)
  | [] => pure []
  | s :: rest => do
    let report ← match ← Engine.attempt (s.run now) with
      | .ok report => pure report
      | .error _ => pure { sweep := s.name, failed := 1 }
    let reports ← cycleAt now rest
    pure (report :: reports)

/-- One run of each sweep now. -/
def cycle (sweeps : List Sweep) : EngineWork (List SweepReport) := do
  cycleAt (← Engine.clock) sweeps

/-- When sweeps run: once, or again and again until told to stop. -/
inductive Trigger where
  | manual
  | interval
  deriving DecidableEq, Repr

/-- How many cycles run when the signal to stop is given after `stopAfter` cycles. A manual trigger
does not look at the signal. -/
def Trigger.cycles (t : Trigger) (stopAfter : Nat) : Nat :=
  match t with
  | manual => 1
  | interval => stopAfter

/-- Runs so many cycles. -/
def repeated (sweeps : List Sweep) : Nat → EngineWork Unit
  | 0 => pure ()
  | n + 1 => do
    let _ ← cycle sweeps
    repeated sweeps n

/-- Runs cycles until the signal to stop, which is given after `stopAfter` of them, and returns how
many ran. -/
def runUntil (sweeps : List Sweep) (t : Trigger) (stopAfter : Nat) : EngineWork Nat := do
  repeated sweeps (t.cycles stopAfter)
  pure (t.cycles stopAfter)

end Sweep

end Staffing
