import Staffing.Event.Basic
import Staffing.Json.Shape

/-!
# Events from JSON

The event that a JSON value describes. The optional fields may be missing.

* `Event.ofJson?` — the event, if the value describes one
-/

namespace Staffing.Event

/-- All that any kind of event holds. -/
structure Parts where
  jobId : String := ""
  lockIds : List String := []
  providerIds : List String := []
  units : Nat := 0
  retryCount : Nat := 0
  reason : String := ""
  teamId : Option String := none
  teamCandidate : Option String := none

namespace Parts

/-- The job. -/
def job : Json.Field Parts := .required "job_id" Json.text? fun x p => { p with jobId := x }

/-- The locks. -/
def locks : Json.Field Parts :=
  .required "lock_ids" (Json.list? Json.text?) fun x p => { p with lockIds := x }

/-- The providers. -/
def providers : Json.Field Parts :=
  .required "provider_ids" (Json.list? Json.text?) fun x p => { p with providerIds := x }

/-- The number of units. -/
def unitCount : Json.Field Parts := .required "units" Json.nat32? fun x p => { p with units := x }

/-- The number of attempts. -/
def retries : Json.Field Parts :=
  .required "retry_count" Json.nat32? fun x p => { p with retryCount := x }

/-- The reason of a release. -/
def why : Json.Field Parts := .required "reason" Json.text? fun x p => { p with reason := x }

/-- The team. -/
def team : Json.Field Parts :=
  .nullable "team_id" Json.text? fun x p => { p with teamId := x }

/-- The team that could take over. -/
def candidate : Json.Field Parts :=
  .nullable "team_candidate" Json.text? fun x p => { p with teamCandidate := x }

end Parts

open Parts in
/-- The event that a JSON value describes. -/
def ofJson? (v : Json) : Option Event := do
  let (kind, v) ← v.tagged? "type"
  match ← kind.text? with
  | "locks_created" =>
    let p ← v.fill? [job, locks, unitCount] {}
    some (locksCreated p.jobId p.lockIds p.units)
  | "locks_confirmed" =>
    let p ← v.fill? [job, locks] {}
    some (locksConfirmed p.jobId p.lockIds)
  | "locks_released" =>
    let p ← v.fill? [job, locks, why] {}
    some (locksReleased p.jobId p.lockIds p.reason)
  | "locks_promoted" =>
    let p ← v.fill? [job, locks, providers, team] {}
    some (locksPromoted p.jobId p.lockIds p.providerIds p.teamId)
  | "job_matched" =>
    let p ← v.fill? [job, providers, team] {}
    some (jobMatched p.jobId p.providerIds p.teamId)
  | "match_retry_failed" =>
    let p ← v.fill? [job, retries] {}
    some (matchRetryFailed p.jobId p.retryCount)
  | "fallback_requested" =>
    let p ← v.fill? [job, candidate] {}
    some (fallbackRequested p.jobId p.teamCandidate)
  | "job_escalated" =>
    let p ← v.fill? [job, retries, candidate] {}
    some (jobEscalated p.jobId p.retryCount p.teamCandidate)
  | _ => none

end Staffing.Event
