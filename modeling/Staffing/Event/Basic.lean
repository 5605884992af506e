import Staffing.Json.Writer

/-!
# Events

What happened to a job. An event goes into the log as a JSON text and to the notifier with its
recipients.

* `Event` — the kinds of event
* `Event.typeName`, `Event.jobId` — its kind's name, and the job it is about
* `Event.payload` — the JSON text: `type` first, then the fields in order
* `Event.recipients` — the operators for a fallback, the providers for a match, else nobody
-/

namespace Staffing

/-- What happened to a job. -/
inductive Event where
  | locksCreated (jobId : String) (lockIds : List String) (units : Nat)
  | locksConfirmed (jobId : String) (lockIds : List String)
  | locksReleased (jobId : String) (lockIds : List String) (reason : String)
  | locksPromoted (jobId : String) (lockIds providerIds : List String) (teamId : Option String)
  | jobMatched (jobId : String) (providerIds : List String) (teamId : Option String)
  | matchRetryFailed (jobId : String) (retryCount : Nat)
  | fallbackRequested (jobId : String) (teamCandidate : Option String)
  | jobEscalated (jobId : String) (retryCount : Nat) (teamCandidate : Option String)
  deriving DecidableEq, Repr, Inhabited

namespace Event

/-- The job that the event is about. -/
def jobId : Event → String
  | locksCreated jobId .. | locksConfirmed jobId .. | locksReleased jobId ..
  | locksPromoted jobId .. | jobMatched jobId .. | matchRetryFailed jobId ..
  | fallbackRequested jobId .. | jobEscalated jobId .. => jobId

/-- The name of the kind of event. -/
def typeName : Event → String
  | locksCreated .. => "locks_created"
  | locksConfirmed .. => "locks_confirmed"
  | locksReleased .. => "locks_released"
  | locksPromoted .. => "locks_promoted"
  | jobMatched .. => "job_matched"
  | matchRetryFailed .. => "match_retry_failed"
  | fallbackRequested .. => "fallback_requested"
  | jobEscalated .. => "job_escalated"

/-- Is the event for the operators? -/
def isOperatorFacing : Event → Bool
  | fallbackRequested .. | jobEscalated .. => true
  | _ => false

/-- The locks that the event names. -/
def lockIds : Event → List String
  | locksCreated _ lockIds _ | locksConfirmed _ lockIds | locksReleased _ lockIds _
  | locksPromoted _ lockIds _ _ => lockIds
  | _ => []

/-- Who hears of the event. -/
def recipients (e : Event) : List String :=
  match e with
  | fallbackRequested .. | jobEscalated .. => ["operations"]
  | jobMatched _ providerIds _ | locksPromoted _ _ providerIds _ => providerIds
  | _ => []

/-- The fields behind `type`. -/
def fields : Event → List (String × Json)
  | locksCreated jobId lockIds units =>
    [("job_id", .text jobId), ("lock_ids", .texts lockIds), ("units", .int units)]
  | locksConfirmed jobId lockIds => [("job_id", .text jobId), ("lock_ids", .texts lockIds)]
  | locksReleased jobId lockIds reason =>
    [("job_id", .text jobId), ("lock_ids", .texts lockIds), ("reason", .text reason)]
  | locksPromoted jobId lockIds providerIds teamId =>
    [("job_id", .text jobId), ("lock_ids", .texts lockIds), ("provider_ids", .texts providerIds),
      ("team_id", .optionalText teamId)]
  | jobMatched jobId providerIds teamId =>
    [("job_id", .text jobId), ("provider_ids", .texts providerIds),
      ("team_id", .optionalText teamId)]
  | matchRetryFailed jobId retryCount => [("job_id", .text jobId), ("retry_count", .int retryCount)]
  | fallbackRequested jobId teamCandidate =>
    [("job_id", .text jobId), ("team_candidate", .optionalText teamCandidate)]
  | jobEscalated jobId retryCount teamCandidate =>
    [("job_id", .text jobId), ("retry_count", .int retryCount),
      ("team_candidate", .optionalText teamCandidate)]

/-- The event as JSON. -/
def toJson (e : Event) : Json := .record (("type", .text e.typeName) :: e.fields)

/-- The event as the log holds it. -/
def payload (e : Event) : String := e.toJson.compact

end Event

end Staffing
