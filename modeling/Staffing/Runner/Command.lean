import Staffing.Actor
import Staffing.Json.Reader
import Staffing.Json.Shape
import Staffing.Lock.Manage

/-!
# Commands

A command is one line of JSON with its name in the field `type`.

* `Command` — the commands
* `Command.ofLine?` — the command of a line, if it is one
-/

namespace Staffing

/-- What a line of input asks for. -/
inductive Command where
  | preview (jobId : String) (limit : Nat)
  | autoAssign (jobId : String)
  | createLocks (actor : Actor) (jobId : String) (request : LockRequest)
  | confirmLocks (actor : Actor) (jobId : String) (lockIds : Option (List String))
  | releaseLocks (actor : Actor) (jobId : String) (lockIds : Option (List String))
  | listLocks (jobId : String) (withReleased : Bool)
  | promote (jobId : String)
  | sweep
  | quit
  deriving Repr, Inhabited

/-- An actor from JSON. -/
def Actor.ofJson? (v : Json) : Option Actor := v.fill? fields ⟨"", .client⟩
where
  /-- The fields of an actor. -/
  fields : List (Json.Field Actor) := [
    .required "id" Json.text? fun x a => { a with id := x },
    .required "role" (Json.choice? Role.ofText?) fun x a => { a with role := x }]

/-- What is to be locked, from JSON. -/
def LockRequestTarget.ofJson? (v : Json) : Option LockRequestTarget := do
  let (kind, v) ← v.tagged? "kind"
  match ← kind.alternative? ["team", "providers"] with
  | "team" =>
    let (teamId, units) ← v.fill? [
      Json.Field.required "team_id" Json.text? fun x p => (x, p.2),
      Json.Field.nullable "units" Json.nat32? fun x p => (p.1, x)] ("", none)
    some (team teamId units)
  | "providers" =>
    let ids ← v.fill? [Json.Field.required "provider_ids" (Json.list? Json.text?) fun x _ => x] []
    some (providers ids)
  | _ => none

/-- A lock request from JSON. -/
def LockRequest.ofJson? (v : Json) : Option LockRequest := v.fill? fields ⟨.providers [], none⟩
where
  /-- The fields of a lock request. -/
  fields : List (Json.Field LockRequest) := [
    .required "target" LockRequestTarget.ofJson? fun x r => { r with target := x },
    .defaulted "ttl_minutes" (Json.optional? Json.int64?) fun x r => { r with ttlMinutes := x }]

namespace Command

/-- All that any command holds. -/
structure Parts where
  jobId : String := ""
  limit : Nat := 10
  actor : Actor := .system
  request : LockRequest := ⟨.providers [], none⟩
  lockIds : Option (List String) := none
  withReleased : Bool := false

namespace Parts

/-- The job. -/
def job : Json.Field Parts := .required "job_id" Json.text? fun x p => { p with jobId := x }

/-- How many rows are wanted. -/
def most : Json.Field Parts := .defaulted "limit" Json.nat64? fun x p => { p with limit := x }

/-- Who asks. -/
def who : Json.Field Parts := .required "actor" Actor.ofJson? fun x p => { p with actor := x }

/-- What is to be locked. -/
def what : Json.Field Parts :=
  .required "request" LockRequest.ofJson? fun x p => { p with request := x }

/-- Which locks; all when absent. -/
def which : Json.Field Parts :=
  .defaulted "lock_ids" (Json.optional? (Json.list? Json.text?)) fun x p => { p with lockIds := x }

/-- Are the released locks wanted too? -/
def released : Json.Field Parts :=
  .defaulted "include_released" Json.bool? fun x p => { p with withReleased := x }

end Parts

open Parts in
/-- The command that a JSON value describes. -/
def ofJson? (v : Json) : Option Command := do
  let (name, v) ← v.tagged? "type"
  match ← name.text? with
  | "preview" => (v.fill? [job, most] {}).map fun p => preview p.jobId p.limit
  | "auto_assign" => (v.fill? [job] {}).map fun p => autoAssign p.jobId
  | "create_locks" =>
    (v.fill? [who, job, what] {}).map fun p => createLocks p.actor p.jobId p.request
  | "confirm_locks" =>
    (v.fill? [who, job, which] {}).map fun p => confirmLocks p.actor p.jobId p.lockIds
  | "release_locks" =>
    (v.fill? [who, job, which] {}).map fun p => releaseLocks p.actor p.jobId p.lockIds
  | "list_locks" => (v.fill? [job, released] {}).map fun p => listLocks p.jobId p.withReleased
  | "promote" => (v.fill? [job] {}).map fun p => promote p.jobId
  | "sweep" => (v.fill? [] ()).map fun _ => sweep
  | "quit" => (v.fill? [] ()).map fun _ => quit
  | _ => none

/-- The command of a line. -/
def ofLine? (line : String) : Option Command := do
  let v ← Json.parse? line
  if v.admissible then ofJson? v else none

end Command

end Staffing
