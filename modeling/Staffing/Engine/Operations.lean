import Staffing.Engine.Matching
import Staffing.Store.Profiles

/-!
# Operations

What callers ask of the engine, besides matching. An event is dispatched when the transaction that
it tells of is committed.

* jobs — `Engine.createJob`, `Engine.cancelJob`
* teams — `Engine.createTeam`, `Engine.replaceTeamMembers`
* capacity — `Engine.ensureSlot`, `Engine.generatePlans`
* locks — `Engine.createLocks`, `Engine.confirmLocks`, `Engine.releaseLocks`, `Engine.expireLock`,
  `Engine.promote`, `Engine.listLocks`
-/

namespace Staffing

/-- A job that is asked for. -/
structure NewJob where
  clientId : String
  service : String
  ecoPreference : Bool := false
  city : Option String := none
  postalCode : Option String := none
  start : Instant
  stop : Instant
  requiredMembers : Nat
  surface : Option Float := none
  mode : AssignmentMode := .auto
  deriving Inhabited

/-- A team that is asked for. -/
structure NewTeam where
  name : String
  timezone : String
  dailyCap : Option Nat := none
  services : List String := []
  members : List Member
  deriving Inhabited

/-- The job as it begins. -/
def NewJob.pending (n : NewJob) (id : String) (now : Instant) : Job where
  id := id
  clientId := n.clientId
  service := n.service
  ecoPreference := n.ecoPreference
  city := n.city
  postalCode := n.postalCode
  start := n.start
  stop := n.stop
  requiredMembers := n.requiredMembers
  surface := n.surface
  status := .pendingProvider
  mode := n.mode
  retryCount := 0
  fallbackTeam := none
  fallbackRequestedAt := none
  fallbackEscalatedAt := none
  createdAt := now
  updatedAt := now

/-- Members are there, occur once and are stored providers. -/
def checkMembers (t : Tables) (members : List Member) : Except Fault Unit :=
  if members.isEmpty then .error (.invalid .emptyTeam)
  else
    match repeated? [] (members.map (·.providerId)) with
    | some id => .error (.conflict (.duplicateMember id))
    | none =>
      match members.find? (!t.hasProvider ·.providerId) with
      | some m => .error (.notFound .provider m.providerId)
      | none => .ok ()
where
  /-- The first text that has occurred before. -/
  repeated? : List String → List String → Option String
    | _, [] => none
    | seen, id :: rest => if seen.contains id then some id else repeated? (id :: seen) rest

namespace Engine

/-! ## Jobs -/

/-- Stores a new job. -/
def createJob (n : NewJob) : EngineWork Job := do
  let _ ← ofExcept (Window.checked n.start n.stop)
  ofExcept (checkHeadcount n.requiredMembers)
  if (Text.trim n.service).isEmpty then refuse (.invalid .emptyService)
  let j := n.pending (← onStore (Work.draw .job)) (← clock)
  onStore (Work.run (Tables.insertJob j))
  pure j

/-- Cancels a job and its live assignments; its locks are left to whoever releases them. -/
def cancelJob (actor : Actor) (jobId : String) : EngineWork Job := do
  ofExcept (actor.requireOperational "cancel jobs")
  let now ← clock
  onStore <| Work.atomic do
    let j ← Work.demand .job jobId (Tables.job? · jobId)
    let live ← Work.ask (Tables.assignmentsFor · jobId)
    Work.each (fun a => Work.write (Tables.setAssignmentStatus a.id .cancelled)) live
    Work.write (Tables.setJobStatus jobId .cancelled now)
    pure { j with status := .cancelled, updatedAt := now }

/-! ## Teams -/

/-- Stores a new team. -/
def createTeam (actor : Actor) (n : NewTeam) : EngineWork Team := do
  ofExcept (actor.requireOperational "manage teams")
  if (Text.trim n.name).isEmpty then refuse (.invalid .emptyTeamName)
  if (Zone.named? n.timezone).isNone then refuse (.invalid (.unknownTimezone n.timezone))
  if n.dailyCap = some 0 then refuse (.invalid .zeroDailyCap)
  ofExcept (checkMembers (← ask id) n.members)
  let team : Team := {
    id := ← onStore (Work.draw .team)
    name := Text.trim n.name
    timezone := n.timezone
    dailyCap := n.dailyCap
    active := true
    services := n.services
    members := n.members }
  onStore (Store.insertTeam team)
  pure team

/-- Gives a team these members and no others. -/
def replaceTeamMembers (actor : Actor) (teamId : String) (members : List Member) :
    EngineWork Team := do
  ofExcept (actor.requireOperational "manage teams")
  let team ← onStore (Work.demand .team teamId (Tables.team? · teamId))
  ofExcept (checkMembers (← ask id) members)
  onStore (Store.replaceMembers teamId members)
  pure { team with members }

/-! ## Capacity -/

/-- The slot of a team's window, up to date. -/
def ensureSlot (teamId : String) (start stop : Instant) : EngineWork Slot :=
  onStore (Ledger.ensureSlot teamId start stop)

/-- The plans of a team from the day `first` to the day `last`, up to date. -/
def generatePlans (teamId : String) (first last : Day) : EngineWork (List Plan) :=
  onStore (Ledger.generatePlans teamId first last)

/-! ## Locks -/

/-- New locks on a job. -/
def createLocks (actor : Actor) (jobId : String) (request : LockRequest) :
    EngineWork (List Lock) := do
  let e ← get
  let locks ← onStore (Locks.create e.config.locks actor jobId request e.now)
  dispatch e.now [.locksCreated jobId (locks.map (·.id)) (Lock.units locks)]
  pure locks

/-- Confirms the held locks of a job, those in `ids` if it is given. -/
def confirmLocks (actor : Actor) (jobId : String) (ids : Option (List String)) :
    EngineWork (List Lock) := do
  let now ← clock
  let locks ← onStore (Locks.confirm actor jobId ids now)
  if !locks.isEmpty then dispatch now [.locksConfirmed jobId (locks.map (·.id))]
  pure locks

/-- Releases the live locks of a job, those in `ids` if it is given. -/
def releaseLocks (actor : Actor) (jobId : String) (ids : Option (List String)) :
    EngineWork (List Lock) := do
  let now ← clock
  let locks ← onStore (Locks.release actor jobId ids now)
  if !locks.isEmpty then
    dispatch now [.locksReleased jobId (locks.map (·.id)) ReleaseReason.manual.text]
  pure locks

/-- The locks of a job, in the order they came; the released ones only on request. -/
def listLocks (jobId : String) (withReleased : Bool) : EngineWork (List Lock) :=
  ask (Tables.locksFor · jobId none withReleased)

/-- Releases a lock that is live and has lapsed. -/
def expireLock (lockId : String) (now : Instant) : EngineWork (Option Lock) := do
  match ← onStore (Locks.expire lockId now) with
  | none => return none
  | some l =>
    dispatch now [.locksReleased l.jobId [l.id] ReleaseReason.expired.text]
    return some l

/-- Staffs a pending job by its usable locks. -/
def promote (jobId : String) (now : Instant) : EngineWork (Option Promotion) := do
  match ← onStore (Promotion.promote jobId now) with
  | none => return none
  | some p =>
    dispatch now [
      .locksPromoted p.jobId p.promotedLockIds p.providerIds p.teamId,
      .jobMatched p.jobId p.providerIds p.teamId]
    return some p

end Engine

end Staffing
