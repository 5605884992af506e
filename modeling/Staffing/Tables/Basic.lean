import Staffing.Demand.Assignment
import Staffing.Event.Basic
import Staffing.Fault
import Staffing.Ledger.Basic
import Staffing.Lock.Basic
import Staffing.Roster.Provider
import Staffing.Roster.Team

/-!
# Tables

All that is stored, one list of records for each kind, in the order in which the records came.
Times are kept in whole seconds, so a record is rounded when it is stored, and every question that
compares times rounds its own.

* `Tables` — the lists
* `Statement` — a write that is done as a whole or refused as a whole
* `Provider.stored`, `Job.stored`, … — a record as the tables keep it

What refuses a write: a key that is taken, a row that is referred to and missing, and a number
out of its bounds.
-/

namespace Staffing

/-- What an entry of the log tells: an event, or any other text. -/
inductive LogBody where
  | event (e : Event)
  | raw (eventType payload : String)
  deriving DecidableEq, Repr, Inhabited

/-- An entry of the log; entries are numbered from 1. -/
structure LogEntry where
  id : Nat
  jobId : Option String
  body : LogBody
  createdAt : Instant
  deriving DecidableEq, Repr, Inhabited

namespace LogEntry

/-- The name of the kind of event. -/
def eventType (l : LogEntry) : String :=
  match l.body with
  | .event e => e.typeName
  | .raw eventType _ => eventType

/-- The text of the entry. -/
def payload (l : LogEntry) : String :=
  match l.body with
  | .event e => e.payload
  | .raw _ payload => payload

end LogEntry

/-- All that is stored. -/
structure Tables where
  providers : List Provider := []
  teams : List Team := []
  jobs : List Job := []
  assignments : List Assignment := []
  plans : List Plan := []
  slots : List Slot := []
  locks : List Lock := []
  log : List LogEntry := []
  settings : List (String × String) := []
  deriving Inhabited

/-- A write that is done as a whole or refused as a whole. -/
abbrev Statement := Tables → Except Fault Tables

/-- Changes the records that satisfy `p`. -/
def updateWhere {α : Type} (p : α → Bool) (f : α → α) (rows : List α) : List α :=
  rows.map fun r => if p r then f r else r

/-! ## Records as they are kept -/

/-- Texts in order, each once. -/
def canonical (texts : List String) : List String :=
  (texts.mergeSort fun a b => a ≤ b).eraseReps

/-- A float as it is kept: without minus zero. -/
def storedFloat (x : Float) : Float := if x == 0 then 0 else x

/-- A provider without hours and times off, which are stored one by one. -/
def Provider.stored (p : Provider) : Provider where
  id := p.id
  displayName := p.displayName
  kind := p.kind
  active := p.active
  ecoFriendly := p.ecoFriendly
  hourlyRate := storedFloat p.hourlyRate
  ratingAverage := storedFloat p.ratingAverage
  ratingCount := p.ratingCount
  services := canonical p.services
  serviceZones := canonical p.serviceZones
  areas := canonical p.areas
  slots := []
  timeOff := []

/-- A team without members, which are stored one by one. -/
def Team.stored (t : Team) : Team := { t with services := canonical t.services, members := [] }

/-- A job in whole seconds; a surface that is not a number is none. -/
def Job.stored (j : Job) : Job :=
  { j with
    start := j.start.wholeSecond
    stop := j.stop.wholeSecond
    surface := (j.surface.filter fun x => !x.isNaN).map storedFloat
    fallbackRequestedAt := j.fallbackRequestedAt.map Instant.wholeSecond
    fallbackEscalatedAt := j.fallbackEscalatedAt.map Instant.wholeSecond
    createdAt := j.createdAt.wholeSecond
    updatedAt := j.updatedAt.wholeSecond }

/-- An assignment in whole seconds. -/
def Assignment.stored (a : Assignment) : Assignment :=
  { a with
    start := a.start.wholeSecond
    stop := a.stop.wholeSecond
    createdAt := a.createdAt.wholeSecond }

/-- A slot in whole seconds. -/
def Slot.stored (s : Slot) : Slot :=
  { s with start := s.start.wholeSecond, stop := s.stop.wholeSecond }

/-- A lock in whole seconds. -/
def Lock.stored (l : Lock) : Lock :=
  { l with
    expiresAt := l.expiresAt.wholeSecond
    createdAt := l.createdAt.wholeSecond
    updatedAt := l.updatedAt.wholeSecond }

end Staffing
