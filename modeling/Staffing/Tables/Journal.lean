import Staffing.Tables.Basic

/-!
# The log and the settings in the tables

* `Tables.appendLog` — a new entry, numbered behind the last
* `Tables.eventsFor`, `Tables.countEvents` — the entries about a job; how many of a kind
* `Tables.setting?`, `Tables.putSetting` — a text under a key
-/

namespace Staffing.Tables

/-- Adds an entry to the log. -/
def appendLog (jobId : Option String) (body : LogBody) (now : Instant) (t : Tables) : Tables :=
  { t with log := t.log ++ [⟨t.log.length + 1, jobId, body, now.wholeSecond⟩] }

/-- The entries about a job, oldest first. -/
def eventsFor (t : Tables) (jobId : String) : List LogEntry :=
  t.log.filter (·.jobId == some jobId)

/-- How many entries are of a kind. -/
def countEvents (t : Tables) (eventType : String) : Nat := t.log.countP (·.eventType == eventType)

/-- The text under a key. -/
def setting? (t : Tables) (key : String) : Option String := t.settings.lookup key

/-- Puts a text under a key. -/
def putSetting (key value : String) (t : Tables) : Tables :=
  { t with settings := (key, value) :: t.settings.filter (·.1 != key) }

end Staffing.Tables
