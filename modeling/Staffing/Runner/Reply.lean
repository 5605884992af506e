import Staffing.Engine.Sweeps
import Staffing.Record.Style

/-!
# Replies

The JSON of what only replies tell: what a sweep did, and why an operation was refused.

* `SweepReport.toJson` — the counts of a sweep
* `refusalJson`, `Fault.toJson` — a refusal
-/

namespace Staffing

/-- What a sweep did. -/
def SweepReport.toJson (r : SweepReport) : Json := .record [
  ("sweep", .text r.sweep), ("examined", .ofNat r.examined), ("succeeded", .ofNat r.succeeded),
  ("failed", .ofNat r.failed)]

/-- A refusal, by its code and its text. -/
def refusalJson (code message : String) : Json :=
  .record [("error", .record [("code", .text code), ("message", .text message)])]

/-- Why an operation was refused. -/
def Fault.toJson (f : Fault) : Json := refusalJson f.code f.message

end Staffing
