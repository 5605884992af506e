import Staffing.Number.Shortest
import Staffing.Settings.Config

/-!
# Prices

The most that a job may cost, estimated from a rate card: an hourly rate that grows with the
surface, times the hours, with a surcharge for eco jobs.

* `RateCard.ceiling` — the estimate, refused for a job without a length
-/

namespace Staffing

/-- The job has no positive, finite length in hours. -/
structure BadDuration where
  hours : Float

/-- What is wrong with the length. -/
def BadDuration.message (d : BadDuration) : String :=
  "duration must be positive, got " ++ Decimal.plainText d.hours

/-- The most that a job may cost. -/
def RateCard.ceiling (r : RateCard) (surface : Option Float) (hours : Float) (eco : Bool) :
    Except BadDuration Float :=
  if !hours.isFinite || hours ≤ 0 then .error ⟨hours⟩
  else
    let hourly := r.baseHourly + r.perSquareMetreHourly * surface.getD 0
    let plain := hourly * hours
    .ok (if eco then plain * r.ecoMultiplier else plain)

end Staffing
