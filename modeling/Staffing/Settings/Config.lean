import Staffing.Settings.Factors

/-!
# Configuration

Every number that an operator can set, with its default.

* `ScoringConfig`, `LockConfig`, `SweepConfig`, `RateCard` — the parts
* `Config` — all of them
-/

namespace Staffing

/-- How candidates are scored. -/
structure ScoringConfig where
  weights : Weights := .standard
  /-- The distance of a provider who does not serve the place at all. -/
  maxDistance : Float := 20.0
  /-- What a company gets on top for a job of three or more. -/
  teamBonusLarge : Float := 0.05
  /-- What a company gets on top for a job of two. -/
  teamBonusPair : Float := 0.02
  /-- How long weights are kept before they are read again, in seconds. -/
  weightsTtl : Int := 60
  /-- The number of assignments that counts as full experience. -/
  experienceSaturation : Nat := 200
  /-- How far back reliability looks, in days. -/
  reliabilityDays : Int := 30
  deriving Inhabited

/-- How long locks last, in minutes. -/
structure LockConfig where
  defaultTtl : Int := 15
  minTtl : Int := 5
  deriving DecidableEq, Repr, Inhabited

/-- How the sweeps run. -/
structure SweepConfig where
  maxRetries : Nat := 3
  /-- A job changed within so many minutes is left alone by the retry sweep. -/
  staleAfter : Int := 5
  /-- How many lapsed locks one run of the expiry sweep releases. -/
  lockBatch : Nat := 25
  /-- Seconds between two cycles. -/
  interval : Nat := 60
  deriving DecidableEq, Repr, Inhabited

/-- What a job may cost. -/
structure RateCard where
  baseHourly : Float := 35.0
  perSquareMetreHourly : Float := 0.05
  ecoMultiplier : Float := 1.15
  deriving Repr, Inhabited

/-- The whole configuration. -/
structure Config where
  scoring : ScoringConfig := {}
  /-- Minutes by which a window may overstep a provider's hours and still be a near match. -/
  bufferMinutes : Int := 60
  locks : LockConfig := {}
  sweeps : SweepConfig := {}
  rates : RateCard := {}
  deriving Inhabited

/-- A lock lasts as long as was asked for, or the default, but never less than the least. -/
def LockConfig.ttl (c : LockConfig) (requested : Option Int) : Int :=
  max (requested.getD c.defaultTtl) c.minTtl

end Staffing
