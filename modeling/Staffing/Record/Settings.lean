import Staffing.Record.Ranking

/-!
# The configuration as JSON

* `Config.toJson` — the configuration, with every field that a configuration text may have
-/

namespace Staffing

/-- How candidates are scored. -/
def ScoringConfig.toJson (style : Style) (c : ScoringConfig) : Json := .record [
  ("weights", c.weights.toJson style), ("max_distance_km", style.float c.maxDistance),
  ("team_bonus_large", style.float c.teamBonusLarge),
  ("team_bonus_pair", style.float c.teamBonusPair),
  ("weights_cache_ttl_secs", .int c.weightsTtl),
  ("experience_saturation", .ofNat c.experienceSaturation),
  ("reliability_window_days", .int c.reliabilityDays)]

/-- How long locks last. -/
def LockConfig.toJson (c : LockConfig) : Json := .record [
  ("default_ttl_minutes", .int c.defaultTtl), ("min_ttl_minutes", .int c.minTtl)]

/-- How the sweeps run. -/
def SweepConfig.toJson (c : SweepConfig) : Json := .record [
  ("max_retries", .ofNat c.maxRetries), ("stale_after_minutes", .int c.staleAfter),
  ("expired_lock_batch", .ofNat c.lockBatch), ("interval_secs", .ofNat c.interval)]

/-- What a job may cost. -/
def RateCard.toJson (style : Style) (r : RateCard) : Json := .record [
  ("base_hourly", style.float r.baseHourly),
  ("per_m2_hourly", style.float r.perSquareMetreHourly),
  ("eco_multiplier", style.float r.ecoMultiplier)]

/-- The whole configuration. -/
def Config.toJson (style : Style) (c : Config) : Json := .record [
  ("scoring", c.scoring.toJson style),
  ("availability", .record [("buffer_minutes", .int c.bufferMinutes)]),
  ("locks", c.locks.toJson), ("scheduler", c.sweeps.toJson), ("pricing", c.rates.toJson style)]

end Staffing
