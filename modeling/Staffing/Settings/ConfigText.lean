import Staffing.Json.Reader
import Staffing.Json.Shape
import Staffing.Settings.Config

/-!
# Configuration as text

The configuration is read from a JSON text whose every field may be missing.

* `Config.ofText` — the configuration of a text, or what is wrong with it
* `Factors.ofText?` — weights that stand alone
-/

namespace Staffing

/-- The fields of a set of weights; a missing one keeps the standard weight. -/
def Factors.fields : List (Json.Field Factors) := [
  .defaulted "distance" Json.float? fun x w => { w with distance := x },
  .defaulted "rating" Json.float? fun x w => { w with rating := x },
  .defaulted "reliability" Json.float? fun x w => { w with reliability := x },
  .defaulted "experience" Json.float? fun x w => { w with experience := x },
  .defaulted "eco" Json.float? fun x w => { w with eco := x },
  .defaulted "availability" Json.float? fun x w => { w with availability := x },
  .defaulted "loyalty" Json.float? fun x w => { w with loyalty := x }]

/-- Weights from a JSON value. -/
def Factors.ofJson? (v : Json) : Option Weights := v.fill? fields .standard

/-- Weights from a JSON text. -/
def Factors.ofText? (s : String) : Option Weights := do ofJson? (← Json.parse? s)

namespace ScoringConfig

/-- The fields of the scoring part. -/
def fields : List (Json.Field ScoringConfig) := [
  .defaulted "weights" Factors.ofJson? fun x c => { c with weights := x },
  .defaulted "max_distance_km" Json.float? fun x c => { c with maxDistance := x },
  .defaulted "team_bonus_large" Json.float? fun x c => { c with teamBonusLarge := x },
  .defaulted "team_bonus_pair" Json.float? fun x c => { c with teamBonusPair := x },
  .defaulted "weights_cache_ttl_secs" Json.int64? fun x c => { c with weightsTtl := x },
  .defaulted "experience_saturation" Json.nat32? fun x c => { c with experienceSaturation := x },
  .defaulted "reliability_window_days" Json.int64? fun x c => { c with reliabilityDays := x }]

end ScoringConfig

/-- The fields of the lock part. -/
def LockConfig.fields : List (Json.Field LockConfig) := [
  .defaulted "default_ttl_minutes" Json.int64? fun x c => { c with defaultTtl := x },
  .defaulted "min_ttl_minutes" Json.int64? fun x c => { c with minTtl := x }]

/-- The fields of the scheduler part. -/
def SweepConfig.fields : List (Json.Field SweepConfig) := [
  .defaulted "max_retries" Json.nat32? fun x c => { c with maxRetries := x },
  .defaulted "stale_after_minutes" Json.int64? fun x c => { c with staleAfter := x },
  .defaulted "expired_lock_batch" Json.nat32? fun x c => { c with lockBatch := x },
  .defaulted "interval_secs" Json.nat64? fun x c => { c with interval := x }]

/-- The fields of the pricing part. -/
def RateCard.fields : List (Json.Field RateCard) := [
  .defaulted "base_hourly" Json.float? fun x c => { c with baseHourly := x },
  .defaulted "per_m2_hourly" Json.float? fun x c => { c with perSquareMetreHourly := x },
  .defaulted "eco_multiplier" Json.float? fun x c => { c with ecoMultiplier := x }]

namespace Config

/-- The field of the availability part, which is a structure of its own. -/
def bufferFields : List (Json.Field Int) := [
  .defaulted "buffer_minutes" Json.int64? fun x _ => x]

/-- The parts of the configuration. -/
def fields : List (Json.Field Config) := [
  .defaulted "scoring" (Json.fill? ScoringConfig.fields {}) fun x c => { c with scoring := x },
  .defaulted "availability" (Json.fill? bufferFields 60) fun x c => { c with bufferMinutes := x },
  .defaulted "locks" (Json.fill? LockConfig.fields {}) fun x c => { c with locks := x },
  .defaulted "scheduler" (Json.fill? SweepConfig.fields {}) fun x c => { c with sweeps := x },
  .defaulted "pricing" (Json.fill? RateCard.fields {}) fun x c => { c with rates := x }]

/-- What can be wrong with the configuration file of a directory. -/
inductive Defect where
  | unreadable
  | malformed
  | minTtl
  | maxDistance
  deriving DecidableEq, Repr

/-- What is wrong with the file at `path`. -/
def Defect.message (path : String) : Defect → String
  | unreadable => "Cannot read " ++ path
  | malformed => "Cannot parse " ++ path
  | minTtl => path ++ ": locks.min_ttl_minutes must be at least 1"
  | maxDistance => path ++ ": scoring.max_distance_km must be positive"

/-- The configuration of a text; `none` stands for a file that cannot be read. -/
def ofText (content : Option String) : Except Defect Config :=
  match content with
  | none => .error .unreadable
  | some s =>
    match (do Json.fill? fields {} (← Json.parse? s) : Option Config) with
    | none => .error .malformed
    | some c =>
      if c.locks.minTtl < 1 then .error .minTtl
      else if c.scoring.maxDistance ≤ 0 then .error .maxDistance
      else .ok c

end Config

end Staffing
