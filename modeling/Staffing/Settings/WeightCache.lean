import Staffing.Calendar.Instant
import Staffing.Settings.ConfigText

/-!
# The weight cache

Operators may change the weights while the program runs. They are read from their source at most
once in a time to live, and in between everyone sees the weights that were read last.

* `Load` — what the source gave
* `WeightCache.current` — the weights now
* `WeightCache.invalidate` — forgets them, so that they are read again
-/

namespace Staffing

/-- What a source of weights gave: weights, nothing because none are configured, or a failure. -/
inductive Load where
  | weights (w : Weights)
  | nothing
  | failed
  deriving Inhabited

namespace Load

/-- The weights to use; without any, the fallback. -/
def weightsOr (fallback : Weights) : Load → Weights
  | weights w => w
  | nothing | failed => fallback

/-- What a stored text gives. -/
def ofSetting : Option String → Load
  | none => nothing
  | some s =>
    match Factors.ofText? s with
    | some w => weights w
    | none => failed

end Load

/-- The weights read last and the instant at which they are read again. -/
structure WeightCache where
  kept : Option (Weights × Instant) := none
  deriving Inhabited

namespace WeightCache

/-- The weights that may still be used at `now`. -/
def valid? (c : WeightCache) (now : Instant) : Option Weights :=
  match c.kept with
  | some (w, expiry) => if now < expiry then some w else none
  | none => none

/-- The weights at `now`, and the cache afterwards. `load` is what the source gives if it is asked;
it is asked only when there are no valid weights. -/
def current (c : WeightCache) (ttl : Int) (fallback : Weights) (load : Load) (now : Instant) :
    Weights × WeightCache :=
  match c.valid? now with
  | some w => (w, c)
  | none =>
    let w := load.weightsOr fallback
    (w, ⟨some (w, now + ttl)⟩)

/-- Forgets the weights. -/
def invalidate (_ : WeightCache) : WeightCache := ⟨none⟩

end WeightCache

end Staffing
