/-!
# The seven factors of a score

A provider is scored by seven factors. One structure holds a number for each of them, be it a
weight or a component of a score.

* `Factors.default` — the weights that are used when nothing else is configured
* `Factors.normalized` — weights that add up to 1
* `Factors.dot` — components, each times its weight
-/

namespace Staffing

/-- A number for each factor of a score. -/
structure Factors where
  distance : Float
  rating : Float
  reliability : Float
  experience : Float
  eco : Float
  availability : Float
  loyalty : Float
  deriving Repr

/-- How much each factor counts. -/
abbrev Weights := Factors

namespace Factors

/-- The weights that are used when nothing else is configured. -/
def standard : Weights where
  distance := 0.20
  rating := 0.20
  reliability := 0.15
  experience := 0.10
  eco := 0.15
  availability := 0.15
  loyalty := 0.05

instance : Inhabited Factors := ⟨standard⟩

/-- Each number through `f`. -/
def map (f : Float → Float) (w : Factors) : Factors where
  distance := f w.distance
  rating := f w.rating
  reliability := f w.reliability
  experience := f w.experience
  eco := f w.eco
  availability := f w.availability
  loyalty := f w.loyalty

/-- All numbers added up, in the order of the fields. -/
def sum (w : Factors) : Float :=
  w.distance + w.rating + w.reliability + w.experience + w.eco + w.availability + w.loyalty

/-- A weight that counts: a negative one, an infinite one and not-a-number count as 0. -/
def usable (x : Float) : Float := if x.isFinite && x > 0 then x else 0

/-- The weights that count; eco counts only where it is required. -/
def effective (w : Weights) (ecoRequired : Bool) : Weights :=
  let w := w.map usable
  if ecoRequired then w else { w with eco := 0 }

/-- The least distance between 1 and a greater float. -/
def epsilon : Float := 2.220446049250313e-16

/-- The effective weights, scaled to add up to 1. When all of them are as good as 0, the standard
weights take their place. -/
def normalized (w : Weights) (ecoRequired : Bool) : Weights :=
  let given := w.effective ecoRequired
  let chosen := if given.sum ≤ epsilon then standard.effective ecoRequired else given
  let total := chosen.sum
  chosen.map (· / total)

/-- Each component times its weight, added up in the order of the fields. -/
def dot (c : Factors) (w : Weights) : Float :=
  c.distance * w.distance + c.rating * w.rating + c.reliability * w.reliability
    + c.experience * w.experience + c.eco * w.eco + c.availability * w.availability
    + c.loyalty * w.loyalty

end Factors

end Staffing
