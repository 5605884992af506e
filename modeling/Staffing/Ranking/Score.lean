import Staffing.Number.TotalOrder
import Staffing.Ranking.Candidate
import Staffing.Settings.Config

/-!
# Scores

A candidate's score is the sum of seven components, each between 0 and 1, times their weights,
plus a bonus for companies on jobs of more than one. The ranking is by score; ties go to the
better tier, rating, reliability, distance and price, and in the end to the provider's id, so
that no two candidates stand level.

* `Candidate.components` — the seven components
* `teamBonus`, `priceFit` — the bonus, and how far a price stays below its ceiling
* `Scored.compare` — the order
* `rank` — the available candidates in that order, numbered from 1
-/

namespace Staffing

/-- A row of a ranking. -/
structure Scored where
  providerId : String
  kind : ProviderKind
  /-- The place in the ranking, from 1. -/
  rank : Nat
  score : Float
  components : Factors
  teamBonus : Float
  tier : Tier
  distance : Float
  load : Float
  ratingAverage : Float
  estimatedPrice : Float
  priceFit : Float
  /-- Is the price fit undefined, as infinity less infinity is? -/
  fitUndefined : Bool := false
  deriving Inhabited

/-! ## Components -/

/-- The part of the assignments that were not cancelled; 1 when there are none. -/
def History.reliability (h : History) : Float :=
  if h.recentAssignments = 0 then 1
  else unitClamp (1 - Float.ofNat h.recentCancellations / Float.ofNat h.recentAssignments)

/-- The assignments as a part of `saturation`; 1 when that is 0. -/
def History.experience (h : History) (saturation : Nat) : Float :=
  if saturation = 0 then 1 else atMostOne (Float.ofNat h.totalAssignments / Float.ofNat saturation)

/-- 1 close by, 0 at the greatest distance or beyond. -/
def closeness (distance furthest : Float) : Float :=
  unitClamp (if furthest > 0 then 1 - atMostOne (distance / furthest) else 1)

/-- The seven components of a candidate's score. -/
def Candidate.components (c : Candidate) (criteria : Criteria) (config : ScoringConfig) :
    Factors where
  distance := closeness c.distance config.maxDistance
  rating := unitClamp (c.provider.ratingAverage / 5)
  reliability := c.history.reliability
  experience := c.history.experience config.experienceSaturation
  eco := if !criteria.ecoRequired || c.provider.ecoFriendly then 1 else 0
  availability := c.tier.value
  loyalty := if c.history.servedClient then 0.5 else 0

/-- What a company gets on top for a job of more than one. -/
def teamBonus (kind : ProviderKind) (required : Nat) (config : ScoringConfig) : Float :=
  if kind ≠ .company ∨ required ≤ 1 then 0
  else if 3 ≤ required then config.teamBonusLarge
  else config.teamBonusPair

/-- How far a price stays below its ceiling, as a part of the ceiling; 0 without one. -/
def priceFit (ceiling : Option Float) (price : Float) : Float :=
  match ceiling with
  | some c => if c > 0 then unitClamp ((c - price) / c) else 0
  | none => 0

/-! ## Order -/

namespace Scored

/-- The place of the price fit in the total order: an undefined one counts below every number,
whereas a fit that is not a number because the rate is none counts above them. -/
def fitKey (s : Scored) : Int :=
  if s.fitUndefined then -0x7FF8000000000001 else totalKey s.priceFit

/-- Score, tier, rating and reliability falling, distance rising, price fit falling, id rising. -/
def compare : Scored → Scored → Ordering :=
  compareLex (compareOn fun s => -totalKey s.score) <|
  compareLex (compareOn fun s => -(s.tier.level : Int)) <|
  compareLex (compareOn fun s => -totalKey s.ratingAverage) <|
  compareLex (compareOn fun s => -totalKey s.components.reliability) <|
  compareLex (compareOn fun s => totalKey s.distance) <|
  compareLex (compareOn fun s => -s.fitKey) <|
  compareOn fun s => s.providerId

/-- Does `a` come before `b`, or stand level with it? -/
def precedes (a b : Scored) : Bool := (compare a b).isLE

/-- The rows in order; rows that stand level keep theirs. -/
def sort (rows : List Scored) : List Scored := rows.mergeSort precedes

end Scored

/-- The row of a candidate, not yet numbered, unless the candidate is not available or misses an
eco requirement. -/
def Candidate.scored? (c : Candidate) (criteria : Criteria) (weights : Weights)
    (config : ScoringConfig) : Option Scored :=
  let parts := c.components criteria config
  if parts.availability ≤ 0 ∨ (criteria.ecoRequired = true ∧ parts.eco ≤ 0) then none
  else
    let bonus := teamBonus c.provider.kind criteria.requiredMembers config
    let price := c.provider.hourlyRate * criteria.window.hours
    let fit := priceFit criteria.priceCeiling price
    some {
      providerId := c.provider.id
      kind := c.provider.kind
      rank := 0
      score := parts.dot (weights.normalized criteria.ecoRequired) + bonus
      components := parts
      teamBonus := bonus
      tier := c.tier
      distance := c.distance
      load := c.load
      ratingAverage := c.provider.ratingAverage
      estimatedPrice := price
      priceFit := fit
      fitUndefined := fit.isNaN && !c.provider.hourlyRate.isNaN }

/-- Numbers the rows from 1. -/
def numbered (rows : List Scored) : List Scored :=
  rows.mapIdx fun i row => { row with rank := i + 1 }

/-- The available candidates, best first. -/
def rank (candidates : List Candidate) (criteria : Criteria) (weights : Weights)
    (config : ScoringConfig) : List Scored :=
  numbered (Scored.sort (candidates.filterMap (·.scored? criteria weights config)))

end Staffing
