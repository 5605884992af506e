import Staffing.Roster.Place

/-!
# Letter case in the names of places

Areas are compared in full Unicode lower case, service zones with the letters `A` to `Z` alone in
lower case. Two names of a city that differ in nothing but letter case and outer white space are
therefore one for areas, but may be two for zones: a provider who serves `MÜNCHEN` is at distance 0
of `MÜNCHEN` and far from `münchen`.

* `Text.lower_asciiLower`, `Text.lower_eq_empty` — ASCII letter case does not outlast lower-casing,
  and only the empty text becomes empty
* `Provider.namesZone`, `Provider.areaDistance`, `Provider.distanceTo_some` — the distance, zones
  first and areas after them
* `same_distance_iff` — when two names of a city give the same distance
* `not_same_distance` — two names in different letter case that do not
-/

namespace Staffing

/-! ## Letter case -/

namespace Text

/-- A character that has an ASCII lower-case form of its own is one of `A` to `Z`. -/
theorem toLower_eq_or_upper (c : Char) :
    c.toLower = c ∨ ∃ n < 26, Char.ofNat (65 + n) = c := by
  by_cases upper : 65 ≤ c.toNat ∧ c.toNat ≤ 90
  · refine .inr ⟨c.toNat - 65, by omega, ?_⟩
    rw [show 65 + (c.toNat - 65) = c.toNat by omega, Char.ofNat_toNat]
  · refine .inl ?_
    unfold Char.toLower
    exact dif_neg upper

/-- What does not tell `A` to `Z` from `a` to `z` does not see ASCII letter case. -/
theorem apply_toLower {α : Type} {f : Char → α}
    (h : ∀ n < 26, f (Char.ofNat (65 + n)).toLower = f (Char.ofNat (65 + n))) (c : Char) :
    f c.toLower = f c := by
  rcases toLower_eq_or_upper c with same | ⟨n, hn, rfl⟩
  · rw [same]
  · exact h n hn

theorem lowerChar_toLower (c : Char) : lowerChar c.toLower = lowerChar c :=
  apply_toLower (by decide +kernel) c

theorem inRanges_casedRanges_toLower (c : Char) :
    inRanges casedRanges c.toLower = inRanges casedRanges c :=
  apply_toLower (by decide +kernel) c

theorem inRanges_caseIgnorableRanges_toLower (c : Char) :
    inRanges caseIgnorableRanges c.toLower = inRanges caseIgnorableRanges c :=
  apply_toLower (by decide +kernel) c

theorem toLower_eq_sigma (c : Char) : (c.toLower = 'Σ') = (c = 'Σ') :=
  apply_toLower (f := fun c => c = 'Σ') (by decide +kernel) c

theorem startsCased_map_toLower (cs : List Char) :
    startsCased (cs.map Char.toLower) = startsCased cs := by
  have ignorable : inRanges caseIgnorableRanges ∘ Char.toLower = inRanges caseIgnorableRanges :=
    funext inRanges_caseIgnorableRanges_toLower
  unfold startsCased
  rw [List.dropWhile_map, ignorable]
  cases cs.dropWhile (inRanges caseIgnorableRanges) with
  | nil => rfl
  | cons c rest => exact inRanges_casedRanges_toLower c

/-- Lower-casing does not see ASCII letter case, not even around a sigma. -/
theorem lowerFrom_map_toLower (before cs : List Char) :
    lowerFrom (before.map Char.toLower) (cs.map Char.toLower) = lowerFrom before cs := by
  induction cs generalizing before with
  | nil => rfl
  | cons c rest ih =>
    have later := ih (c :: before)
    rw [List.map_cons] at later
    simp only [List.map_cons, lowerFrom, later, toLower_eq_sigma, lowerChar_toLower,
      startsCased_map_toLower]

theorem lower_asciiLower (s : String) : lower (asciiLower s) = lower s := by
  unfold lower asciiLower
  rw [String.toList_ofList]
  exact congrArg String.ofList (lowerFrom_map_toLower [] s.toList)

theorem lowerChar_ne_nil (c : Char) : lowerChar c ≠ [] := by
  unfold lowerChar
  split
  · simp
  · split
    · simp
    · split <;> simp

theorem lowerFrom_eq_nil {before cs : List Char} : lowerFrom before cs = [] ↔ cs = [] := by
  cases cs with
  | nil => simp [lowerFrom]
  | cons c rest =>
    simp only [lowerFrom, List.append_eq_nil_iff, reduceCtorEq, iff_false, not_and]
    intro none
    split at none
    · split at none <;> cases none
    · exact absurd none (lowerChar_ne_nil c)

theorem lower_eq_empty {s : String} : lower s = "" ↔ s = "" := by
  rw [← String.toList_eq_nil_iff, ← String.toList_eq_nil_iff, lower, String.toList_ofList]
  exact lowerFrom_eq_nil

end Text

/-! ## Zones and areas -/

variable {c d zone : String}

theorem samePlace_iff : samePlace c d = true ↔
    Text.asciiLower (Text.trim c) = Text.asciiLower (Text.trim d) := by
  unfold samePlace
  exact beq_iff_eq

/-- Places that are the same for zones are the same in Unicode lower case. -/
theorem lower_trim_of_samePlace (same : samePlace c d = true) :
    Text.lower (Text.trim c) = Text.lower (Text.trim d) := by
  rw [← Text.lower_asciiLower (Text.trim c), samePlace_iff.mp same, Text.lower_asciiLower]

/-- A name is blank in whatever letter case it is written. -/
theorem isEmpty_trim_eq (same : Text.lower (Text.trim c) = Text.lower (Text.trim d)) :
    (Text.trim c).isEmpty = (Text.trim d).isEmpty := by
  rw [Bool.eq_iff_iff, String.isEmpty_iff, String.isEmpty_iff, ← Text.lower_eq_empty, same,
    Text.lower_eq_empty]

namespace Provider

variable {p : Provider} {postalCode : Option String} {furthest : Float}

/-- Is the place, a city or a postal code, one of the provider's service zones? -/
def namesZone (p : Provider) (place : String) : Bool := p.serviceZones.any (samePlace · place)

/-- The distance to a city that is not in a service zone. -/
def areaDistance (p : Provider) (city : String) (furthest : Float) : Float :=
  if p.areas.any (areaMatches · city) then furthest / 2 else furthest

theorem distanceTo_blank (blank : (Text.trim c).isEmpty = true) :
    p.distanceTo (some c) postalCode furthest = 0 := by
  unfold distanceTo
  rw [Option.filter_some, blank]
  rfl

/-- Zones that name the city or the postal code come first, areas after them. -/
theorem distanceTo_some (named : (Text.trim c).isEmpty = false) :
    p.distanceTo (some c) postalCode furthest
      = if p.namesZone c || postalCode.any p.namesZone then 0 else p.areaDistance c furthest := by
  have zoneHit :
      (p.serviceZones.any fun zone => samePlace zone c || postalCode.any (samePlace zone))
        = (p.namesZone c || postalCode.any p.namesZone) := by
    rw [Bool.eq_iff_iff]
    cases postalCode <;> simp [namesZone, ← exists_or, and_or_left]
  unfold distanceTo areaDistance
  rw [Option.filter_some, named]
  show (if (p.serviceZones.any _) = true then _ else _) = _
  rw [zoneHit]

/-- Areas do not see the letter case of a city. -/
theorem areaDistance_congr (same : Text.lower (Text.trim c) = Text.lower (Text.trim d)) :
    p.areaDistance c furthest = p.areaDistance d furthest := by
  unfold areaDistance areaMatches
  rw [same]

/-- Zones do not see ASCII letter case. -/
theorem namesZone_congr (same : samePlace c d = true) : p.namesZone c = p.namesZone d := by
  unfold namesZone samePlace
  rw [samePlace_iff.mp same]

/-- Two names of a city that differ in nothing but letter case and outer white space give the same
distance if the zones name both or neither, if they name the postal code, or if the areas put the
provider at distance 0 anyway. -/
theorem distanceTo_eq_iff (same : Text.lower (Text.trim c) = Text.lower (Text.trim d)) :
    p.distanceTo (some c) postalCode furthest = p.distanceTo (some d) postalCode furthest ↔
      p.namesZone c = p.namesZone d ∨ postalCode.any p.namesZone = true ∨
        p.areaDistance c furthest = 0 := by
  cases blank : (Text.trim c).isEmpty with
  | true =>
    have blank' := (isEmpty_trim_eq same).symm.trans blank
    have zones : p.namesZone c = p.namesZone d := by
      refine namesZone_congr (samePlace_iff.mpr ?_)
      rw [String.isEmpty_iff.mp blank, String.isEmpty_iff.mp blank']
    rw [distanceTo_blank blank, distanceTo_blank blank']
    exact iff_of_true rfl (.inl zones)
  | false =>
    have named := (isEmpty_trim_eq same).symm.trans blank
    rw [distanceTo_some blank, distanceTo_some named, areaDistance_congr same]
    cases p.namesZone c <;> cases p.namesZone d <;> cases postalCode.any p.namesZone <;>
      simp [eq_comm]

end Provider

/-! ## Names that no distance tells apart -/

/-- Someone who serves these zones and no areas. -/
def Sample.inZones (zones : List String) : Provider :=
  { (default : Provider) with serviceZones := zones, areas := [] }

theorem Sample.distanceTo_inZones (zones : List String) (city : String) :
    (inZones zones).distanceTo (some city) none 1 = 0 ↔
      (Text.trim city).isEmpty = true ∨ ∃ zone ∈ zones, samePlace zone city = true := by
  cases blank : (Text.trim city).isEmpty with
  | true => simp [Provider.distanceTo_blank blank]
  | false =>
    have far : (inZones zones).areaDistance city 1 = 1 := rfl
    have apart : (1 : Float) ≠ 0 := by decide
    rw [Provider.distanceTo_some blank, far]
    simp [Provider.namesZone, inZones, apart]

/-- Two names that give every provider the same distance are one for zones. -/
theorem samePlace_of_same_distance (same : ∀ (p : Provider) (postalCode : Option String)
      (furthest : Float),
      p.distanceTo (some c) postalCode furthest = p.distanceTo (some d) postalCode furthest) :
    samePlace c d = true := by
  have blank_iff : (Text.trim c).isEmpty = true ↔ (Text.trim d).isEmpty = true := by
    have nowhere := Sample.distanceTo_inZones []
    simp only [List.not_mem_nil, false_and, exists_false, or_false] at nowhere
    rw [← nowhere, ← nowhere, same]
  by_cases blank : (Text.trim c).isEmpty = true
  · have blank' := blank_iff.mp blank
    rw [samePlace_iff, String.isEmpty_iff.mp blank, String.isEmpty_iff.mp blank']
  · -- Someone whose only zone is the one name is at distance 0 of the other, too.
    have here : (Sample.inZones [c]).distanceTo (some c) none 1 = 0 :=
      (Sample.distanceTo_inZones [c] c).mpr
        (.inr ⟨c, List.mem_singleton_self c, samePlace_iff.mpr rfl⟩)
    rw [same] at here
    rcases (Sample.distanceTo_inZones [c] d).mp here with blank' | ⟨zone, hzone, hit⟩
    · exact absurd (blank_iff.mpr blank') blank
    · rw [List.mem_singleton.mp hzone] at hit
      exact hit

/-- **When two names of a city give the same distance.** They do so for every provider, postal code
and greatest distance if they differ in nothing but outer white space and the case of the letters
`A` to `Z`, and only then. Where they differ in the case of any letters, a provider may tell them
apart by the service zones: the distance is the same if these name both or neither, if they name
the postal code, or if the areas, which see no letter case, put the provider at distance 0. -/
theorem same_distance_iff (c d : String) :
    ((∀ (p : Provider) (postalCode : Option String) (furthest : Float),
        p.distanceTo (some c) postalCode furthest = p.distanceTo (some d) postalCode furthest) ↔
      Text.asciiLower (Text.trim c) = Text.asciiLower (Text.trim d)) ∧
    (Text.lower (Text.trim c) = Text.lower (Text.trim d) →
      ∀ (p : Provider) (postalCode : Option String) (furthest : Float),
        p.distanceTo (some c) postalCode furthest = p.distanceTo (some d) postalCode furthest ↔
          p.namesZone c = p.namesZone d ∨ postalCode.any p.namesZone = true ∨
            p.areaDistance c furthest = 0) := by
  refine ⟨?_, fun same p postalCode furthest => Provider.distanceTo_eq_iff same⟩
  rw [← samePlace_iff]
  refine ⟨samePlace_of_same_distance, fun same p postalCode furthest => ?_⟩
  rw [Provider.distanceTo_eq_iff (lower_trim_of_samePlace same)]
  exact .inl (Provider.namesZone_congr same)

/-- Someone who serves one postal code of a city, and an area around it. -/
def Sample.aroundMunich : Provider :=
  { (default : Provider) with serviceZones := ["80331"], areas := ["Großraum München"] }

/-- Neither name is a zone, and the area sees no letter case. -/
theorem same_distance_iff_aroundMunich :
    Text.lower (Text.trim "MÜNCHEN ") = Text.lower (Text.trim "münchen") ∧
    Sample.aroundMunich.distanceTo (some "MÜNCHEN ") none 20
      = Sample.aroundMunich.distanceTo (some "münchen") none 20 := by
  have same : Text.lower (Text.trim "MÜNCHEN ") = Text.lower (Text.trim "münchen") := by
    decide +kernel
  exact ⟨same, ((same_distance_iff "MÜNCHEN " "münchen").2 same Sample.aroundMunich none 20).mpr
    (.inl (by decide +kernel))⟩

/-- The zone `MÜNCHEN` is the city `MÜNCHEN`, but not `münchen`: only the letters `A` to `Z` of
zones are read in lower case. -/
theorem not_same_distance : ¬ ∀ (p : Provider) (postalCode : Option String) (furthest : Float)
    (c d : String), Text.lower (Text.trim c) = Text.lower (Text.trim d) →
    p.distanceTo (some c) postalCode furthest = p.distanceTo (some d) postalCode furthest := by
  intro allSame
  have same := allSame (Sample.inZones ["MÜNCHEN"]) none 1 "MÜNCHEN" "münchen" (by decide +kernel)
  have here : (Sample.inZones ["MÜNCHEN"]).distanceTo (some "MÜNCHEN") none 1 = 0 :=
    (Sample.distanceTo_inZones ["MÜNCHEN"] "MÜNCHEN").mpr (.inr (by decide +kernel))
  rw [same, Sample.distanceTo_inZones] at here
  revert here
  decide +kernel

end Staffing
