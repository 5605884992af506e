import Staffing.Proofs.Run
import Mathlib.Data.List.Perm.Basic

/-!
# The order of a ranking

The order of rows ends with the provider's id, so rows of different providers never stand level and
there is one way to sort them. A ranking therefore depends on who the candidates are, not on how
they were listed, and each pair of candidates stands the same way in every ranking of both.

* `Scored.sort_pairwise`, `Scored.sort_unique` — the sorted rows rise, and nothing else does
* `Candidate.isEligible` — who gets a row
* `rank_providerIds`, `rank_rows`, `rank_part` — who stands in a ranking, with what, and in which
  order
* `rank_canonical` — the ranking of candidates, and of some of them
-/

namespace Staffing

/-! ## The order of rows -/

namespace Scored

variable {a b : Scored} {rows rows' : List Scored}

instance : Std.TransCmp compare := by
  unfold compare
  infer_instance

/-- Only rows of the same provider stand level. -/
theorem providerId_eq_of_compare (h : compare a b = .eq) : a.providerId = b.providerId := by
  unfold compare at h
  simp only [compareLex_eq_eq] at h
  obtain ⟨-, -, -, -, -, -, ids⟩ := h
  exact Std.LawfulEqCmp.eq_of_compare ids

theorem lt_of_precedes (h : precedes a b = true) (other : a.providerId ≠ b.providerId) :
    compare a b = .lt := by
  unfold precedes at h
  cases order : compare a b with
  | lt => rfl
  | eq => exact absurd (providerId_eq_of_compare order) other
  | gt => rw [order] at h; cases h

theorem sort_perm (rows : List Scored) : (sort rows).Perm rows :=
  List.mergeSort_perm rows precedes

/-- Rows of different providers rise when they are sorted. -/
theorem sort_pairwise (distinct : (rows.map (·.providerId)).Nodup) :
    (sort rows).Pairwise fun a b => compare a b = .lt := by
  have sorted : (sort rows).Pairwise fun a b => precedes a b = true := by
    refine List.pairwise_mergeSort (fun a b c => Std.TransCmp.isLE_trans) (fun a b => ?_) rows
    have swap : compare b a = (compare a b).swap := Std.OrientedCmp.eq_swap
    unfold precedes
    rw [swap]
    cases compare a b <;> rfl
  have others : (sort rows).Pairwise fun a b => a.providerId ≠ b.providerId :=
    List.pairwise_map.mp (((sort_perm rows).map _).nodup_iff.mpr distinct)
  exact (sorted.and others).imp fun both => lt_of_precedes both.1 both.2

/-- Two lists of the same rows that both rise are the same. -/
theorem eq_of_rising (same : rows.Perm rows') (h : rows.Pairwise fun a b => compare a b = .lt)
    (h' : rows'.Pairwise fun a b => compare a b = .lt) : rows = rows' := by
  refine same.eq_of_pairwise (fun a b _ _ below above => ?_) h h'
  have swap : compare a b = (compare b a).swap := Std.OrientedCmp.eq_swap
  rw [swap, above] at below
  cases below

/-- There is one way to sort rows of different providers. -/
theorem sort_unique (distinct : (rows.map (·.providerId)).Nodup) (same : rows'.Perm rows)
    (h : rows'.Pairwise fun a b => compare a b = .lt) : rows' = sort rows :=
  eq_of_rising (same.trans (sort_perm rows).symm) h (sort_pairwise distinct)

end Scored

/-! ## Numbering -/

/-- The row without its number. -/
def Scored.unnumbered (row : Scored) : Scored := { row with rank := 0 }

theorem numbered_ranks (rows : List Scored) :
    (numbered rows).map (·.rank) = List.range' 1 rows.length := by
  refine List.ext_getElem ?_ fun i _ _ => ?_
  · simp [numbered]
  · simp [numbered, Nat.add_comm]

theorem unnumbered_mem {row : Scored} {rows : List Scored} (h : row ∈ numbered rows) :
    ∃ row' ∈ rows, row'.unnumbered = row.unnumbered := by
  have mem := List.mem_map_of_mem (f := Scored.unnumbered) h
  rwa [numbered_map (fun _ _ => rfl), List.mem_map] at mem

/-- Numbers do not change how rows stand. -/
theorem numbered_pairwise {rows : List Scored} (h : rows.Pairwise fun a b => a.compare b = .lt) :
    (numbered rows).Pairwise fun a b => a.compare b = .lt := by
  have same := numbered_map (f := Scored.unnumbered) (fun _ _ => rfl) rows
  have unnumbered : (rows.map Scored.unnumbered).Pairwise fun a b => a.compare b = .lt :=
    List.pairwise_map.mpr h
  rw [← same] at unnumbered
  exact List.pairwise_map.mp unnumbered

theorem numbered_unnumbered (rows : List Scored) :
    numbered (rows.map Scored.unnumbered) = numbered rows := by
  refine List.ext_getElem ?_ fun i _ _ => ?_
  · simp [numbered]
  · simp [numbered, Scored.unnumbered]

/-- Numbering rows anew after some have been left out. -/
theorem numbered_filter {p : Scored → Bool} (blind : ∀ row n, p { row with rank := n } = p row)
    (rows : List Scored) : numbered ((numbered rows).filter p) = numbered (rows.filter p) := by
  have left (rows : List Scored) :
      (rows.filter p).map Scored.unnumbered = (rows.map Scored.unnumbered).filter p := by
    rw [List.filter_map]
    exact congrArg (fun q => (rows.filter q).map Scored.unnumbered) (funext fun row =>
      (blind row 0).symm)
  rw [← numbered_unnumbered, left, numbered_map (fun _ _ => rfl), ← left, numbered_unnumbered]

/-! ## Who gets a row -/

section Rows

variable {candidates part : List Candidate} {criteria : Criteria} {weights : Weights}
  {config : ScoringConfig}

/-- Is the candidate available, and eco-friendly where that is required? -/
def Candidate.isEligible (c : Candidate) (criteria : Criteria) : Bool :=
  c.tier.isAvailable && (!criteria.ecoRequired || c.provider.ecoFriendly)

theorem Tier.value_le_zero_iff {tier : Tier} : tier.value ≤ 0 ↔ tier.isAvailable = false := by
  cases tier <;> decide +kernel

theorem Candidate.scored?_isSome (c : Candidate) (criteria : Criteria) (weights : Weights)
    (config : ScoringConfig) :
    (c.scored? criteria weights config).isSome = c.isEligible criteria := by
  have eco : (c.components criteria config).eco ≤ 0
      ↔ criteria.ecoRequired = true ∧ c.provider.ecoFriendly = false := by
    change (if !criteria.ecoRequired || c.provider.ecoFriendly then (1 : Float) else 0) ≤ 0 ↔ _
    cases criteria.ecoRequired <;> cases c.provider.ecoFriendly <;> decide +kernel
  have available : (c.components criteria config).availability ≤ 0 ↔ c.tier.isAvailable = false :=
    Tier.value_le_zero_iff
  unfold Candidate.scored? Candidate.isEligible
  simp only [available, eco]
  cases c.tier.isAvailable <;> cases criteria.ecoRequired <;> cases c.provider.ecoFriendly <;> rfl

theorem Candidate.scored?_unnumbered {c : Candidate} {row : Scored}
    (h : c.scored? criteria weights config = some row) : row.unnumbered = row := by
  unfold Candidate.scored? at h
  dsimp only at h
  split at h
  · cases h
  · rw [← Option.some.inj h]
    rfl

theorem Candidate.scored?_tier {c : Candidate} {row : Scored}
    (h : c.scored? criteria weights config = some row) : row.tier = c.tier := by
  unfold Candidate.scored? at h
  dsimp only at h
  split at h
  · cases h
  · rw [← Option.some.inj h]

theorem scored_nodup (distinct : (candidates.map (·.provider.id)).Nodup) :
    ((candidates.filterMap (·.scored? criteria weights config)).map (·.providerId)).Nodup :=
  distinct.sublist (scored_sublist candidates criteria weights config)

theorem part_nodup (distinct : (candidates.map (·.provider.id)).Nodup)
    (within : part.Subperm candidates) : (part.map (·.provider.id)).Nodup := by
  obtain ⟨listed, same, below⟩ := within
  exact (same.map _).nodup_iff.mp (distinct.sublist (below.map _))

/-- The providers who get a row, in the order of the candidates. -/
theorem scored_providerIds (candidates : List Candidate) (criteria : Criteria) (weights : Weights)
    (config : ScoringConfig) :
    (candidates.filterMap (·.scored? criteria weights config)).map (·.providerId)
      = (candidates.filter (·.isEligible criteria)).map (·.provider.id) := by
  induction candidates with
  | nil => rfl
  | cons c rest ih =>
    have eligible := c.scored?_isSome criteria weights config
    cases scored : c.scored? criteria weights config with
    | none =>
      rw [scored] at eligible
      rw [List.filterMap_cons, scored, List.filter_cons_of_neg (by simp [← eligible])]
      exact ih
    | some row =>
      rw [scored] at eligible
      rw [List.filterMap_cons, scored, List.filter_cons_of_pos (by simp [← eligible]),
        List.map_cons, List.map_cons, Candidate.scored?_providerId scored]
      exact congrArg _ ih

theorem scored_length (candidates : List Candidate) (criteria : Criteria) (weights : Weights)
    (config : ScoringConfig) :
    (candidates.filterMap (·.scored? criteria weights config)).length
      = candidates.countP (·.isEligible criteria) := by
  have same := congrArg List.length (scored_providerIds candidates criteria weights config)
  rwa [List.length_map, List.length_map, ← List.countP_eq_length_filter] at same

/-- The rows of some of the candidates are those of all that name one of them. -/
theorem scored_perm (distinct : (candidates.map (·.provider.id)).Nodup)
    (within : part.Subperm candidates) :
    (part.filterMap (·.scored? criteria weights config)).Perm
      ((candidates.filterMap (·.scored? criteria weights config)).filter fun row =>
        row.providerId ∈ part.map (·.provider.id)) := by
  refine (List.perm_ext_iff_of_nodup
    (List.Nodup.of_map _ (scored_nodup (part_nodup distinct within)))
    ((List.Nodup.of_map _ (scored_nodup distinct)).filter _)).mpr fun row => ?_
  rw [List.mem_filter, List.mem_filterMap, List.mem_filterMap, decide_eq_true_eq]
  constructor
  · rintro ⟨c, hc, scored⟩
    rw [Candidate.scored?_providerId scored]
    exact ⟨⟨c, within.subset hc, scored⟩, List.mem_map_of_mem hc⟩
  · rintro ⟨⟨c, hc, scored⟩, named⟩
    obtain ⟨c', hc', same⟩ := List.mem_map.mp named
    rw [Candidate.scored?_providerId scored] at same
    obtain rfl := List.inj_on_of_nodup_map distinct (within.subset hc') hc same
    exact ⟨c', hc', scored⟩

end Rows

/-! ## The ranking -/

/-- Who stands in a ranking. -/
theorem rank_providerIds (candidates : List Candidate) (criteria : Criteria) (weights : Weights)
    (config : ScoringConfig) :
    ((rank candidates criteria weights config).map (·.providerId)).Perm
      ((candidates.filter (·.isEligible criteria)).map (·.provider.id)) := by
  unfold rank
  rw [numbered_map fun _ _ => rfl, ← scored_providerIds candidates criteria weights config]
  exact (Scored.sort_perm _).map _

/-- Each row of a ranking is a candidate's, but for the number. -/
theorem rank_rows {candidates : List Candidate} {criteria : Criteria} {weights : Weights}
    {config : ScoringConfig} {row : Scored} (h : row ∈ rank candidates criteria weights config) :
    ∃ c ∈ candidates, c.scored? criteria weights config = some row.unnumbered := by
  obtain ⟨row', hrow', same⟩ := unnumbered_mem h
  obtain ⟨c, hc, scored⟩ := List.mem_filterMap.mp ((Scored.sort_perm _).subset hrow')
  rw [Candidate.scored?_unnumbered scored] at same
  exact ⟨c, hc, scored.trans (congrArg some same)⟩

/-- Everyone in a ranking is available. -/
theorem rank_available {candidates : List Candidate} {criteria : Criteria} {weights : Weights}
    {config : ScoringConfig} {row : Scored} (h : row ∈ rank candidates criteria weights config) :
    row.tier.isAvailable = true := by
  obtain ⟨c, -, scored⟩ := rank_rows h
  have eligible := c.scored?_isSome criteria weights config
  rw [scored] at eligible
  have same : row.unnumbered.tier = c.tier := Candidate.scored?_tier scored
  change row.tier = c.tier at same
  rw [same]
  exact (Bool.and_eq_true_iff.mp eligible.symm).1

/-- Some of the candidates are ranked as they stand in the ranking of all. -/
theorem rank_part {candidates part : List Candidate}
    (distinct : (candidates.map (·.provider.id)).Nodup) (within : part.Subperm candidates)
    (criteria : Criteria) (weights : Weights) (config : ScoringConfig) :
    rank part criteria weights config
      = numbered ((rank candidates criteria weights config).filter fun row =>
          row.providerId ∈ part.map (·.provider.id)) := by
  unfold rank
  rw [numbered_filter (fun _ _ => rfl)]
  refine congrArg numbered
    (Scored.sort_unique (scored_nodup (part_nodup distinct within)) ?_ ?_).symm
  · exact ((Scored.sort_perm _).filter _).trans (scored_perm distinct within).symm
  · exact (Scored.sort_pairwise (scored_nodup distinct)).filter _

/-- **A ranking is canonical:** for different providers the rows rise strictly, there is one for
each candidate who is available and, where that is required, eco-friendly, and they are numbered
from 1. Some of the candidates, in any order, are ranked as they stand in the ranking of all, with
nothing but the numbers new; so the order of the candidates does not matter. -/
theorem rank_canonical {candidates part : List Candidate}
    (distinct : (candidates.map (·.provider.id)).Nodup) (within : part.Subperm candidates)
    (criteria : Criteria) (weights : Weights) (config : ScoringConfig) :
    ((rank candidates criteria weights config).Pairwise fun a b => a.compare b = .lt) ∧
    ((rank candidates criteria weights config).map (·.providerId)).Perm
      ((candidates.filter (·.isEligible criteria)).map (·.provider.id)) ∧
    (∀ row ∈ rank candidates criteria weights config, ∃ c ∈ candidates,
      c.scored? criteria weights config = some { row with rank := 0 }) ∧
    (rank candidates criteria weights config).map (·.rank)
      = List.range' 1 (candidates.countP (·.isEligible criteria)) ∧
    rank part criteria weights config
      = numbered ((rank candidates criteria weights config).filter fun row =>
          row.providerId ∈ part.map (·.provider.id)) ∧
    (part.Perm candidates →
      rank part criteria weights config = rank candidates criteria weights config) := by
  refine ⟨numbered_pairwise (Scored.sort_pairwise (scored_nodup distinct)),
    rank_providerIds candidates criteria weights config, fun row hrow => rank_rows hrow, ?_,
    rank_part distinct within criteria weights config, fun all => ?_⟩
  · unfold rank
    rw [numbered_ranks, (Scored.sort_perm _).length_eq, scored_length]
  · unfold rank
    exact congrArg numbered (Scored.sort_unique (scored_nodup distinct)
      ((Scored.sort_perm _).trans (all.filterMap _))
      (Scored.sort_pairwise (scored_nodup (part_nodup distinct within))))

namespace Sample

/-- A candidate around the corner who has never been sent. -/
def candidate (id : String) (tier : Tier) (ecoFriendly : Bool) : Candidate where
  provider := { provider id with ecoFriendly }
  tier := tier
  distance := 0
  load := 0
  history := {}

/-- Two who stand level but for their names, one who has no time, one who does not clean green,
and one who is a little late. -/
def pool : List Candidate := [
  candidate "eve" .buffer true, candidate "bob" .exact true, candidate "cid" .unavailable true,
  candidate "dan" .exact false, candidate "ada" .exact true]

/-- Some of them, in another order. -/
def few : List Candidate := [
  candidate "ada" .exact true, candidate "cid" .unavailable true, candidate "eve" .buffer true]

/-- What asks for eco-friendly providers. -/
def green : Criteria := { ecoRequired := true, window := ⟨0, Instant.hour⟩ }

end Sample

theorem rank_canonical_pool :
    (Sample.pool.map (·.provider.id)).Nodup ∧ Sample.few.Subperm Sample.pool ∧
    ((rank Sample.pool Sample.green .standard {}).Pairwise fun a b => a.compare b = .lt) ∧
    ((rank Sample.pool Sample.green .standard {}).map (·.providerId)).Perm ["eve", "bob", "ada"] ∧
    (rank Sample.pool Sample.green .standard {}).map (·.rank) = [1, 2, 3] ∧
    rank Sample.few Sample.green .standard {}
      = numbered ((rank Sample.pool Sample.green .standard {}).filter fun row =>
          row.providerId ∈ ["ada", "cid", "eve"]) := by
  have distinct : (Sample.pool.map (·.provider.id)).Nodup := by decide
  have within : Sample.few.Subperm Sample.pool := by
    refine ⟨[Sample.candidate "eve" .buffer true, Sample.candidate "cid" .unavailable true,
      Sample.candidate "ada" .exact true], List.reverse_perm Sample.few, ?_⟩
    exact ((((List.Sublist.refl _).cons _).cons_cons _).cons _).cons_cons _
  obtain ⟨rising, rows, -, ranks, some, -⟩ :=
    rank_canonical distinct within Sample.green .standard {}
  exact ⟨distinct, within, rising, rows, ranks, some⟩

end Staffing
