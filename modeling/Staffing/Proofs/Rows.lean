import Mathlib
import Staffing.Tables.Basic

/-!
# Rows

What an update of the rows of a table changes. A table has a key, and an update goes to the row of
one key, so it changes one summand of a sum over the table and one answer of a search by key.

* `find?_key_eq_some` — a search by key finds the one row of that key
* `find?_updateWhere` — the rows found after an update
* `sum_updateWhere` — the sum after an update
* `keys_subset` — the keys of the rows of a kind, when none has become one
-/

namespace Staffing

variable {α β : Type}

/-! ## Updates -/

theorem mem_updateWhere {p : α → Bool} {f : α → α} {rows : List α} {r : α} :
    r ∈ updateWhere p f rows ↔ ∃ q ∈ rows, (if p q then f q else q) = r :=
  List.mem_map

/-- A row with what no updated row has is as it was. -/
theorem mem_of_mem_updateWhere {p q : α → Bool} {f : α → α} {rows : List α} {r : α}
    (never : ∀ r, q (f r) = false) (hr : r ∈ updateWhere p f rows) (h : q r = true) : r ∈ rows := by
  obtain ⟨old, hold, rfl⟩ := mem_updateWhere.mp hr
  by_cases hit : p old = true
  · rw [if_pos hit, never] at h
    cases h
  · rw [if_neg hit]
    exact hold

/-- What all rows have they still have after some were changed, if the change keeps it. -/
theorem forall_mem_updateWhere {p : α → Bool} {f : α → α} {P : α → Prop} {rows : List α}
    (h : ∀ r ∈ rows, P r) (keeps : ∀ r ∈ rows, P r → P (f r)) :
    ∀ r ∈ updateWhere p f rows, P r := by
  intro r hr
  obtain ⟨old, hold, rfl⟩ := mem_updateWhere.mp hr
  split
  · exact keeps old hold (h old hold)
  · exact h old hold

/-- An update that leaves a column alone leaves the column's list alone. -/
theorem map_updateWhere {p : α → Bool} {f : α → α} {g : α → β} (h : ∀ r, g (f r) = g r)
    (rows : List α) : (updateWhere p f rows).map g = rows.map g := by
  unfold updateWhere
  rw [List.map_map]
  refine List.map_congr_left fun r _ => ?_
  rw [Function.comp_apply]
  split
  · exact h r
  · rfl

theorem any_updateWhere {p : α → Bool} {f : α → α} {q : α → Bool} (h : ∀ r, q (f r) = q r)
    (rows : List α) : (updateWhere p f rows).any q = rows.any q := by
  have hmap := congrArg (List.any · id) (map_updateWhere (p := p) h rows)
  simpa [List.any_map] using hmap

/-- An update of rows that are not there changes nothing. -/
theorem updateWhere_eq_self {p : α → Bool} {f : α → α} {rows : List α}
    (h : ∀ r ∈ rows, p r = false) : updateWhere p f rows = rows := by
  unfold updateWhere
  refine (List.map_congr_left fun r hr => ?_).trans (List.map_id rows)
  rw [h r hr]
  rfl

/-! ## Searches by key -/

section Key

variable {key : α → String} {rows : List α} {k : String} {r : α}

theorem mem_of_find?_key (h : rows.find? (key · == k) = some r) : r ∈ rows ∧ key r = k :=
  ⟨List.mem_of_find?_eq_some h, by simpa using List.find?_some h⟩

/-- **A search by key finds the one row of that key.** -/
theorem find?_key_eq_some (nodup : (rows.map key).Nodup) :
    rows.find? (key · == k) = some r ↔ r ∈ rows ∧ key r = k := by
  refine ⟨mem_of_find?_key, ?_⟩
  rintro ⟨hr, rfl⟩
  cases found : rows.find? (key · == key r) with
  | none => exact absurd (List.find?_eq_none.mp found r hr) (by simp)
  | some q =>
    obtain ⟨hq, hkey⟩ := mem_of_find?_key found
    rw [List.inj_on_of_nodup_map nodup hq hr hkey]

/-- The row that a search has found is the only one of its key. -/
theorem eq_of_find?_key {q : α} (nodup : (rows.map key).Nodup)
    (found : rows.find? (key · == k) = some r) (hq : q ∈ rows) (own : key q = k) : q = r :=
  Option.some.inj (((find?_key_eq_some nodup).mpr ⟨hq, own⟩).symm.trans found)

theorem find?_key_isSome : (rows.find? (key · == k)).isSome ↔ ∃ r ∈ rows, key r = k := by
  simp [List.find?_isSome]

theorem any_key : rows.any (key · == k) = true ↔ ∃ r ∈ rows, key r = k := by
  simp [List.any_eq_true]

theorem any_key_eq_false : rows.any (key · == k) = false ↔ ∀ r ∈ rows, key r ≠ k := by
  simp [List.any_eq_false]

/-- The rows that are searched for are the one row of its key. -/
theorem filter_eq_singleton {p : α → Bool} (nodup : (rows.map key).Nodup) (hr : r ∈ rows)
    (own : p r = true) (same : ∀ q ∈ rows, p q = true → key q = key r) : rows.filter p = [r] := by
  refine List.perm_singleton.mp ((List.perm_ext_iff_of_nodup (nodup.of_map.filter p)
    (List.nodup_singleton r)).mpr fun q => ?_)
  rw [List.mem_filter, List.mem_singleton]
  constructor
  · rintro ⟨hq, hit⟩
    exact List.inj_on_of_nodup_map nodup hq hr (same q hq hit)
  · rintro rfl
    exact ⟨hr, own⟩

/-- A key stays without repetition when a row with a new key comes. -/
theorem nodup_map_append (nodup : (rows.map key).Nodup) (fresh : ∀ q ∈ rows, key q ≠ key r) :
    ((rows ++ [r]).map key).Nodup := by
  rw [List.map_append, List.map_singleton, List.nodup_append]
  refine ⟨nodup, List.nodup_singleton _, ?_⟩
  intro k hk k' hk'
  obtain ⟨q, hq, rfl⟩ := List.mem_map.mp hk
  rw [List.mem_singleton.mp hk']
  exact fresh q hq

/-- A search by key after an update. -/
theorem find?_updateWhere {f : α → α} (hkey : ∀ r, key (f r) = key r) (p : α → Bool) :
    (updateWhere p f rows).find? (key · == k)
      = (rows.find? (key · == k)).map fun r => if p r then f r else r := by
  unfold updateWhere
  rw [List.find?_map]
  congr 2
  funext r
  rw [Function.comp_apply]
  split
  · rw [hkey]
  · rfl

/-- What undoes an update of one row, and leaves the others alone, leads back to the rows. -/
theorem map_updateWhere_eq_self {f g : α → α} (nodup : (rows.map key).Nodup) (hr : r ∈ rows)
    (back : g (f r) = r) (others : ∀ q ∈ rows, key q ≠ key r → g q = q) :
    rows = (updateWhere (key · == key r) f rows).map g := by
  unfold updateWhere
  rw [List.map_map]
  refine (List.map_id rows).symm.trans (List.map_congr_left fun q hq => ?_)
  rw [Function.comp_apply, id]
  by_cases same : key q = key r
  · obtain rfl := List.inj_on_of_nodup_map nodup hq hr same
    rw [if_pos (beq_self_eq_true _), back]
  · rw [if_neg (by simpa using same), others q hq same]

/-- Some entries of a list without repetition, picked out of it again. -/
theorem filter_contains_of_sublist {picked entries : List String} (nodup : entries.Nodup)
    (h : picked.Sublist entries) : entries.filter picked.contains = picked := by
  induction h with
  | slnil => rfl
  | @cons picked entries a h ih =>
    obtain ⟨new, nodup⟩ := List.nodup_cons.mp nodup
    rw [List.filter_cons_of_neg (by simpa using fun hit => new (h.subset hit)), ih nodup]
  | @cons_cons picked entries a h ih =>
    obtain ⟨new, nodup⟩ := List.nodup_cons.mp nodup
    rw [List.filter_cons_of_pos (by simp)]
    refine congrArg (a :: ·) (Eq.trans (List.filter_congr fun b hb => ?_) (ih nodup))
    have other : b ≠ a := fun same => new (same ▸ hb)
    simp [other]

/-! ## Sums -/

/-- The sum of a column over some rows, as a sum over all of them. -/
theorem sum_filter_map (p : α → Bool) (w : α → Nat) (rows : List α) :
    ((rows.filter p).map w).sum = (rows.map fun r => if p r then w r else 0).sum := by
  induction rows with
  | nil => rfl
  | cons r rest ih =>
    by_cases h : p r = true
    · rw [List.filter_cons_of_pos h, List.map_cons, List.map_cons, List.sum_cons, List.sum_cons, ih,
        if_pos h]
    · rw [List.filter_cons_of_neg h, List.map_cons, List.sum_cons, ih, if_neg h, Nat.zero_add]

/-- **The sum after an update:** the summand of the one row that is updated is exchanged. -/
theorem sum_updateWhere {f : α → α} (w : α → Nat) (nodup : (rows.map key).Nodup) (hr : r ∈ rows) :
    ((updateWhere (key · == key r) f rows).map w).sum + w r = (rows.map w).sum + w (f r) := by
  induction rows with
  | nil => exact absurd hr List.not_mem_nil
  | cons q rest ih =>
    obtain ⟨fresh, nodupRest⟩ := List.nodup_cons.mp nodup
    unfold updateWhere
    rw [List.map_cons, List.map_cons, List.map_cons, List.sum_cons, List.sum_cons]
    rcases List.mem_cons.mp hr with rfl | hrest
    · have others : updateWhere (key · == key r) f rest = rest := by
        refine updateWhere_eq_self fun q hq => ?_
        rw [beq_eq_false_iff_ne]
        exact fun same => fresh (same ▸ List.mem_map_of_mem hq)
      rw [if_pos (by simp)]
      unfold updateWhere at others
      rw [others]
      omega
    · have other : ¬ (key q == key r) = true := by
        rw [beq_iff_eq]
        exact fun same => fresh (same ▸ List.mem_map_of_mem hrest)
      rw [if_neg other]
      have := ih nodupRest hrest
      unfold updateWhere at this
      omega

/-- One summand is at most the sum. -/
theorem le_sum_map (w : α → Nat) (hr : r ∈ rows) : w r ≤ (rows.map w).sum :=
  List.le_sum_of_mem (List.mem_map_of_mem hr)

end Key

/-! ## Rows of a kind -/

section Kind

variable {p : α → Bool} {key : α → β} {rows rows' added : List α}

/-- Rows of a kind have keys that rows of that kind had before. -/
theorem keys_subset
    (h : ∀ r' ∈ rows', p r' = true → ∃ r ∈ rows, p r = true ∧ key r = key r') :
    (rows'.filter p).map key ⊆ (rows.filter p).map key := by
  intro k hk
  obtain ⟨r', hr', rfl⟩ := List.mem_map.mp hk
  obtain ⟨hr', kind'⟩ := List.mem_filter.mp hr'
  obtain ⟨r, hr, kind, same⟩ := h r' hr' kind'
  exact List.mem_map.mpr ⟨r, List.mem_filter.mpr ⟨hr, kind⟩, same⟩

/-- A change by which no row becomes one of the kind. -/
theorem keys_map_subset {f : α → α} (h : ∀ r, key (f r) = key r ∧ (p (f r) = true → p r = true)) :
    ((rows.map f).filter p).map key ⊆ (rows.filter p).map key := by
  refine keys_subset fun r' hr' kind => ?_
  obtain ⟨r, hr, rfl⟩ := List.mem_map.mp hr'
  exact ⟨r, hr, (h r).2 kind, (h r).1.symm⟩

theorem keys_updateWhere_subset {q : α → Bool} {f : α → α}
    (h : ∀ r, key (f r) = key r ∧ (p (f r) = true → p r = true)) :
    ((updateWhere q f rows).filter p).map key ⊆ (rows.filter p).map key := by
  refine keys_map_subset fun r => ?_
  split
  · exact h r
  · exact ⟨rfl, id⟩

/-- Rows that are not of the kind are added. -/
theorem keys_append_subset (h : ∀ r ∈ added, p r = false) :
    ((rows ++ added).filter p).map key ⊆ (rows.filter p).map key := by
  have none : added.filter p = [] :=
    List.filter_eq_nil_iff.mpr fun r hr => by rw [h r hr]; exact Bool.false_ne_true
  rw [List.filter_append, none, List.append_nil]
  exact List.Subset.refl _

end Kind

end Staffing
