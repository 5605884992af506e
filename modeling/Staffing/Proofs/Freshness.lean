import Mathlib
import Staffing.Proofs.Work

/-!
# Drawn ids are new

Different serial numbers have different ids, so of `n + 1` numbers in a row one has an id that is
not among `n` ids in use. That is how many a draw tries.

* `idText_injective` — an id tells its serial number
* `freeSerial_free` — the number that is found is free
* `Work.draw_apply` — a draw always answers, with an id that is not in use
-/

namespace Staffing

/-! ## Digits -/

theorem hexDigit_injective {a b : Nat} (ha : a < 16) (hb : b < 16)
    (h : Json.hexDigit a = Json.hexDigit b) : a = b := by
  have table : ∀ a < 16, ∀ b < 16, Json.hexDigit a = Json.hexDigit b → a = b := by decide +kernel
  exact table a ha b hb h

theorem hexDigits_length (width n : Nat) : (hexDigits width n).length = width := by
  induction width generalizing n with
  | zero => rfl
  | succ width ih => rw [hexDigits, List.length_append, ih, List.length_singleton]

/-- Numbers below `16 ^ width` have different digits. -/
theorem hexDigits_injective {width m n : Nat} (hm : m < 16 ^ width) (hn : n < 16 ^ width)
    (h : hexDigits width m = hexDigits width n) : m = n := by
  induction width generalizing m n with
  | zero =>
    rw [Nat.pow_zero] at hm hn
    omega
  | succ width ih =>
    rw [hexDigits, hexDigits] at h
    obtain ⟨high, low⟩ := List.append_inj' h rfl
    rw [Nat.pow_succ] at hm hn
    have := ih (by omega) (by omega) high
    have := hexDigit_injective (Nat.mod_lt m (by omega)) (Nat.mod_lt n (by omega))
      (List.singleton_inj.mp low)
    omega

theorem lt_pow_idWidth (serial : Nat) : serial < 16 ^ idWidth serial := by
  have enough : serial.log2 + 1 ≤ 4 * idWidth serial := by
    unfold idWidth
    omega
  calc serial < 2 ^ (serial.log2 + 1) := Nat.lt_log2_self
    _ ≤ 2 ^ (4 * idWidth serial) := Nat.pow_le_pow_right (by omega) enough
    _ = 16 ^ idWidth serial := Nat.pow_mul 2 4 _

/-- An id tells its serial number. -/
theorem idText_injective (kind : String) : Function.Injective (idText kind) := by
  intro m n h
  unfold idText at h
  have digits : hexDigits (idWidth m) m = hexDigits (idWidth n) n := by
    have := congrArg String.toList h
    simpa using this
  have width := congrArg List.length digits
  rw [hexDigits_length, hexDigits_length] at width
  rw [width] at digits
  exact hexDigits_injective (width ▸ lt_pow_idWidth m) (lt_pow_idWidth n) digits

/-! ## Draws -/

variable {kind : String} {used : List String}

/-- If the number that is found is in use, so were all that were tried. -/
theorem used_of_freeSerial {tries serial : Nat}
    (h : idText kind (freeSerial kind used tries serial) ∈ used) :
    ∀ k ≤ tries, idText kind (serial + k) ∈ used := by
  induction tries generalizing serial with
  | zero =>
    intro k hk
    rw [Nat.le_zero.mp hk]
    exact h
  | succ tries ih =>
    unfold freeSerial at h
    split at h
    · next taken =>
      intro k hk
      cases k with
      | zero => simpa using taken
      | succ k =>
        have := ih h k (by omega)
        rwa [Nat.add_assoc, Nat.add_comm 1] at this
    · next free => exact absurd h (by simpa using free)

/-- The number that is found is free. -/
theorem freeSerial_free (kind : String) (used : List String) (serial : Nat) :
    idText kind (freeSerial kind used used.length serial) ∉ used := by
  intro taken
  have all := used_of_freeSerial taken
  -- Otherwise more different ids than there are in use would all be in use.
  have distinct : ((List.range (used.length + 1)).map fun k => idText kind (serial + k)).Nodup := by
    refine List.Nodup.map (fun m n same => ?_) List.nodup_range
    exact Nat.add_left_cancel (idText_injective kind same)
  have inside : ((List.range (used.length + 1)).map fun k => idText kind (serial + k)) ⊆ used := by
    intro id hid
    obtain ⟨k, hk, rfl⟩ := List.mem_map.mp hid
    exact all k (by simpa [Nat.lt_succ_iff] using hk)
  have := distinct.length_le_of_subset inside
  rw [List.length_map, List.length_range] at this
  omega

/-- A draw always answers, with an id that is not in use. -/
theorem Work.draw_apply (kind : IdKind) (s : Store) : ∃ id s', Work.draw kind s = .ok id s' ∧
    s'.tables = s.tables ∧ s'.saved = s.saved ∧ id ∉ kind.used s.tables :=
  ⟨_, _, rfl, rfl, rfl, freeSerial_free kind.text (kind.used s.tables) s.serial⟩

end Staffing
