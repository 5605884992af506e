import Staffing.Proofs.Run

/-!
# Figures of the ledger

Capacities are counted in 32 bits, and no team is booked beyond its capacity as it stood at that
moment. So capacities and bookings stay far below the numbers that a booking is moved inexactly at,
and every plan and slot can be read.

* `Tables.moved_add`, `Tables.moved_sub` — bookings are moved exactly
* `Team.dailyCapacity_lt`, `Team.windowCapacity_lt` — capacities fit into 32 bits
* `Step.fits` — every step keeps the figures within 32 bits
-/

namespace Staffing

variable {now : Instant} {t t' : Tables}

/-! ## Moving -/

namespace Tables

theorem moved_add {booked count : Nat} (h : booked + count < UInt32.size) :
    moved booked count = booked + count := by
  unfold UInt32.size at h
  rw [moved_of_lt (by omega) (by omega)]
  omega

theorem moved_sub {booked : Nat} (h : booked < UInt32.size) (count : Nat) :
    moved booked (-(count : Int)) = booked - count := by
  unfold UInt32.size at h
  rw [moved_of_lt (by omega) (by omega)]
  omega

/-- A plan that is found holds on to its id, and is the only one of it. -/
theorem plan?_eq_some {id : String} {p : Plan} (keyed : t.LedgerKeyed) :
    t.plan? id = some p ↔ p ∈ t.plans ∧ p.id = id := find?_key_eq_some keyed.plans

theorem slot?_eq_some {id : String} {s : Slot} (keyed : t.LedgerKeyed) :
    t.slot? id = some s ↔ s ∈ t.slots ∧ s.id = id := find?_key_eq_some keyed.slots

end Tables

/-! ## Capacities -/

namespace Team

variable (team : Team) (profiles : List Provider) (w : Window) (d : Day) (z : Zone)

theorem dailyCapacity_lt : team.dailyCapacity profiles d z < UInt32.size :=
  Nat.lt_of_le_of_lt (Nat.min_le_left _ _) (Nat.mod_lt _ (by decide))

theorem windowCapacity_lt : team.windowCapacity profiles w z < UInt32.size :=
  Nat.lt_of_le_of_lt (team.windowCapacity_le_dailyCapacity profiles w z) (dailyCapacity_lt ..)

end Team

/-! ## Bounds -/

namespace Tables

/-- Capacities and bookings are below 2^32. -/
structure Fits (t : Tables) : Prop where
  slots : ∀ s ∈ t.slots, s.capacity < UInt32.size ∧ s.booked < UInt32.size
  plans : ∀ p ∈ t.plans, p.capacity < UInt32.size ∧ p.booked < UInt32.size

namespace Fits

theorem slot_isReadable (h : t.Fits) {s : Slot} (hs : s ∈ t.slots) : s.isReadable = true :=
  decide_eq_true (h.slots s hs).2

theorem plan_isReadable (h : t.Fits) {p : Plan} (hp : p ∈ t.plans) : p.isReadable = true :=
  decide_eq_true (h.plans p hp).2

/-- Giving units back only lowers bookings. -/
theorem adjustBooking_neg (h : t.Fits) (slot : Slot) (count : Nat) :
    (t.adjustBooking slot (-(count : Int))).Fits := by
  constructor
  · intro r hr
    obtain ⟨s, hs, rfl⟩ := mem_updateWhere.mp hr
    obtain ⟨capacity, booked⟩ := h.slots s hs
    split
    · refine ⟨capacity, (moved_sub booked count).trans_lt ?_⟩
      exact Nat.lt_of_le_of_lt (Nat.sub_le _ _) booked
    · exact ⟨capacity, booked⟩
  · intro r hr
    obtain ⟨p, hp, rfl⟩ := mem_updateWhere.mp hr
    obtain ⟨capacity, booked⟩ := h.plans p hp
    split
    · refine ⟨capacity, (moved_sub booked count).trans_lt ?_⟩
      exact Nat.lt_of_le_of_lt (Nat.sub_le _ _) booked
    · exact ⟨capacity, booked⟩

theorem giveBack (h : t.Fits) (l : Lock) : (t.giveBack l).Fits := by
  unfold Tables.giveBack
  split
  · exact h.adjustBooking_neg _ _
  · exact h

theorem released (h : t.Fits) (reason : ReleaseReason) (now : Instant) (l : Lock) :
    (t.released reason now l).Fits := by
  rw [released_frame]
  exact ⟨(h.giveBack l).slots, (h.giveBack l).plans⟩

/-- What a slot and its day have left may be booked. -/
theorem adjustBooking (h : t.Fits) (keyed : t.LedgerKeyed) {slot : Slot} {plan : Plan} {count : Nat}
    (hs : slot ∈ t.slots) (found : t.plan? slot.planId = some plan)
    (left : (count : Int) ≤ Locks.headroom slot plan) : (t.adjustBooking slot count).Fits := by
  obtain ⟨hp, onPlan⟩ := (plan?_eq_some keyed).mp found
  obtain ⟨slotCapacity, slotBooked⟩ := h.slots slot hs
  obtain ⟨planCapacity, planBooked⟩ := h.plans plan hp
  unfold Locks.headroom Slot.headroom at left
  -- What is booked afterwards is at most the greater of two capacities, both below 2^32.
  constructor
  · intro r hr
    obtain ⟨s, hs', rfl⟩ := mem_updateWhere.mp hr
    split
    · next same =>
      obtain rfl := List.inj_on_of_nodup_map keyed.slots hs' hs (by simpa using same)
      have : s.booked + count < UInt32.size := by omega
      exact ⟨slotCapacity, by rw [moved_add this]; exact this⟩
    · exact h.slots s hs'
  · intro r hr
    obtain ⟨p, hp', rfl⟩ := mem_updateWhere.mp hr
    split
    · next same =>
      have sameId : p.id = slot.planId := by simpa using same
      obtain rfl := List.inj_on_of_nodup_map keyed.plans hp' hp (sameId.trans onPlan.symm)
      have : p.booked + count < UInt32.size := by omega
      exact ⟨planCapacity, by rw [moved_add this]; exact this⟩
    · exact h.plans p hp'

end Fits

end Tables

theorem Calm.fits (h : Calm now t t') (fits : t.Fits) : t'.Fits := by
  cases h with
  | roster grows => exact ⟨grows.slots ▸ fits.slots, grows.plans ▸ fits.plans⟩
  | @cancel jobId _ =>
    obtain ⟨f, -, frame⟩ := Tables.cancelled_frame jobId now t
    rw [frame]
    exact ⟨fits.slots, fits.plans⟩
  | newPlan =>
    refine ⟨fits.slots, fun p hp => ?_⟩
    rcases List.mem_append.mp hp with old | new
    · exact fits.plans p old
    · rw [List.mem_singleton.mp new]
      exact ⟨Team.dailyCapacity_lt .., show 0 < UInt32.size by decide⟩
  | resizePlan =>
    refine ⟨fits.slots, fun p hp => ?_⟩
    obtain ⟨q, hq, rfl⟩ := mem_updateWhere.mp hp
    split
    · exact ⟨Team.dailyCapacity_lt .., (fits.plans q hq).2⟩
    · exact fits.plans q hq
  | @newSlot slot plan team z _ _ _ _ _ _ capacity empty =>
    refine ⟨fun s hs => ?_, fits.plans⟩
    rcases List.mem_append.mp hs with old | new
    · exact fits.slots s old
    · rw [List.mem_singleton.mp new]
      show slot.capacity < _ ∧ slot.booked < _
      rw [capacity, empty]
      exact ⟨Team.windowCapacity_lt .., by decide⟩
  | resizeSlot =>
    refine ⟨fun s hs => ?_, fits.plans⟩
    obtain ⟨r, hr, rfl⟩ := mem_updateWhere.mp hs
    split
    · exact ⟨Team.windowCapacity_lt .., (fits.slots r hr).2⟩
    · exact fits.slots r hr
  | release => exact fits.released _ _ _
  | _ => exact ⟨fits.slots, fits.plans⟩

/-- **Every step keeps the figures of the ledger within 32 bits.** -/
theorem Step.fits {p q : Tables × List String} (h : Step now p q) (keyed : p.1.LedgerKeyed)
    (fits : p.1.Fits) : q.1.Fits := by
  cases h with
  | ebb h =>
    cases h with
    | calm h => exact h.fits fits
    | settle => exact ⟨fits.slots, fits.plans⟩
  | @holdTeam t _ l _ slot plan _ _ _ hs found _ _ _ _ _ left =>
    have := fits.adjustBooking keyed hs found left
    exact ⟨this.slots, this.plans⟩

end Staffing
