import Staffing.Proofs.Days
import Staffing.Proofs.Figures

/-!
# The balance of the ledger

Bookings are kept in two places besides the locks: in slots and in plans. A slot has booked the
units of its live locks and those of the locks by which promotions were decided, and a plan has
booked what its slots have. So a live lock never gives back more than its slot and its plan have
booked, and the floors under bookings are never reached.

* `Tables.Conserves` — the ledger balances, by the locks that decided so far
* `Tables.ReturnsAll` — a lock gives back all its units, and no floor is reached
* `Tables.Balanced` — the balance as sums over slots and locks, in which form steps keep it
* `Step.balanced` — every step keeps the balance
-/

namespace Staffing

variable {now : Instant} {t t' : Tables} {decided : List String}

theorem Lock.units_eq_sum (locks : List Lock) : Lock.units locks = (locks.map (·.count)).sum := by
  unfold Lock.units
  rw [List.sum, List.foldr_map]

namespace Tables

/-! ## What balances -/

/-- What the slots of a plan have booked together. -/
def bookedOn (t : Tables) (planId : String) : Nat :=
  ((t.slots.filter (·.planId == planId)).map (·.booked)).sum

/-- The units of a slot that live locks hold. -/
def liveUnits (t : Tables) (slotId : String) : Nat :=
  Lock.units (t.locks.filter fun l => l.isLive && l.target.slotId? == some slotId)

/-- The units of a slot on locks by which promotions were decided. -/
def spentUnits (t : Tables) (decided : List String) (slotId : String) : Nat :=
  Lock.units (t.locks.filter fun l => decided.contains l.id && l.target.slotId? == some slotId)

/-- Every slot has its plan, plans have booked what their slots have, and slots what live locks hold
and what those locks kept by which promotions were decided. -/
structure Conserves (t : Tables) (decided : List String) : Prop where
  onDay : t.SlotsOnDay
  plans : ∀ plan ∈ t.plans, plan.booked = t.bookedOn plan.id
  slots : ∀ slot ∈ t.slots, slot.booked = t.liveUnits slot.id + t.spentUnits decided slot.id

/-- Slot and plan of a lock on a team stand, and giving back its units lowers both their bookings by
exactly these: the slot has booked as many, and neither booking would fall below zero. -/
def ReturnsAll (t : Tables) (l : Lock) : Prop :=
  ∀ slotId, l.target.slotId? = some slotId → ∃ slot plan,
    t.slot? slotId = some slot ∧ t.plan? slot.planId = some plan ∧
      min l.count slot.booked = l.count ∧
      (moved slot.booked (-(l.count : Int)) : Int) = slot.booked - l.count ∧
      (moved plan.booked (-(l.count : Int)) : Int) = plan.booked - l.count

/-! ## The balance as it is kept -/

/-- The units of the slot that a lock keeps booked. -/
def kept (decided : List String) (slotId : String) (l : Lock) : Nat :=
  if (l.isLive || decided.contains l.id) && l.target.slotId? == some slotId then l.count else 0

/-- What a slot has booked for a plan. -/
def share (planId : String) (s : Slot) : Nat := if s.planId == planId then s.booked else 0

/-- Bookings are sums over slots and locks; locks on teams have slots, and those that decided stand
and are live no more. -/
structure Balanced (t : Tables) (decided : List String) : Prop where
  plans : ∀ plan ∈ t.plans, plan.booked = (t.slots.map (share plan.id)).sum
  slots : ∀ slot ∈ t.slots, slot.booked = (t.locks.map (kept decided slot.id)).sum
  hasSlot : ∀ l ∈ t.locks, ∀ slotId, l.target.slotId? = some slotId →
    ∃ slot ∈ t.slots, slot.id = slotId
  stand : ∀ id ∈ decided, ∃ l ∈ t.locks, l.id = id
  spent : ∀ l ∈ t.locks, l.id ∈ decided → l.isLive = false

theorem kept_of_live {l : Lock} {slotId : String} (live : l.isLive = true)
    (target : l.target.slotId? = some slotId) : kept decided slotId l = l.count := by
  unfold kept
  rw [live, target, Bool.true_or, Bool.true_and, beq_self_eq_true, if_pos rfl]

theorem kept_of_other {l : Lock} {slotId : String} (target : l.target.slotId? ≠ some slotId) :
    kept decided slotId l = 0 := by
  unfold kept
  rw [beq_eq_false_iff_ne.mpr target, Bool.and_false, if_neg Bool.false_ne_true]

theorem kept_of_not_live {l : Lock} {slotId : String} (live : l.isLive = false)
    (undecided : l.id ∉ decided) : kept decided slotId l = 0 := by
  unfold kept
  rw [live, Bool.false_or, List.contains_eq_mem, decide_eq_false undecided, Bool.false_and,
    if_neg Bool.false_ne_true]

namespace Balanced

theorem empty : Balanced {} [] where
  plans := fun _ h => absurd h List.not_mem_nil
  slots := fun _ h => absurd h List.not_mem_nil
  hasSlot := fun _ h => absurd h List.not_mem_nil
  stand := fun _ h => absurd h List.not_mem_nil
  spent := fun _ h => absurd h List.not_mem_nil

/-- What balances is what was to balance. -/
theorem conserves (h : t.Balanced decided) (onDay : t.SlotsOnDay) : t.Conserves decided := by
  refine ⟨onDay, fun plan hp => ?_, fun slot hs => ?_⟩
  · rw [h.plans plan hp, bookedOn, sum_filter_map]
    rfl
  · rw [h.slots slot hs, liveUnits, spentUnits, Lock.units_eq_sum, Lock.units_eq_sum,
      sum_filter_map, sum_filter_map, ← List.sum_map_add]
    refine congrArg List.sum (List.map_congr_left fun l hl => ?_)
    -- A lock that decided is live no more, so no lock is counted twice.
    unfold kept
    by_cases decides : l.id ∈ decided
    · simp [h.spent l hl decides, decides]
    · simp [decides]

/-- A live lock gives back all its units. -/
theorem returnsAll (h : t.Balanced decided) (keyed : t.LedgerKeyed) (onDay : t.SlotsOnDay)
    (fits : t.Fits) {l : Lock} (hl : t.HasLive l) : t.ReturnsAll l := by
  intro slotId target
  obtain ⟨slot, hs, rfl⟩ := h.hasSlot l hl.1 slotId target
  obtain ⟨plan, found, -⟩ := onDay slot hs
  obtain ⟨hp, onPlan⟩ := (plan?_eq_some keyed).mp found
  have ofSlot : l.count ≤ slot.booked := by
    have all : kept decided slot.id l = l.count := kept_of_live hl.2 target
    rw [h.slots slot hs, ← all]
    exact le_sum_map _ hl.1
  have ofPlan : slot.booked ≤ plan.booked := by
    have : share plan.id slot = slot.booked := by simp [share, onPlan]
    rw [h.plans plan hp, ← this]
    exact le_sum_map _ hs
  refine ⟨slot, plan, (slot?_eq_some keyed).mpr ⟨hs, rfl⟩, found, Nat.min_eq_left ofSlot, ?_, ?_⟩
  · rw [moved_sub (fits.slots slot hs).2]
    omega
  · rw [moved_sub (fits.plans plan hp).2]
    omega

/-! ## Moving bookings -/

/-- Plans still balance when a slot and its plan are moved by the same. -/
theorem plans_adjustBooking (h : t.Balanced decided) (keyed : t.LedgerKeyed) {slot : Slot}
    {plan : Plan} {delta : Int} (hs : slot ∈ t.slots) (found : t.plan? slot.planId = some plan)
    (slotMoved : (moved slot.booked delta : Int) = slot.booked + delta)
    (planMoved : (moved plan.booked delta : Int) = plan.booked + delta) :
    ∀ p ∈ (t.adjustBooking slot delta).plans,
      p.booked = ((t.adjustBooking slot delta).slots.map (share p.id)).sum := by
  obtain ⟨hp, onPlan⟩ := (plan?_eq_some keyed).mp found
  intro r hr
  obtain ⟨p, hp', rfl⟩ := mem_updateWhere.mp hr
  -- One slot is moved, so one summand changes, and only in the sum of its own plan.
  have sums := sum_updateWhere (f := fun s => { s with booked := moved s.booked delta })
    (share p.id) keyed.slots hs
  have before := h.plans p hp'
  by_cases same : p.id = slot.planId
  · obtain rfl := List.inj_on_of_nodup_map keyed.plans hp' hp (same.trans onPlan.symm)
    have whole : share p.id slot = slot.booked := by simp [share, same]
    have wholeMoved : share p.id { slot with booked := moved slot.booked delta }
        = moved slot.booked delta := by simp [share, same]
    rw [if_pos (by simpa using same)]
    show moved p.booked delta = ((updateWhere _ _ t.slots).map (share p.id)).sum
    omega
  · have nothing : share p.id slot = 0 := by simp [share, Ne.symm same]
    have nothingMoved : share p.id { slot with booked := moved slot.booked delta } = 0 := by
      simp [share, Ne.symm same]
    rw [if_neg (by simpa using same)]
    show p.booked = ((updateWhere _ _ t.slots).map (share p.id)).sum
    omega

/-! ## New locks -/

theorem kept_sum_append (locks : List Lock) (l : Lock) (slotId : String) :
    ((locks ++ [l]).map (kept decided slotId)).sum
      = (locks.map (kept decided slotId)).sum + kept decided slotId l := by
  rw [List.map_append, List.sum_append, List.map_singleton, List.sum_singleton]

/-- A new lock on a provider books nothing. -/
theorem holdProvider (h : t.Balanced decided) {l : Lock} {providerId : String}
    (fresh : ∀ k ∈ t.locks, k.id ≠ l.id) (target : l.target = .provider providerId) :
    { t with locks := t.locks ++ [l.stored] }.Balanced decided where
  plans := h.plans
  slots := by
    intro slot hs
    show slot.booked = ((t.locks ++ [l.stored]).map _).sum
    have other : l.stored.target.slotId? ≠ some slot.id := by
      simp [Lock.stored, target, LockTarget.slotId?]
    rw [kept_sum_append, ← h.slots slot hs, kept_of_other other]
    rfl
  hasSlot := by
    intro k hk slotId onSlot
    rcases List.mem_append.mp hk with old | new
    · exact h.hasSlot k old slotId onSlot
    · rw [List.mem_singleton.mp new] at onSlot
      simp [Lock.stored, target, LockTarget.slotId?] at onSlot
  stand := fun id hid =>
    let ⟨k, hk, same⟩ := h.stand id hid
    ⟨k, List.mem_append_left _ hk, same⟩
  spent := by
    intro k hk decides
    rcases List.mem_append.mp hk with old | new
    · exact h.spent k old decides
    · obtain ⟨m, hm, same⟩ := h.stand _ decides
      rw [List.mem_singleton.mp new] at same
      exact absurd same (fresh m hm)

/-- A new lock on a team books its units of a slot and of the slot's plan. -/
theorem holdTeam (h : t.Balanced decided) (keyed : t.LedgerKeyed) (fits : t.Fits) {l : Lock}
    {slot : Slot} {plan : Plan} (fresh : ∀ k ∈ t.locks, k.id ≠ l.id) (hs : slot ∈ t.slots)
    (found : t.plan? slot.planId = some plan) (target : l.target = .team slot.teamId slot.id)
    (held : l.status = .held) (left : (l.count : Int) ≤ Locks.headroom slot plan) :
    ({ t with locks := t.locks ++ [l.stored] }.adjustBooking slot l.count).Balanced decided := by
  obtain ⟨hp, -⟩ := (plan?_eq_some keyed).mp found
  unfold Locks.headroom Slot.headroom at left
  have slotMoved : moved slot.booked l.count = slot.booked + l.count := by
    have := (fits.slots slot hs).1
    exact moved_add (by omega)
  have planMoved : moved plan.booked l.count = plan.booked + l.count := by
    have := (fits.slots slot hs).1
    have := (fits.plans plan hp).1
    exact moved_add (by omega)
  have onSlot : l.stored.target.slotId? = some slot.id := by
    show l.target.slotId? = _
    rw [target]
    rfl
  -- The slot gains the units, and its sum gains the new lock; other slots see neither.
  refine ⟨?_, ?_, ?_, ?_, ?_⟩
  · exact h.plans_adjustBooking keyed hs found (by omega) (by omega)
  · intro r hr
    show r.booked = ((t.locks ++ [l.stored]).map _).sum
    obtain ⟨s, hs', rfl⟩ := mem_updateWhere.mp hr
    by_cases same : s.id = slot.id
    · obtain rfl := List.inj_on_of_nodup_map keyed.slots hs' hs same
      have live : l.stored.isLive = true := by
        show l.status.isActive = true
        rw [held]
        rfl
      rw [if_pos (beq_self_eq_true _), kept_sum_append, kept_of_live live onSlot, ← h.slots s hs']
      exact slotMoved
    · rw [if_neg (by simpa using same), kept_sum_append, ← h.slots s hs', kept_of_other]
      · rfl
      · rw [onSlot]
        exact fun again => same (Option.some.inj again).symm
  · intro k hk slotId onSlotId
    have : ∃ s ∈ t.slots, s.id = slotId := by
      rcases List.mem_append.mp hk with old | new
      · exact h.hasSlot k old slotId onSlotId
      · rw [List.mem_singleton.mp new, onSlot] at onSlotId
        exact ⟨slot, hs, Option.some.inj onSlotId⟩
    obtain ⟨s, hs', rfl⟩ := this
    refine ⟨_, mem_updateWhere.mpr ⟨s, hs', rfl⟩, ?_⟩
    split <;> rfl
  · intro id hid
    obtain ⟨k, hk, same⟩ := h.stand id hid
    exact ⟨k, List.mem_append_left _ hk, same⟩
  · intro k hk decides
    rcases List.mem_append.mp hk with old | new
    · exact h.spent k old decides
    · obtain ⟨m, hm, same⟩ := h.stand _ decides
      rw [List.mem_singleton.mp new] at same
      exact absurd same (fresh m hm)

/-! ## Locks that change -/

/-- The units that locks keep booked when one of them changes its state. -/
theorem kept_sum_setLockState (keyed : t.LedgerKeyed) {l : Lock} (hl : l ∈ t.locks)
    (decided : List String) (slotId : String) (status : LockStatus) (reason : Option ReleaseReason)
    (expiresAt now : Instant) :
    ((t.setLockState l.id status reason expiresAt now).locks.map (kept decided slotId)).sum
        + kept decided slotId l
      = (t.locks.map (kept decided slotId)).sum + kept decided slotId { l with status } := by
  have sums := sum_updateWhere (f := fun k : Lock => { k with
    status, reason
    expiresAt := expiresAt.wholeSecond
    updatedAt := now.wholeSecond }) (kept decided slotId) keyed.locks hl
  exact sums

/-- What is left to check when a live lock has changed its state: the sums. -/
theorem of_setLockState (h : t.Balanced decided) (keyed : t.LedgerKeyed) {l : Lock}
    (hl : t.HasLive l) {status : LockStatus} {reason : Option ReleaseReason} {expiresAt : Instant}
    {decided' : List String}
    (locks : t'.locks = (t.setLockState l.id status reason expiresAt now).locks)
    (slotIds : t'.slots.map (·.id) = t.slots.map (·.id))
    (decides : ∀ id ∈ decided', id ∈ decided ∨ id = l.id ∧ status = .released)
    (plans : ∀ plan ∈ t'.plans, plan.booked = (t'.slots.map (share plan.id)).sum)
    (slots : ∀ slot ∈ t'.slots, slot.booked = (t'.locks.map (kept decided' slot.id)).sum) :
    t'.Balanced decided' := by
  refine ⟨plans, slots, ?_, ?_, ?_⟩
  · intro k hk slotId onSlot
    rw [locks] at hk
    obtain ⟨m, hm, rfl⟩ := mem_updateWhere.mp hk
    have : m.target.slotId? = some slotId := by
      split at onSlot <;> exact onSlot
    obtain ⟨slot, hs, same⟩ := h.hasSlot m hm slotId this
    have : slotId ∈ t'.slots.map (·.id) := by
      rw [slotIds]
      exact List.mem_map.mpr ⟨slot, hs, same⟩
    exact List.mem_map.mp this
  · intro id hid
    have : ∃ k ∈ t.locks, k.id = id := by
      rcases decides id hid with old | ⟨rfl, -⟩
      · exact h.stand id old
      · exact ⟨l, hl.1, rfl⟩
    obtain ⟨k, hk, same⟩ := this
    rw [locks]
    refine ⟨_, mem_updateWhere.mpr ⟨k, hk, rfl⟩, ?_⟩
    split <;> exact same
  · intro k hk hid
    rw [locks] at hk
    obtain ⟨m, hm, rfl⟩ := mem_updateWhere.mp hk
    split at hid
    · next same =>
      rw [if_pos same]
      obtain rfl := List.inj_on_of_nodup_map keyed.locks hm hl.1 (by simpa using same)
      rcases decides _ hid with old | ⟨-, rfl⟩
      · have := h.spent m hm old
        rw [hl.2] at this
        cases this
      · rfl
    · next other =>
      rw [if_neg other]
      rcases decides _ hid with old | ⟨same, -⟩
      · exact h.spent m hm old
      · exact absurd (by simpa using same) other

/-- Confirming a held lock moves no units. -/
theorem confirm (h : t.Balanced decided) (keyed : t.LedgerKeyed) {l : Lock} {expiresAt : Instant}
    (hl : l ∈ t.locks) (held : l.status = .held) :
    (t.setLockState l.id .confirmed none expiresAt now).Balanced decided := by
  have live : l.isLive = true := by
    unfold Lock.isLive
    rw [held]
    rfl
  refine h.of_setLockState keyed ⟨hl, live⟩ rfl rfl (fun _ => .inl) h.plans fun slot hs => ?_
  have sums := kept_sum_setLockState keyed hl decided slot.id .confirmed none expiresAt now
  have same : kept decided slot.id { l with status := .confirmed } = kept decided slot.id l := by
    unfold kept
    rw [live]
    rfl
  have before := h.slots slot hs
  omega

/-- What giving back comes to: nothing, or all units of the lock. -/
theorem giveBack_cases {l : Lock} (h : t.ReturnsAll l) :
    l.target.slotId? = none ∧ t.giveBack l = t ∨
      ∃ slot plan, l.target.slotId? = some slot.id ∧ slot ∈ t.slots ∧
        t.plan? slot.planId = some plan ∧ t.giveBack l = t.adjustBooking slot (-(l.count : Int)) ∧
        (moved slot.booked (-(l.count : Int)) : Int) = slot.booked - l.count ∧
        (moved plan.booked (-(l.count : Int)) : Int) = plan.booked - l.count := by
  unfold Tables.giveBack
  cases target : l.target.slotId? with
  | none => exact .inl ⟨rfl, rfl⟩
  | some slotId =>
    obtain ⟨slot, plan, found, foundPlan, covers, slotMoved, planMoved⟩ := h slotId target
    obtain ⟨hs, rfl⟩ := mem_of_find?_key found
    refine .inr ⟨slot, plan, rfl, hs, foundPlan, ?_, slotMoved, planMoved⟩
    rw [Option.bind_some, found]
    dsimp only
    rw [covers]

/-- A live lock that is released gives back what it has booked. -/
theorem release (h : t.Balanced decided) (keyed : t.LedgerKeyed) (onDay : t.SlotsOnDay)
    (fits : t.Fits) {l : Lock} (hl : t.HasLive l) (reason : ReleaseReason) :
    (t.released reason now l).Balanced decided := by
  -- A lock that decided is live no more, so this one keeps nothing booked from now on.
  have undecided : l.id ∉ decided := by
    intro decides
    have := h.spent l hl.1 decides
    rw [hl.2] at this
    cases this
  have unkept : ∀ slotId, kept decided slotId { l with status := .released } = 0 :=
    fun _ => kept_of_not_live rfl undecided
  rw [released_frame]
  refine h.of_setLockState keyed hl rfl (slotIds_giveBack l t) (fun _ => .inl) ?_ ?_
  all_goals obtain ⟨target, same⟩ | ⟨slot, plan, target, hs, found, gives, slotMoved, planMoved⟩ :=
    giveBack_cases (h.returnsAll keyed onDay fits hl)
  · rw [same]
    exact h.plans
  · rw [gives]
    exact h.plans_adjustBooking keyed hs found (by omega) (by omega)
  · rw [same]
    intro r hr
    have sums := kept_sum_setLockState keyed hl.1 decided r.id .released (some reason) l.expiresAt
      now
    rw [unkept, kept_of_other (by rw [target]; simp), ← h.slots r hr] at sums
    exact sums.symm
  · rw [gives]
    intro r hr
    obtain ⟨s, hs', rfl⟩ := mem_updateWhere.mp hr
    have sums := kept_sum_setLockState keyed hl.1 decided s.id .released (some reason) l.expiresAt
      now
    rw [unkept, ← h.slots s hs'] at sums
    by_cases own : s.id = slot.id
    · obtain rfl := List.inj_on_of_nodup_map keyed.slots hs' hs own
      rw [kept_of_live hl.2 target] at sums
      rw [if_pos (beq_self_eq_true _)]
      show moved s.booked _ = ((setLockState ..).locks.map (kept decided s.id)).sum
      omega
    · have other : l.target.slotId? ≠ some s.id := by
        rw [target]
        exact fun again => own (Option.some.inj again).symm
      rw [kept_of_other other] at sums
      rw [if_neg (by simpa using own)]
      exact sums.symm

/-- A lock that decided is released and keeps its units booked. -/
theorem settle (h : t.Balanced decided) (keyed : t.LedgerKeyed) {l : Lock} (hl : t.HasLive l) :
    (t.setLockState l.id .released (some .promoted) l.expiresAt now).Balanced
      (decided ++ [l.id]) := by
  refine h.of_setLockState keyed hl rfl rfl (fun id hid => ?_) h.plans fun slot hs => ?_
  · rcases List.mem_append.mp hid with old | new
    · exact .inl old
    · exact .inr ⟨List.mem_singleton.mp new, rfl⟩
  · -- The lock counted because it was live, and now counts because it decided.
    rw [h.slots slot hs]
    show _ = ((updateWhere _ _ t.locks).map _).sum
    unfold updateWhere
    rw [List.map_map]
    refine congrArg List.sum (List.map_congr_left fun k hk => ?_)
    unfold kept
    rw [Function.comp_apply]
    by_cases same : k.id = l.id
    · obtain rfl := List.inj_on_of_nodup_map keyed.locks hk hl.1 same
      simp [hl.2]
    · simp [same]

end Balanced

end Tables

/-! ## Steps -/

theorem Calm.balanced (h : Calm now t t') (keyed : t.LedgerKeyed) (onDay : t.SlotsOnDay)
    (fits : t.Fits) (balanced : t.Balanced decided) : t'.Balanced decided := by
  cases h with
  | roster grows =>
    rw [grows.others]
    exact { balanced with }
  | @cancel jobId _ =>
    obtain ⟨f, -, frame⟩ := Tables.cancelled_frame jobId now t
    rw [frame]
    exact { balanced with }
  | @newPlan id teamId team z d fresh _ _ _ =>
    refine { balanced with plans := fun p hp => ?_ }
    rcases List.mem_append.mp hp with old | new
    · exact balanced.plans p old
    · -- No slot points to a plan that is new.
      rw [List.mem_singleton.mp new]
      refine (List.sum_eq_zero fun n hn => ?_).symm
      obtain ⟨s, hs, rfl⟩ := List.mem_map.mp hn
      obtain ⟨plan, found, -⟩ := onDay s hs
      obtain ⟨hplan, onPlan⟩ := (Tables.plan?_eq_some keyed).mp found
      simp [Tables.share, ← onPlan, fresh plan hplan]
  | resizePlan =>
    refine { balanced with plans := fun p hp => ?_ }
    obtain ⟨q, hq, rfl⟩ := mem_updateWhere.mp hp
    split <;> exact balanced.plans q hq
  | @newSlot slot plan team z fresh _ _ _ _ _ _ empty =>
    refine { balanced with plans := fun p hp => ?_, slots := fun s hs => ?_, hasSlot := ?_ }
    · show p.booked = ((t.slots ++ [slot.stored]).map _).sum
      have nothing : Tables.share p.id slot.stored = 0 := by
        simp [Tables.share, Slot.stored, empty]
      rw [List.map_append, List.sum_append, List.map_singleton, List.sum_singleton, nothing]
      exact balanced.plans p hp
    · rcases List.mem_append.mp hs with old | new
      · exact balanced.slots s old
      · -- No lock is on a slot that is new.
        rw [List.mem_singleton.mp new]
        show slot.booked = _
        rw [empty]
        refine (List.sum_eq_zero fun n hn => ?_).symm
        obtain ⟨l, hl, rfl⟩ := List.mem_map.mp hn
        refine Tables.kept_of_other fun target => ?_
        obtain ⟨r, hr, same⟩ := balanced.hasSlot l hl _ target
        exact fresh r hr same
    · intro l hl slotId target
      obtain ⟨s, hs, same⟩ := balanced.hasSlot l hl slotId target
      exact ⟨s, List.mem_append_left _ hs, same⟩
  | @resizeSlot slot team z w _ _ _ _ =>
    have shares : ∀ planId, (t.setSlotCapacity slot.id
        (team.windowCapacity (team.profiles t) w z)).slots.map (Tables.share planId)
          = t.slots.map (Tables.share planId) := by
      intro planId
      refine map_updateWhere ?_ t.slots
      exact fun _ => rfl
    refine { balanced with plans := fun p hp => ?_, slots := fun s hs => ?_, hasSlot := ?_ }
    · rw [shares]
      exact balanced.plans p hp
    · obtain ⟨r, hr, rfl⟩ := mem_updateWhere.mp hs
      split <;> exact balanced.slots r hr
    · intro l hl slotId target
      obtain ⟨s, hs, same⟩ := balanced.hasSlot l hl slotId target
      refine ⟨_, mem_updateWhere.mpr ⟨s, hs, rfl⟩, ?_⟩
      split <;> exact same
  | holdProvider fresh _ _ target => exact balanced.holdProvider fresh target
  | confirm hl held => exact balanced.confirm keyed hl held
  | release hl live => exact balanced.release keyed onDay fits ⟨hl, live⟩ _
  | _ => exact { balanced with }

/-- Every step keeps the balance. -/
theorem Step.balanced {p q : Tables × List String} (h : Step now p q) (keyed : p.1.LedgerKeyed)
    (onDay : p.1.SlotsOnDay) (fits : p.1.Fits) (balanced : p.1.Balanced p.2) :
    q.1.Balanced q.2 := by
  cases h with
  | ebb h =>
    cases h with
    | calm h => exact h.balanced keyed onDay fits balanced
    | settle hl live => exact balanced.settle keyed ⟨hl, live⟩
  | holdTeam fresh _ _ hs found target held _ _ _ left =>
    exact balanced.holdTeam keyed fits fresh hs found target held left

end Staffing
