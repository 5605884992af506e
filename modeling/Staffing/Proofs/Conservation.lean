import Staffing.Proofs.Balance

/-!
# The ledger is conserved

The balance and what it rests on, together, hold after every run. They also hold between the
releases of several locks in one transaction, so that each lock finds all its units booked.

* `Tables.Sound` — the ledger balances, on unique keys, on the right days, without overflow
* `Locks.releaseOne_sound`, `Promotion.settle_sound` — ending one lock leaves it so
* `ledger_conserved` — the ledger balances in every state that a run reaches
-/

namespace Staffing

variable {now : Instant} {t t' : Tables} {decided : List String}

/-! ## Loops over locks -/

namespace Tables

/-- All that keeps the ledger in order. -/
structure Sound (t : Tables) (decided : List String) : Prop where
  keyed : t.LedgerKeyed
  onDay : t.SlotsOnDay
  fits : t.Fits
  balanced : t.Balanced decided

namespace Sound

theorem empty : Sound {} [] where
  keyed := Keyed.empty.toLedgerKeyed
  onDay := fun _ h => absurd h List.not_mem_nil
  fits := ⟨fun _ h => absurd h List.not_mem_nil, fun _ h => absurd h List.not_mem_nil⟩
  balanced := .empty

theorem returnsAll (h : t.Sound decided) {l : Lock} (hl : t.HasLive l) : t.ReturnsAll l :=
  h.balanced.returnsAll h.keyed h.onDay h.fits hl

theorem released (h : t.Sound decided) {l : Lock} (hl : t.HasLive l) (reason : ReleaseReason) :
    (t.released reason now l).Sound decided where
  keyed := by
    rw [released_frame]
    exact ⟨(planIds_giveBack l t).symm ▸ h.keyed.plans, (slotIds_giveBack l t).symm ▸ h.keyed.slots,
      (lockIds_setLockState ..).symm ▸ h.keyed.locks⟩
  onDay := by
    have := h.onDay.giveBack l
    rw [released_frame]
    rw [giveBack_frame] at this
    exact this
  fits := h.fits.released _ _ _
  balanced := h.balanced.release h.keyed h.onDay h.fits hl reason

theorem settled (h : t.Sound decided) {l : Lock} (hl : t.HasLive l) :
    (t.setLockState l.id .released (some .promoted) l.expiresAt now).Sound (decided ++ [l.id]) where
  keyed := ⟨h.keyed.plans, h.keyed.slots, (lockIds_setLockState ..).symm ▸ h.keyed.locks⟩
  onDay := h.onDay
  fits := ⟨h.fits.slots, h.fits.plans⟩
  balanced := h.balanced.settle h.keyed hl

end Sound

/-- Is the ledger in order, by some locks that decided? -/
def IsSound (t : Tables) : Prop := ∃ decided, t.Sound decided

/-- Teams, plans, slots and locks are the same. -/
structure SameLedger (t t' : Tables) : Prop where
  teams : t'.teams = t.teams
  plans : t'.plans = t.plans
  slots : t'.slots = t.slots
  locks : t'.locks = t.locks

theorem SameLedger.sound (same : t.SameLedger t') (h : t.Sound decided) : t'.Sound decided := by
  obtain ⟨teams, plans, slots, locks⟩ := same
  obtain ⟨⟨plansKeyed, slotsKeyed, locksKeyed⟩, onDay, ⟨slotsFit, plansFit⟩, balanced⟩ := h
  constructor
  · exact ⟨plans ▸ plansKeyed, slots ▸ slotsKeyed, locks ▸ locksKeyed⟩
  · unfold SlotsOnDay IsDayOf plan? team? at *
    rw [slots, plans, teams]
    exact onDay
  · exact ⟨slots ▸ slotsFit, plans ▸ plansFit⟩
  · obtain ⟨planSums, slotSums, hasSlot, stand, spent⟩ := balanced
    constructor
    · rw [plans, slots]
      exact planSums
    · rw [slots, locks]
      exact slotSums
    · rw [slots, locks]
      exact hasSlot
    · exact locks ▸ stand
    · exact locks ▸ spent

end Tables

variable {s s' : Store}

/-- Releasing a live lock leaves the ledger in order and the other live locks live. -/
theorem Locks.releaseOne_sound {reason : ReleaseReason} {l r : Lock} (hl : s.tables.HasLive l)
    (h : releaseOne reason now l s = .ok r s') :
    (s.tables.IsSound → s'.tables.IsSound) ∧ s'.saved = s.saved ∧
      ∀ k : Lock, k.id ≠ l.id → s.tables.HasLive k → s'.tables.HasLive k := by
  obtain ⟨-, saved, keeps⟩ := releaseOne_ok_cases hl h
  rw [(releaseOne_eq_ok h).1] at *
  exact ⟨fun ⟨decided, sound⟩ => ⟨decided, sound.released hl reason⟩, saved, keeps⟩

/-- The same for a lock of a job that is promoted. -/
theorem Promotion.settle_sound {deciding : List String} {l : Lock} {u : Unit}
    (hl : s.tables.HasLive l) (h : settle deciding now l s = .ok u s') :
    (s.tables.IsSound → s'.tables.IsSound) ∧ s'.saved = s.saved ∧
      ∀ k : Lock, k.id ≠ l.id → s.tables.HasLive k → s'.tables.HasLive k := by
  unfold settle at h
  split at h
  · rw [Work.write_eq_ok] at h
    subst h
    refine ⟨?_, rfl, fun k other hk => ?_⟩
    · rintro ⟨decided, sound⟩
      exact ⟨decided ++ [l.id], sound.settled hl⟩
    · exact ⟨Locks.mem_setLockState_of_ne other hk.1, hk.2⟩
  · simp only [bind_eq_ok, pure_eq_ok] at h
    obtain ⟨r, _, released, -, rfl⟩ := h
    exact Locks.releaseOne_sound hl released

/-! ## Runs -/

theorem Run.sound {past : List (Engine × Operation)} {e : Engine} (run : Run past e) :
    e.store.tables.Sound (Run.promoted past) := by
  refine (run.holds (I := fun p => p.1.Sound p.2) .empty fun now p q keyed h step => ?_).2
  exact {
    keyed := (step.keyed keyed).toLedgerKeyed
    onDay := step.slotsOnDay h.keyed h.onDay
    fits := step.fits h.keyed h.fits
    balanced := step.balanced h.keyed h.onDay h.fits h.balanced }

/-- **The ledger is conserved.** In every state that a run reaches, slots stand on the plan of their
team and day, plans have booked what their slots have, and slots the units of their live locks and
of the locks by which promotions were decided.

So when live locks are released one after the other, as a release, an expiry and a promotion do,
each gives back all its units: neither are they cut to what the slot has booked, nor is a booking
cut at zero. -/
theorem ledger_conserved {past : List (Engine × Operation)} {e : Engine} (run : Run past e) :
    e.store.tables.Conserves (Run.promoted past) ∧
      ∀ (s : Store) (first : List Lock) (l : Lock), e.store.tables.SameLedger s.tables →
        (∀ k ∈ first ++ [l], s.tables.HasLive k) → ((first ++ [l]).map (·.id)).Nodup →
        (∀ reason now released s',
          Work.collect (Locks.releaseOne reason now) first s = .ok released s' →
            s'.tables.ReturnsAll l) ∧
        ∀ deciding now u s', Work.each (Promotion.settle deciding now) first s = .ok u s' →
          s'.tables.ReturnsAll l := by
  have sound := run.sound
  refine ⟨sound.balanced.conserves sound.onDay, fun s first l same live nodup => ?_⟩
  have isSound : s.tables.IsSound := ⟨_, same.sound sound⟩
  rw [List.map_append, List.map_singleton, List.nodup_append] at nodup
  obtain ⟨nodup, -, apart⟩ := nodup
  have later : l.id ∉ first.map (·.id) := by
    intro again
    exact apart _ again _ (List.mem_singleton_self _) rfl
  have firstLive := fun k hk => live k (List.mem_append_left _ hk)
  have lastLive := live l (List.mem_append_right _ (List.mem_singleton_self _))
  have refl : ∀ t : Tables, t.IsSound → t.IsSound := fun _ h => h
  have trans : ∀ t u v : Tables, (t.IsSound → u.IsSound) → (u.IsSound → v.IsSound) →
      t.IsSound → v.IsSound := fun _ _ _ f g h => g (f h)
  constructor
  · intro reason now released s' h
    obtain ⟨sound', -, keeps⟩ := Work.collect_ok_cases refl trans
      (fun _ _ _ _ => Locks.releaseOne_sound) nodup firstLive h
    obtain ⟨decided, sound'⟩ := sound' isSound
    exact sound'.returnsAll (keeps l later lastLive)
  · intro deciding now u s' h
    obtain ⟨sound', -, keeps⟩ := Work.each_ok_cases refl trans
      (fun _ _ _ _ => Promotion.settle_sound) nodup firstLive h
    obtain ⟨decided, sound'⟩ := sound' isSound
    exact sound'.returnsAll (keeps l later lastLive)

/-- Two jobs a week apart, each with a lock on the same team; the first is promoted. -/
def Sample.twoWeeks : List Operation := [
  .insertProvider (provider "ada"), .createTeam admin (team ["ada"]), .createJob (job 9),
  .createJob (job (9 + 7 * 24)),
  .createLocks admin (idText "job" 1) ⟨.team (idText "team" 0) none, none⟩,
  .createLocks admin (idText "job" 2) ⟨.team (idText "team" 0) none, none⟩,
  .confirmLocks admin (idText "job" 1) none, .promote (idText "job" 1) 0]

/-- The lock that decided keeps its unit booked, and the live one holds another. -/
theorem ledger_conserved_twoWeeks : ∃ past e, Run past e ∧
    e.store.tables.slots.map (fun s => (s.id, s.booked))
        = [(idText "slot" 4, 1), (idText "slot" 7, 1)] ∧
      e.store.tables.spentUnits (Run.promoted past) (idText "slot" 4) = 1 ∧
      e.store.tables.liveUnits (idText "slot" 7) = 1 ∧
      e.store.tables.Conserves (Run.promoted past) ∧
      ∃ l, e.store.tables.HasLive l ∧ l.target.slotId? = some (idText "slot" 7) ∧
        ∃ released s', Work.collect (Locks.releaseOne .manual 0) [] e.store = .ok released s' ∧
          s'.tables.ReturnsAll l := by
  obtain ⟨past, trace⟩ : ∃ past, past = Operation.trace Sample.twoWeeks Sample.engine := ⟨_, rfl⟩
  obtain ⟨e, left⟩ : ∃ e, e = Operation.afterAll Sample.twoWeeks Sample.engine := ⟨_, rfl⟩
  have run : Run past e := trace ▸ left ▸ Run.of_operations rfl rfl (fun _ _ _ => rfl)
    (by simp [Sample.twoWeeks, Operation.IsAdmissible])
  obtain ⟨booked, spent, live⟩ :
      e.store.tables.slots.map (fun s => (s.id, s.booked))
        = [(idText "slot" 4, 1), (idText "slot" 7, 1)] ∧
      e.store.tables.spentUnits (Run.promoted past) (idText "slot" 4) = 1 ∧
      e.store.tables.liveUnits (idText "slot" 7) = 1 := by
    rw [left, trace]
    decide +kernel
  obtain ⟨l, hl, isLive, target⟩ : ∃ l ∈ e.store.tables.locks, l.isLive = true ∧
      l.target.slotId? = some (idText "slot" 7) := by
    rw [left]
    decide +kernel
  obtain ⟨conserves, returns⟩ := ledger_conserved run
  obtain ⟨returnsAll, -⟩ := returns e.store [] l ⟨rfl, rfl, rfl, rfl⟩
    (fun k hk => List.mem_singleton.mp hk ▸ ⟨hl, isLive⟩) (List.nodup_singleton _)
  exact ⟨past, e, run, booked, spent, live, conserves, l, ⟨hl, isLive⟩, target, [], e.store, rfl,
    returnsAll .manual 0 [] e.store rfl⟩

end Staffing
