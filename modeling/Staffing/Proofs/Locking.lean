import Staffing.Proofs.Ledger

/-!
# Making and ending locks

* `Locks.createOnTeam_ok_cases` — calm steps that bring slot and plan up to date, and one that books
* `Locks.createOnProviders_ok_cases` — a calm step for each provider
* `Locks.createJoined_ok_cases` — either of both
* `Locks.confirm_collects`, `Locks.release_collects`, `Locks.expire_releases` — which locks the
  others go through
* `Locks.confirm_ok_cases`, `Locks.release_ok_cases`, `Locks.expire_ok_cases` — a calm step for each
-/

namespace Staffing

namespace Tables

/-- Is the lock one of the tables, and held? -/
def HasHeld (t : Tables) (l : Lock) : Prop := l ∈ t.locks ∧ l.status = .held

/-- Is the lock one of the tables, and live? -/
def HasLive (t : Tables) (l : Lock) : Prop := l ∈ t.locks ∧ l.isLive = true

end Tables

variable {now : Instant} {s s' : Store}

namespace Locks

/-! ## Making locks -/

/-- A lock on a team: slot and plan are brought up to date, then units of both are booked. -/
theorem createOnTeam_ok_cases {j : Job} {teamId : String} {units : Option Nat} {expiresAt : Instant}
    {locks : List Lock} (known : s.tables.job? j.id = some j) (waits : j.isClosed = false)
    (h : createOnTeam j teamId units expiresAt now s = .ok locks s') :
    s'.saved = s.saved ∧ ∃ t, Calms now s.tables t ∧
      ∀ decided, Step now (t, decided) (s'.tables, decided) := by
  unfold createOnTeam at h
  simp only [bind_eq_ok, Work.ofExcept_eq_ok, Work.found_eq_ok, Work.guard_eq_ok, Work.run_eq_ok,
    Work.write_eq_ok, pure_eq_ok] at h
  obtain ⟨_, s, ⟨headcount, rfl⟩, slot, s₁, ensured, row, _, read, plan, s₂, ⟨rfl, rfl⟩, left, id,
    s₃, drawn, _, _, ⟨t, done, rfl⟩, _, _, rfl, rfl, rfl⟩ := h
  obtain ⟨calms, saved₁, moves, team, stands, -⟩ := Ledger.ensureSlotJoined_ok_cases now ensured
  obtain ⟨onPlan, -, rfl⟩ := Work.readRow_eq_ok.mp read
  obtain ⟨tables₃, saved₃⟩ := Work.draw_eq_ok drawn
  rw [tables₃] at done
  obtain ⟨fresh, -, positive, -, rfl⟩ := Tables.insertLock_eq_ok.mp done
  refine ⟨saved₃.trans saved₁, s₂.tables, calms, fun decided => ?_⟩
  have range : 1 ≤ units.getD j.requiredMembers ∧ units.getD j.requiredMembers ≤ 20 := by
    unfold checkHeadcount at headcount
    split at headcount
    · assumption
    · cases headcount
  have known' : s₂.tables.job? j.id = some j := (moves.job? j.id).trans known
  subst team
  obtain ⟨least, most, fits⟩ : 1 ≤ min (units.getD j.requiredMembers) (headroom slot plan).toNat ∧
      min (units.getD j.requiredMembers) (headroom slot plan).toNat ≤ 20 ∧
      ((min (units.getD j.requiredMembers) (headroom slot plan).toNat : Nat) : Int)
        ≤ headroom slot plan := by omega
  -- A new slot stands rounded, but rounding touches neither its id and plan nor its numbers.
  rcases stands with ⟨stands, -⟩ | ⟨stands, -⟩
  · exact .holdTeam fresh known' waits stands onPlan.symm rfl rfl rfl least most fits
  · show Step now _ (Tables.adjustBooking slot.stored _ _, decided)
    exact .holdTeam fresh known' waits stands onPlan.symm rfl rfl rfl least most fits

theorem providerFault_eq_none {t : Tables} {seen : List String} {w : Window} {id : String}
    (h : providerFault t seen w now id = none) : id ∉ seen ∧ t.hasProvider id = true ∧
      t.providerLocked id w now none = false ∧ t.hasConflict id w none = false := by
  unfold providerFault at h
  split at h
  · cases h
  · next unseen =>
    split at h
    · cases h
    · next known =>
      split at h
      · cases h
      · next unlocked =>
        split at h
        · cases h
        · next unassigned =>
          exact ⟨by simpa using unseen, by simpa using known, by simpa using unlocked,
            by simpa using unassigned⟩

/-- Locks on providers are made one by one, each on tables that hold those before it. -/
theorem createOnProviders_ok_cases {j : Job} {expiresAt : Instant} {seen ids : List String}
    {locks : List Lock} (known : s.tables.job? j.id = some j) (waits : j.isClosed = false)
    (h : createOnProviders j expiresAt now seen ids s = .ok locks s') :
    s'.saved = s.saved ∧ Calms now s.tables s'.tables := by
  induction ids generalizing s seen locks with
  | nil =>
    obtain ⟨-, rfl⟩ := pure_eq_ok.mp h
    exact ⟨rfl, .refl⟩
  | cons providerId rest ih =>
    unfold createOnProviders at h
    simp only [bind_eq_ok, Work.ask_eq_ok] at h
    obtain ⟨fault, _, ⟨checked, rfl⟩, h⟩ := h
    cases fault with
    | some fault => exact absurd h (Work.refuse_eq_ok.mp ·)
    | none =>
      simp only [bind_eq_ok, Work.run_eq_ok, pure_eq_ok] at h
      obtain ⟨id, s₁, drawn, _, _, ⟨t, done, rfl⟩, others, s₂, made, -, rfl⟩ := h
      obtain ⟨tables₁, saved₁⟩ := Work.draw_eq_ok drawn
      obtain ⟨-, isKnown, unlocked, unassigned⟩ := providerFault_eq_none checked.symm
      rw [tables₁] at done
      obtain ⟨fresh, -, -, -, rfl⟩ := Tables.insertLock_eq_ok.mp done
      obtain ⟨saved, calms⟩ := ih (by exact known) made
      refine ⟨saved.trans saved₁, .head ?_ calms⟩
      exact .holdProvider fresh known waits rfl rfl rfl rfl isKnown unlocked unassigned

/-- What a transaction that makes locks comes to. -/
theorem createJoined_ok_cases {jobId : String} {target : LockRequestTarget} {expiresAt : Instant}
    {locks : List Lock} (h : createJoined jobId target expiresAt now s = .ok locks s') :
    s'.saved = s.saved ∧ (Calms now s.tables s'.tables ∨ ∃ teamId units,
      target = .team teamId units ∧ ∃ t, Calms now s.tables t ∧
        ∀ decided, Step now (t, decided) (s'.tables, decided)) := by
  unfold createJoined at h
  simp only [bind_eq_ok, Work.demand_eq_ok, Work.guard_eq_ok, Bool.not_eq_true] at h
  obtain ⟨j, _, ⟨found, rfl⟩, waits, h⟩ := h
  have same : j.id = jobId := (mem_of_find?_key found).2
  subst same
  split at h
  · next teamId units =>
    obtain ⟨saved, held⟩ := createOnTeam_ok_cases found waits h
    exact ⟨saved, .inr ⟨teamId, units, rfl, held⟩⟩
  · exact absurd h (Work.refuse_eq_ok.mp ·)
  · obtain ⟨saved, calms⟩ := createOnProviders_ok_cases found waits h
    exact ⟨saved, .inl calms⟩

/-! ## Confirming -/

/-- Setting the state of one lock leaves the others as they are. -/
theorem mem_setLockState_of_ne {t : Tables} {k : Lock} {id : String} {status : LockStatus}
    {reason : Option ReleaseReason} {expiresAt : Instant} (other : k.id ≠ id) (hk : k ∈ t.locks) :
    k ∈ (t.setLockState id status reason expiresAt now).locks :=
  mem_updateWhere.mpr ⟨k, hk, by rw [if_neg (by simpa using other)]⟩

theorem mem_locksFor {t : Tables} {l : Lock} {jobId : String} {ids : Option (List String)}
    (h : l ∈ t.locksFor jobId ids false) : t.HasLive l := by
  simp only [Tables.locksFor, List.mem_filter, Bool.and_eq_true, Bool.false_or] at h
  exact ⟨h.1, h.2.1.2⟩

theorem locksFor_nodup {t : Tables} (nodup : (t.locks.map (·.id)).Nodup) (jobId : String)
    (ids : Option (List String)) (withReleased : Bool) :
    ((t.locksFor jobId ids withReleased).map (·.id)).Nodup :=
  nodup.sublist (List.filter_sublist.map _)

theorem confirmOne_ok_cases {l c : Lock} (hl : s.tables.HasHeld l)
    (h : confirmOne now l s = .ok c s') :
    Calms now s.tables s'.tables ∧ s'.saved = s.saved ∧
      ∀ k : Lock, k.id ≠ l.id → s.tables.HasHeld k → s'.tables.HasHeld k := by
  unfold confirmOne at h
  simp only [bind_eq_ok, Work.write_eq_ok, pure_eq_ok] at h
  obtain ⟨_, _, rfl, -, rfl⟩ := h
  refine ⟨.single (.confirm hl.1 hl.2), rfl, fun k other hk => ?_⟩
  exact ⟨mem_setLockState_of_ne other hk.1, hk.2⟩

private theorem calms_trans (t u v : Tables) (h : Calms now t u) (h' : Calms now u v) :
    Calms now t v := Relation.ReflTransGen.trans h h'

/-- A confirmation goes through the held locks of its job. -/
theorem confirm_collects {actor : Actor} {jobId : String} {ids : Option (List String)}
    {locks : List Lock} (idle : s.saved = none)
    (h : confirm actor jobId ids now s = .ok locks s') :
    ∃ s₁, Work.collect (confirmOne now)
        ((s.tables.locksFor jobId ids false).filter (·.status = .held)) s.begin = .ok locks s₁ ∧
      s' = s₁.commit := by
  unfold confirm at h
  simp only [bind_eq_ok, Work.ofExcept_eq_ok] at h
  obtain ⟨_, s, ⟨-, rfl⟩, h⟩ := h
  obtain ⟨s₁, done, rfl⟩ := (Work.atomic_eq_ok idle).mp h
  simp only [bind_eq_ok, Work.demand_eq_ok, Work.ask_eq_ok] at done
  obtain ⟨_, _, ⟨-, rfl⟩, _, _, ⟨rfl, rfl⟩, done⟩ := done
  exact ⟨s₁, done, rfl⟩

/-- The held locks of a job are stored, and have different ids. -/
theorem heldFor_cases {t : Tables} (nodup : (t.locks.map (·.id)).Nodup) (jobId : String)
    (ids : Option (List String)) :
    (((t.locksFor jobId ids false).filter (·.status = .held)).map (·.id)).Nodup ∧
      ∀ l ∈ (t.locksFor jobId ids false).filter (·.status = .held), t.HasHeld l := by
  refine ⟨(locksFor_nodup nodup jobId ids false).sublist (List.filter_sublist.map _),
    fun l hl => ?_⟩
  obtain ⟨live, held⟩ := List.mem_filter.mp hl
  exact ⟨(mem_locksFor live).1, by simpa using held⟩

theorem confirm_ok_cases {actor : Actor} {jobId : String} {ids : Option (List String)}
    {locks : List Lock} (idle : s.saved = none) (nodup : (s.tables.locks.map (·.id)).Nodup)
    (h : confirm actor jobId ids now s = .ok locks s') :
    Calms now s.tables s'.tables ∧ s'.saved = none := by
  obtain ⟨s₁, done, rfl⟩ := confirm_collects idle h
  obtain ⟨keys, held⟩ := heldFor_cases nodup jobId ids
  obtain ⟨calms, -⟩ := Work.collect_ok_cases (s := s.begin) (fun _ => .refl) calms_trans
    (fun _ _ _ _ => confirmOne_ok_cases) keys held done
  exact ⟨calms, rfl⟩

/-! ## Releasing -/

theorem releaseOne_eq_ok {reason : ReleaseReason} {l r : Lock}
    (h : releaseOne reason now l s = .ok r s') :
    s'.tables = s.tables.released reason now l ∧ s'.saved = s.saved := by
  unfold releaseOne at h
  unfold Tables.released Tables.giveBack
  cases target : l.target.slotId? with
  | none =>
    rw [target] at h
    simp only [bind_eq_ok, Work.write_eq_ok, pure_eq_ok] at h
    obtain ⟨_, _, rfl, -, rfl⟩ := h
    exact ⟨rfl, rfl⟩
  | some slotId =>
    rw [target] at h
    unfold returnUnits at h
    simp only [bind_eq_ok, Work.write_eq_ok, pure_eq_ok] at h
    obtain ⟨_, s₁, ⟨row, s, read, h⟩, _, _, rfl, -, rfl⟩ := h
    obtain ⟨rfl, -, rfl⟩ := Work.readRow_eq_ok.mp read
    rw [Option.bind_some]
    cases found : s.tables.slot? slotId with
    | none =>
      rw [found, pure_eq_ok] at h
      obtain ⟨-, rfl⟩ := h
      exact ⟨rfl, rfl⟩
    | some slot =>
      rw [found, Work.write_eq_ok] at h
      rw [h]
      exact ⟨rfl, rfl⟩

theorem releaseOne_ok_cases {reason : ReleaseReason} {l r : Lock} (hl : s.tables.HasLive l)
    (h : releaseOne reason now l s = .ok r s') :
    Calms now s.tables s'.tables ∧ s'.saved = s.saved ∧
      ∀ k : Lock, k.id ≠ l.id → s.tables.HasLive k → s'.tables.HasLive k := by
  obtain ⟨tables, saved⟩ := releaseOne_eq_ok h
  rw [tables]
  refine ⟨.single (.release hl.1 hl.2), saved, fun k other hk => ⟨?_, hk.2⟩⟩
  rw [Tables.released_frame]
  exact mem_setLockState_of_ne other hk.1

/-- Locks that are live when the loop begins are released one by one. -/
theorem collectReleases_ok_cases {reason : ReleaseReason} {live released : List Lock}
    (nodup : (live.map (·.id)).Nodup) (hlive : ∀ l ∈ live, s.tables.HasLive l)
    (h : Work.collect (releaseOne reason now) live s = .ok released s') :
    Calms now s.tables s'.tables ∧ s'.saved = s.saved ∧
      ∀ k : Lock, k.id ∉ live.map (·.id) → s.tables.HasLive k → s'.tables.HasLive k :=
  Work.collect_ok_cases (fun _ => .refl) calms_trans (fun _ _ _ _ => releaseOne_ok_cases) nodup
    hlive h

/-- A release goes through the live locks of its job. -/
theorem release_collects {actor : Actor} {jobId : String} {ids : Option (List String)}
    {locks : List Lock} (idle : s.saved = none)
    (h : release actor jobId ids now s = .ok locks s') :
    ∃ s₁, Work.collect (releaseOne .manual now) (s.tables.locksFor jobId ids false) s.begin
      = .ok locks s₁ ∧ s' = s₁.commit := by
  unfold release at h
  simp only [bind_eq_ok, Work.ofExcept_eq_ok] at h
  obtain ⟨_, s, ⟨-, rfl⟩, h⟩ := h
  obtain ⟨s₁, done, rfl⟩ := (Work.atomic_eq_ok idle).mp h
  simp only [bind_eq_ok, Work.demand_eq_ok, Work.ask_eq_ok] at done
  obtain ⟨_, _, ⟨-, rfl⟩, _, _, ⟨rfl, rfl⟩, done⟩ := done
  exact ⟨s₁, done, rfl⟩

theorem release_ok_cases {actor : Actor} {jobId : String} {ids : Option (List String)}
    {locks : List Lock} (idle : s.saved = none) (nodup : (s.tables.locks.map (·.id)).Nodup)
    (h : release actor jobId ids now s = .ok locks s') :
    Calms now s.tables s'.tables ∧ s'.saved = none := by
  obtain ⟨s₁, done, rfl⟩ := release_collects idle h
  obtain ⟨calms, -⟩ := collectReleases_ok_cases (s := s.begin)
    (locksFor_nodup nodup jobId ids false) (fun _ => mem_locksFor) done
  exact ⟨calms, rfl⟩

/-- An expiry releases one live lock, or does nothing. -/
theorem expire_releases {lockId : String} {answer : Option Lock} (idle : s.saved = none)
    (h : expire lockId now s = .ok answer s') :
    answer = none ∧ s' = s.begin.commit ∨ ∃ l r s₁, answer = some r ∧ s.tables.HasLive l ∧
      releaseOne .expired now l s.begin = .ok r s₁ ∧ s' = s₁.commit := by
  unfold expire at h
  obtain ⟨s₁, done, rfl⟩ := (Work.atomic_eq_ok idle).mp h
  simp only [bind_eq_ok, Work.demand_eq_ok] at done
  obtain ⟨l, _, ⟨found, rfl⟩, done⟩ := done
  split at done
  · next expired =>
    simp only [bind_eq_ok, pure_eq_ok] at done
    obtain ⟨r, _, released, rfl, rfl⟩ := done
    exact .inr ⟨l, r, s₁, rfl, ⟨List.mem_of_find?_eq_some found,
      (Bool.and_eq_true_iff.mp expired).1⟩, released, rfl⟩
  · obtain ⟨rfl, rfl⟩ := pure_eq_ok.mp done
    exact .inl ⟨rfl, rfl⟩

theorem expire_ok_cases {lockId : String} {answer : Option Lock} (idle : s.saved = none)
    (h : expire lockId now s = .ok answer s') :
    Calms now s.tables s'.tables ∧ s'.saved = none := by
  obtain ⟨-, rfl⟩ | ⟨l, r, s₁, -, live, released, rfl⟩ := expire_releases idle h
  · exact ⟨.refl, rfl⟩
  · exact ⟨(releaseOne_ok_cases (s := s.begin) live released).1, rfl⟩

end Locks

end Staffing
