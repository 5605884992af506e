import Staffing.Proofs.Run

/-!
# Locks on providers exclude each other

A lock on a provider is refused while another holds the provider for an overlapping job. Jobs do not
move, and a lock that has lapsed does not come back to life when it is confirmed. So as long as the
clock does not go back, two locks never hold one provider in overlapping windows.

* `Lock.Holds`, `Tables.Covers` — whom a lock holds, and for which windows
* `Tables.Exclusive` — locks on providers exclude each other
* `Step.exclusive`, `Tables.Exclusive.later` — steps keep that, and the passing of time does
* `Run.exclusive` — it holds after every run whose clock does not go back
-/

namespace Staffing

variable {now : Instant} {t t' : Tables}

theorem LockTarget.providerId?_eq_some {target : LockTarget} {providerId : String} :
    target.providerId? = some providerId ↔ target = .provider providerId := by
  cases target <;> simp [providerId?]

/-- The lock is on the provider, live, and has not lapsed. -/
def Lock.Holds (l : Lock) (providerId : String) (now : Instant) : Prop :=
  l.target = .provider providerId ∧ l.isLive = true ∧ l.lapsed now = false

instance (l : Lock) (providerId : String) (now : Instant) : Decidable (l.Holds providerId now) :=
  inferInstanceAs (Decidable (_ ∧ _ ∧ _))

/-- A lapsed lock stays lapsed. -/
theorem Lock.Holds.earlier {l : Lock} {providerId : String} {later : Instant}
    (h : l.Holds providerId later) (le : now ≤ later) : l.Holds providerId now := by
  obtain ⟨target, live, lasts⟩ := h
  refine ⟨target, live, ?_⟩
  unfold Lock.lapsed at lasts ⊢
  simp only [decide_eq_false_iff_not, Int.not_le] at lasts ⊢
  exact Int.lt_of_le_of_lt (Instant.wholeSecond_mono le) lasts

namespace Tables

/-- The lock is for a job whose window overlaps this one, in whole seconds. -/
def Covers (t : Tables) (l : Lock) (w : Window) : Prop :=
  ∃ j ∈ t.jobs, j.id = l.jobId ∧ j.window.wholeSeconds.overlaps w.wholeSeconds = true

instance (t : Tables) (l : Lock) (w : Window) : Decidable (t.Covers l w) :=
  inferInstanceAs (Decidable (∃ j ∈ t.jobs, _))

theorem providerLocked_iff {providerId : String} {w : Window} {exclude : Option String} :
    t.providerLocked providerId w now exclude = true ↔
      ∃ l ∈ t.locks, l.Holds providerId now ∧ exclude ≠ some l.jobId ∧ t.Covers l w := by
  unfold providerLocked
  rw [List.any_eq_true]
  refine exists_congr fun l => and_congr_right fun _ => ?_
  simp [Lock.Holds, Covers, LockTarget.providerId?_eq_some, and_assoc]

/-- The two locks do not hold one provider in overlapping windows. -/
def Excludes (t : Tables) (now : Instant) (k l : Lock) : Prop :=
  ∀ providerId, k.Holds providerId now → l.Holds providerId now →
    ∀ j ∈ t.jobs, j.id = l.jobId → ¬ t.Covers k j.window

theorem Excludes.symm {k l : Lock} (h : t.Excludes now k l) : t.Excludes now l k := by
  intro providerId hl hk j hj own ⟨i, hi, other, overlaps⟩
  refine h providerId hk hl i hi other ⟨j, hj, own, ?_⟩
  rw [Window.overlaps_comm]
  exact overlaps

/-- Locks are for stored jobs, and two locks never hold one provider in overlapping windows. -/
structure Exclusive (t : Tables) (now : Instant) : Prop where
  known : ∀ l ∈ t.locks, t.hasJob l.jobId = true
  apart : t.locks.Pairwise (t.Excludes now)

theorem Exclusive.empty : Exclusive {} now where
  known := fun _ h => absurd h List.not_mem_nil
  apart := List.Pairwise.nil

/-- As time goes on, fewer locks hold a provider. -/
theorem Exclusive.later {later : Instant} (h : t.Exclusive now) (le : now ≤ later) :
    t.Exclusive later where
  known := h.known
  apart := h.apart.imp fun apart providerId hk hl =>
    apart providerId (hk.earlier le) (hl.earlier le)

/-! ## Jobs do not move -/

/-- A lock for a stored job is for the same windows as before. -/
theorem JobsStay.covers_iff (h : t.JobsStay t') {l : Lock} {w : Window}
    (known : t.hasJob l.jobId = true) : t'.Covers l w ↔ t.Covers l w := by
  constructor
  · rintro ⟨j', hj', own, overlaps⟩
    obtain ⟨j, hj, same, window⟩ := h.windows j' hj' (own ▸ known)
    exact ⟨j, hj, same.trans own, window ▸ overlaps⟩
  · rintro ⟨j, hj, own, overlaps⟩
    obtain ⟨j', hj', same, window⟩ := h.stored j hj
    exact ⟨j', hj', same.trans own, window ▸ overlaps⟩

end Tables

/-! ## What a step does to the locks -/

namespace Tables.Exclusive

/-- Jobs may be added and may change, as long as none moves. -/
theorem jobs (h : t.Exclusive now) (stay : t.JobsStay t') (same : t'.locks = t.locks) :
    t'.Exclusive now := by
  constructor
  · rw [same]
    exact fun l hl => stay.hasJob (h.known l hl)
  · rw [same]
    refine h.apart.imp_of_mem fun {k l} hk hl apart providerId holds holds' j' hj' own => ?_
    -- A lock is for a stored job, so no new job is the lock's.
    obtain ⟨j, hj, same, window⟩ := stay.windows j' hj' (own ▸ h.known l hl)
    rw [stay.covers_iff (h.known k hk), ← window]
    exact apart providerId holds holds' j hj (same.trans own)

/-- Locks may change as long as none comes to hold a provider. -/
theorem change {f : Lock → Lock} (h : t.Exclusive now) (same : t'.jobs = t.jobs)
    (hf : ∀ l ∈ t.locks, (f l).jobId = l.jobId ∧
      ∀ providerId, (f l).Holds providerId now → l.Holds providerId now)
    (changed : t'.locks = t.locks.map f) : t'.Exclusive now := by
  constructor
  · rw [changed]
    intro l hl
    obtain ⟨k, hk, rfl⟩ := List.mem_map.mp hl
    rw [(hf k hk).1]
    exact (JobsStay.of_eq same).hasJob (h.known k hk)
  · rw [changed, List.pairwise_map]
    refine h.apart.imp_of_mem fun {k l} hk hl apart providerId holds holds' j hj own => ?_
    rintro ⟨i, hi, own', overlaps⟩
    exact apart providerId ((hf k hk).2 _ holds) ((hf l hl).2 _ holds') j (same ▸ hj)
      (own.trans (hf l hl).1) ⟨i, same ▸ hi, own'.trans (hf k hk).1, overlaps⟩

/-- A lock may be added that holds no provider whom another one holds. -/
theorem add {l : Lock} (h : t.Exclusive now) (same : t'.jobs = t.jobs)
    (known : t.hasJob l.jobId = true) (apart : ∀ k ∈ t.locks, t.Excludes now k l.stored)
    (added : t'.locks = t.locks ++ [l.stored]) : t'.Exclusive now := by
  have stay := JobsStay.of_eq same
  constructor
  · rw [added]
    intro k hk
    rcases List.mem_append.mp hk with old | new
    · exact stay.hasJob (h.known k old)
    · rw [List.mem_singleton.mp new]
      exact stay.hasJob known
  · rw [added, List.pairwise_append]
    have excludes : t'.Excludes now = t.Excludes now := by
      unfold Excludes Covers
      rw [same]
    rw [excludes]
    refine ⟨h.apart, List.pairwise_singleton _ _, fun k hk l' hl' => ?_⟩
    rw [List.mem_singleton.mp hl']
    exact apart k hk

/-- A lock may be released. -/
theorem release {id : String} {reason : ReleaseReason} {expiresAt : Instant}
    (h : t.Exclusive now) (same : t'.jobs = t.jobs)
    (released : t'.locks = (t.setLockState id .released (some reason) expiresAt now).locks) :
    t'.Exclusive now := by
  refine h.change same (fun l _ => ?_) released
  split
  · exact ⟨rfl, fun _ ⟨_, live, _⟩ => by cases live⟩
  · exact ⟨rfl, fun _ holds => holds⟩

/-- A held lock may be confirmed: if it has lapsed, it stays so. -/
theorem confirm {l : Lock} (h : t.Exclusive now) (nodup : (t.locks.map (·.id)).Nodup)
    (same : t'.jobs = t.jobs) (hl : l ∈ t.locks) (held : l.status = .held)
    (confirmed : t'.locks
      = (t.setLockState l.id .confirmed none (Locks.confirmed l now).expiresAt now).locks) :
    t'.Exclusive now := by
  refine h.change same (fun k hk => ?_) confirmed
  by_cases hit : (k.id == l.id) = true
  · obtain rfl : k = l := List.inj_on_of_nodup_map nodup hk hl (by simpa using hit)
    rw [if_pos hit]
    refine ⟨rfl, fun providerId ⟨target, _, lasts⟩ => ⟨target, ?_, ?_⟩⟩
    · unfold Lock.isLive
      rw [held]
      rfl
    · unfold Locks.confirmed at lasts
      by_cases lapsed : k.lapsed now = true
      · -- It would expire at this very instant.
        rw [if_pos lapsed] at lasts
        simp [Lock.lapsed] at lasts
      · exact Bool.eq_false_iff.mpr lapsed
  · rw [if_neg hit]
    exact ⟨rfl, fun _ holds => holds⟩

end Tables.Exclusive

theorem Calm.exclusive (h : Calm now t t') (keyed : t.Keyed) (exclusive : t.Exclusive now) :
    t'.Exclusive now := by
  rcases h.locks_cases with locks | ⟨jobs, ⟨l, j, providerId, -, found, target, unlocked, added⟩
    | ⟨l, hl, held, confirmed⟩ | ⟨l, -, reason, -, released⟩⟩
  · exact exclusive.jobs h.jobsStay locks
  · refine exclusive.add jobs (any_key.mpr ⟨j, mem_of_find?_key found⟩) ?_ added
    intro k hk providerId' holds holds' i hi own covers
    -- Nobody held the provider in the window of the lock's job.
    obtain rfl : providerId = providerId' := LockTarget.provider.inj (target.symm.trans holds'.1)
    obtain rfl : j = i := (eq_of_find?_key keyed.jobs found hi own).symm
    have locked : t.providerLocked providerId j.window now none = true :=
      Tables.providerLocked_iff.mpr ⟨k, hk, holds, nofun, covers⟩
    rw [unlocked] at locked
    cases locked
  · exact exclusive.confirm keyed.locks jobs hl held confirmed
  · exact exclusive.release jobs released

/-- **Every step keeps locks on providers exclusive.** -/
theorem Step.exclusive {p q : Tables × List String} (h : Step now p q) (keyed : p.1.Keyed)
    (exclusive : p.1.Exclusive now) : q.1.Exclusive now := by
  cases h with
  | ebb h =>
    cases h with
    | calm h => exact h.exclusive keyed exclusive
    | settle => exact exclusive.release rfl rfl
  | @holdTeam t decided l j slot _ _ found _ _ _ target =>
    have apart : ∀ k ∈ t.locks, t.Excludes now k l.stored := by
      intro k _ providerId _ holds
      cases target.symm.trans holds.1
    have known : t.hasJob l.jobId = true := any_key.mpr ⟨j, mem_of_find?_key found⟩
    exact Tables.Exclusive.add exclusive rfl known apart rfl

/-! ## Runs -/

namespace Run

variable {past : List (Engine × Operation)} {e e₀ : Engine} {op : Operation}

theorem instants_append (past : List (Engine × Operation)) (e : Engine) (op : Operation) :
    instants (past ++ [(e, op)]) = instants past ++ (op.instant? e).toList := by
  unfold instants
  rw [List.filterMap_append]
  congr 1

/-- **Locks on providers exclude each other** from the last instant of a run on, if its clock does
not go back. -/
theorem exclusive (run : Run past e) (timely : IsTimely past) :
    ∀ later, (∀ i ∈ instants past, i ≤ later) → e.store.tables.Exclusive later := by
  refine (run.induct (P := fun past e => e.Ready ∧ (IsTimely past → ∀ later,
    (∀ i ∈ instants past, i ≤ later) → e.store.tables.Exclusive later)) ?_ ?_).2 timely
  · intro e empty idle quiet
    refine ⟨⟨idle, empty ▸ .empty, quiet⟩, fun _ later _ => ?_⟩
    rw [empty]
    exact .empty
  · rintro past e op ⟨ready, ih⟩ admissible
    have kept : ∀ now, (∀ i, op.instant? e = some i → i = now) → e.store.tables.Exclusive now →
        (op.after e).store.tables.Exclusive now := by
      intro now timed exclusive
      exact Steps.holds (I := fun p => p.1.Exclusive now)
        (fun _ _ keyed exclusive step => step.exclusive keyed exclusive)
        ((op.steps ready admissible timed).1 []) ready.keyed exclusive
    refine ⟨(op.steps ready admissible Operation.eq_of_instant?).2, fun timely later upTo => ?_⟩
    unfold IsTimely at timely
    rw [instants_append, List.pairwise_append] at timely
    rw [instants_append] at upTo
    obtain ⟨timely, -, before⟩ := timely
    -- An operation that looks at the time has an instant that no earlier one exceeds; any other
    -- takes its steps whenever we like.
    cases at_ : op.instant? e with
    | none =>
      refine kept later (fun i hi => ?_) (ih timely later fun i hi => ?_)
      · rw [at_] at hi
        cases hi
      · exact upTo i (List.mem_append_left _ hi)
    | some now =>
      have last : now ∈ (op.instant? e).toList := by
        rw [at_]
        exact List.mem_singleton_self now
      refine (kept now (fun i hi => ?_) (ih timely now fun i hi => ?_)).later ?_
      · rw [at_] at hi
        exact (Option.some.inj hi).symm
      · exact before i hi now last
      · exact upTo now (List.mem_append_right _ last)

end Run

end Staffing
