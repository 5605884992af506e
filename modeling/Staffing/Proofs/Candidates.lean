import Staffing.Proofs.Picking
import Staffing.Proofs.TeamEligibility

/-!
# Who is a candidate

What a provider needs for being a candidate, said without the queries. In the tables all windows and
expiries are those of whole seconds, and so is the window that is asked for.

* `Tables.InWholeSeconds`, `Run.inWholeSeconds` — the tables of every state that a run reaches
* `Provider.CanTake` — what is asked of a provider
* `candidates_sound_complete` — the candidates are those providers, by id
-/

namespace Staffing

variable {t : Tables} {config : Config} {criteria : Criteria} {now : Instant} {p : Provider}

/-- Windows and expiries are stored in whole seconds. -/
structure Tables.InWholeSeconds (t : Tables) : Prop where
  jobs : ∀ j ∈ t.jobs, j.window.wholeSeconds = j.window
  assignments : ∀ a ∈ t.assignments, a.window.wholeSeconds = a.window
  expiries : t.ExpiriesWhole

theorem Run.inWholeSeconds {past : List (Engine × Operation)} {e : Engine} (run : Run past e) :
    e.store.tables.InWholeSeconds where
  jobs := fun j hj => (run.orderly.jobs j hj).2
  assignments := run.keepsApart.whole
  expiries := run.expiriesWhole

/-! ## What is asked of a provider -/

/-- What a provider needs for being a candidate. -/
structure Provider.CanTake (p : Provider) (t : Tables) (config : Config) (criteria : Criteria)
    (now : Instant) : Prop where
  active : p.active = true
  offers : criteria.service ∈ p.services
  eco : criteria.ecoRequired = true → p.ecoFriendly = true
  asked : ∀ ids, criteria.providerIds = some ids → p.id ∈ ids
  notOff : ∀ off ∈ p.timeOff, off.overlaps criteria.window = false
  /-- No blocking assignment on a job that counts overlaps the window. -/
  unassigned : ∀ a ∈ t.assignments, a.providerId = p.id → a.status.isBlocking = true →
    criteria.excludeJob ≠ some a.jobId → a.window.overlaps criteria.window = false
  /-- No lock that is held or confirmed and still lasts is for a job that counts and overlaps the
  window. -/
  unlocked : ∀ l ∈ t.locks, l.target = .provider p.id → l.status = .held ∨ l.status = .confirmed →
    now < l.expiresAt → criteria.excludeJob ≠ some l.jobId →
    ∀ j ∈ t.jobs, j.id = l.jobId → j.window.overlaps criteria.window = false
  /-- Hours cover the window at least nearly, and the assignments to come together with the share of
  the weekly time are a finite load; or all are wanted. -/
  usable : (Coverage.resolve p.slots p.timeOff criteria.window config.bufferMinutes).tier
        ≠ .unavailable ∧
      (Float.ofNat (t.history p.id criteria.clientId now config.scoring.reliabilityDays).forwardLoad
        + (Coverage.resolve p.slots p.timeOff criteria.window config.bufferMinutes).load
      ).isFinite = true ∨
    criteria.includeUnavailable = true

theorem Provider.not_isBusy_iff : t.isBusy criteria now p = false ↔
    (∀ off ∈ p.timeOff, off.overlaps criteria.window = false) ∧
    t.hasConflict p.id criteria.window criteria.excludeJob = false ∧
    t.providerLocked p.id criteria.window now criteria.excludeJob = false := by
  unfold Tables.isBusy timeOffOverlaps
  simp only [Bool.or_eq_false_iff, List.any_eq_false, Bool.not_eq_true, and_assoc,
    Window.overlaps_comm criteria.window]

section Rows

variable (whole : t.InWholeSeconds) (asks : criteria.window.wholeSeconds = criteria.window)
include whole asks

theorem Tables.hasConflict_eq_false_iff :
    t.hasConflict p.id criteria.window criteria.excludeJob = false ↔
      ∀ a ∈ t.assignments, a.providerId = p.id → a.status.isBlocking = true →
        criteria.excludeJob ≠ some a.jobId → a.window.overlaps criteria.window = false := by
  rw [Bool.eq_false_iff, ne_eq, hasConflict_iff_exists, asks]
  simp only [not_exists, not_and, Bool.not_eq_true]
  refine forall₂_congr fun a ha => ?_
  rw [whole.assignments a ha]
  tauto

theorem Tables.providerLocked_eq_false_iff :
    t.providerLocked p.id criteria.window now criteria.excludeJob = false ↔
      ∀ l ∈ t.locks, l.target = .provider p.id → l.status = .held ∨ l.status = .confirmed →
        now < l.expiresAt → criteria.excludeJob ≠ some l.jobId →
        ∀ j ∈ t.jobs, j.id = l.jobId → j.window.overlaps criteria.window = false := by
  rw [Bool.eq_false_iff, ne_eq, providerLocked_iff]
  unfold Lock.Holds Covers
  simp only [not_exists, not_and, and_imp, Bool.not_eq_true]
  refine forall₂_congr fun l hl => ?_
  rw [l.isLive_iff, Lock.lapsed_eq (whole.expiries l hl), decide_eq_false_iff_not, Int.not_le]
  refine forall₅_congr fun _ _ _ _ j => ?_
  refine forall_congr' fun hj => ?_
  rw [whole.jobs j hj, asks]

/-- Whoever is found, not busy, and usable where that is wanted, can take the job. -/
theorem Provider.canTake_iff : p.CanTake t config criteria now ↔
    (p.active && p.offers criteria.service && (!criteria.ecoRequired || p.ecoFriendly) &&
      criteria.providerIds.all (·.contains p.id)) = true ∧ t.isBusy criteria now p = false ∧
    ((p.candidate t config criteria now).isUsable || criteria.includeUnavailable) = true := by
  rw [not_isBusy_iff, Tables.hasConflict_eq_false_iff whole asks,
    Tables.providerLocked_eq_false_iff whole asks]
  have offers : p.offers criteria.service = true ↔ criteria.service ∈ p.services :=
    List.contains_iff_mem
  have eco : (!criteria.ecoRequired || p.ecoFriendly) = true ↔
      (criteria.ecoRequired = true → p.ecoFriendly = true) := by
    cases criteria.ecoRequired <;> simp
  have asked : criteria.providerIds.all (·.contains p.id) = true ↔
      ∀ ids, criteria.providerIds = some ids → p.id ∈ ids := by
    cases criteria.providerIds <;> simp
  have usable : ((p.candidate t config criteria now).isUsable || criteria.includeUnavailable) = true
      ↔ (p.candidate t config criteria now).tier ≠ .unavailable ∧
          (p.candidate t config criteria now).load.isFinite = true ∨
        criteria.includeUnavailable = true := by
    simp [Candidate.isUsable, Tier.isAvailable]
  rw [Bool.and_eq_true, Bool.and_eq_true, Bool.and_eq_true, offers, eco, asked, usable]
  constructor
  · intro h
    exact ⟨⟨⟨⟨h.active, h.offers⟩, h.eco⟩, h.asked⟩, ⟨h.notOff, h.unassigned, h.unlocked⟩, h.usable⟩
  · rintro ⟨⟨⟨⟨active, offers⟩, eco⟩, asked⟩, ⟨notOff, unassigned, unlocked⟩, usable⟩
    exact ⟨active, offers, eco, asked, notOff, unassigned, unlocked, usable⟩

end Rows

/-! ## The candidates -/

namespace Tables

/-- Found providers are in the order of their ids. -/
theorem findProviders_sorted (keyed : (t.providers.map (·.id)).Nodup) (service : String)
    (ecoOnly : Bool) (ids : Option (List String)) :
    (t.findProviders service ecoOnly ids).Pairwise fun p q => p.id < q.id := by
  have sorted : (t.findProviders service ecoOnly ids).Pairwise
      fun p q => decide (p.id ≤ q.id) = true := by
    refine List.pairwise_mergeSort ?_ ?_ _
    · intro p q r
      simp only [decide_eq_true_iff]
      exact le_trans
    · intro p q
      simpa using le_total p.id q.id
  have distinct := List.pairwise_map.mp (findProviders_nodup keyed service ecoOnly ids)
  refine (sorted.and distinct).imp fun ⟨upTo, differ⟩ => ?_
  exact lt_of_le_of_ne (of_decide_eq_true upTo) differ

/-- Candidates are in the order of the ids of their providers. -/
theorem candidates_sorted (keyed : (t.providers.map (·.id)).Nodup) (config : Config)
    (criteria : Criteria) (now : Instant) :
    ((t.candidates config criteria now).map (·.provider.id)).Pairwise (· < ·) := by
  unfold candidates
  rw [List.pairwise_map]
  refine List.Pairwise.sublist List.filter_sublist ?_
  rw [List.pairwise_map]
  exact (findProviders_sorted keyed _ _ _).sublist List.filter_sublist

end Tables

/-- **The candidates are those who can take the job.** Providers are stored once, and windows and
expiries in whole seconds; the window that is asked for is one of whole seconds, too. Then the
candidates stand in the order of their ids, and a stored provider is among them if and only if he
can take the job. -/
theorem candidates_sound_complete (config : Config) (now : Instant)
    (keyed : (t.providers.map (·.id)).Nodup) (whole : t.InWholeSeconds)
    (asks : criteria.window.wholeSeconds = criteria.window) :
    ((t.candidates config criteria now).map (·.provider.id)).Pairwise (· < ·) ∧
    (∀ c ∈ t.candidates config criteria now, c = c.provider.candidate t config criteria now) ∧
    ∀ p, (∃ c ∈ t.candidates config criteria now, c.provider = p) ↔
      p ∈ t.providers ∧ p.CanTake t config criteria now := by
  refine ⟨Tables.candidates_sorted keyed config criteria now, fun c hc => ?_, fun p => ?_⟩
  · obtain ⟨p, -, rfl, -⟩ := Tables.mem_candidates.mp hc
    rfl
  · rw [Provider.canTake_iff whole asks]
    constructor
    · rintro ⟨c, hc, rfl⟩
      obtain ⟨p, stored, rfl, can⟩ := Tables.mem_candidates.mp hc
      exact ⟨stored, can⟩
    · rintro ⟨stored, can⟩
      exact ⟨_, Tables.mem_candidates.mpr ⟨p, stored, rfl, can⟩, rfl⟩

/-- Both members of the team are candidates, so they can take the job. -/
theorem candidates_sound_complete_onePair : ∃ past e, Run past e ∧
    ∀ id ∈ ["ada", "bob"], ∃ p ∈ e.store.tables.providers, p.id = id ∧
      p.CanTake e.store.tables e.config Sample.forTwo e.now := by
  obtain ⟨e, made⟩ : ∃ e, e = Operation.afterAll Sample.onePair Sample.engine := ⟨_, rfl⟩
  have run : Run (Operation.trace Sample.onePair Sample.engine) e := made ▸
    Run.of_operations rfl rfl (fun _ _ _ => rfl)
      (by simp [Sample.onePair, Operation.IsAdmissible])
  have eligible : ∀ id ∈ ["ada", "bob"], id ∈ e.eligibleIds Sample.forTwo :=
    made ▸ Sample.onePair_eligible
  have asks : Sample.forTwo.window.wholeSeconds = Sample.forTwo.window := by decide +kernel
  obtain ⟨-, -, complete⟩ := candidates_sound_complete e.config e.now run.ready.keyed.providers
    run.inWholeSeconds asks
  refine ⟨_, e, run, fun id hid => ?_⟩
  obtain ⟨c, hc, rfl⟩ := List.mem_map.mp (eligible id hid)
  obtain ⟨stored, can⟩ := (complete c.provider).mp ⟨c, (List.mem_filter.mp hc).1, rfl⟩
  exact ⟨c.provider, stored, rfl, can⟩

end Staffing
