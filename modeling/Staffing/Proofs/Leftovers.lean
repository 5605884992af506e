import Staffing.Proofs.Conservation
import Staffing.Proofs.Frames
import Staffing.Proofs.Sending

/-!
# What a matched job leaves locked

A promotion ends all live locks of its job. Those by which it was decided keep their units booked,
as work that is now committed, and all others give theirs back. An automatic assignment does not
look at the locks of its job: they stay live, and their units stay booked.

* `Tables.TakesOff` — slots and plans have lost the units of some locks
* `Tables.Frees` — a job has no live lock left, and its units were taken off
* `Promotion.eachSettle_takesOff` — the loop over the locks of a promoted job does that
* `Engine.Matches` — a call has answered that it staffed a job
* `matched_frees_iff` — when a job that was staffed is freed of its locks
-/

namespace Staffing

variable {now : Instant} {t t' t'' : Tables} {s s' : Store} {e e' : Engine}

/-! ## Units that are taken off -/

/-- The units that the locks reserve on the slots that satisfy `p`. -/
def Lock.unitsOn (p : String → Bool) (locks : List Lock) : Nat :=
  units (locks.filter fun l => l.target.slotId?.any p)

theorem Lock.unitsOn_append (p : String → Bool) (first second : List Lock) :
    unitsOn p (first ++ second) = unitsOn p first + unitsOn p second := by
  unfold unitsOn
  rw [List.filter_append, units_eq_sum, units_eq_sum, units_eq_sum, List.map_append,
    List.sum_append]

theorem Lock.unitsOn_singleton (p : String → Bool) (l : Lock) :
    unitsOn p [l] = if l.target.slotId?.any p then l.count else 0 := by
  unfold unitsOn
  rw [units_eq_sum, sum_filter_map, List.map_singleton, List.sum_singleton]

namespace Tables

/-- Does the slot of this id stand on the plan? -/
def standsOn (t : Tables) (planId slotId : String) : Bool :=
  (t.slot? slotId).any (·.planId == planId)

/-- Slots, and the plans on which they stand, have lost the units of the locks `freed`, and have not
changed otherwise. -/
structure TakesOff (freed : List Lock) (t t' : Tables) : Prop where
  slots : t.slots = t'.slots.map fun slot =>
    { slot with booked := slot.booked + Lock.unitsOn (· == slot.id) freed }
  plans : t.plans = t'.plans.map fun plan =>
    { plan with booked := plan.booked + Lock.unitsOn (t.standsOn plan.id) freed }

/-- The job has no live lock any more, and the units of those that it had were taken off their slots
and plans, but for the locks `spent`. -/
structure Frees (jobId : String) (spent : List String) (t t' : Tables) : Prop where
  noneLive : t'.locksFor jobId none false = []
  takesOff :
    TakesOff ((t.locksFor jobId none false).filter fun l => !spent.contains l.id) t t'

namespace TakesOff

/-- Nothing is taken off where slots and plans have not changed. -/
theorem of_eq (slots : t'.slots = t.slots) (plans : t'.plans = t.plans) :
    TakesOff [] t t' := by
  constructor
  · rw [slots]
    exact (List.map_id t.slots).symm
  · rw [plans]
    exact (List.map_id t.plans).symm

/-- Slots stay on their plans. -/
theorem standsOn {freed : List Lock} (h : TakesOff freed t t') : t.standsOn = t'.standsOn := by
  funext planId slotId
  unfold Tables.standsOn slot?
  rw [h.slots, List.find?_map, Option.any_map]
  rfl

theorem trans {freed freed' : List Lock} (h : TakesOff freed t t') (h' : TakesOff freed' t' t'') :
    TakesOff (freed ++ freed') t t'' := by
  -- What was booked is what was left of it later, and both amounts that were taken off.
  have sum (p : String → Bool) (booked : Nat) :
      booked + Lock.unitsOn p freed' + Lock.unitsOn p freed
        = booked + Lock.unitsOn p (freed ++ freed') := by
    rw [Lock.unitsOn_append]
    omega
  constructor
  · rw [h.slots, h'.slots, List.map_map]
    refine List.map_congr_left fun slot _ => ?_
    exact congrArg (fun booked => { slot with booked }) (sum _ _)
  · rw [h.plans, h'.plans, List.map_map, h.standsOn]
    refine List.map_congr_left fun plan _ => ?_
    exact congrArg (fun booked => { plan with booked }) (sum _ _)

/-- A lock gives back its units. -/
theorem giveBack (keyed : t.LedgerKeyed) {l : Lock} (h : t.ReturnsAll l) :
    TakesOff [l] t (t.giveBack l) := by
  obtain ⟨target, same⟩ | ⟨slot, plan, target, hs, found, gives, slotMoved, planMoved⟩ :=
    Balanced.giveBack_cases h
  · have nothing (p : String → Bool) : Lock.unitsOn p [l] = 0 := by
      rw [Lock.unitsOn_singleton, target]
      rfl
    rw [same]
    constructor
    · simp only [nothing]
      exact (List.map_id t.slots).symm
    · simp only [nothing]
      exact (List.map_id t.plans).symm
  · obtain ⟨hp, onPlan⟩ := (plan?_eq_some keyed).mp found
    have units (p : String → Bool) : Lock.unitsOn p [l] = if p slot.id then l.count else 0 := by
      rw [Lock.unitsOn_singleton, target]
      rfl
    have stands (planId : String) : t.standsOn planId slot.id = (slot.planId == planId) := by
      unfold Tables.standsOn
      rw [(slot?_eq_some keyed).mpr ⟨hs, rfl⟩]
      rfl
    rw [gives]
    constructor
    · refine map_updateWhere_eq_self keyed.slots hs ?_ fun r _ other => ?_
      · have back : moved slot.booked (-(l.count : Int)) + l.count = slot.booked := by omega
        rw [units, if_pos (beq_self_eq_true _), back]
      · rw [units, if_neg (by simpa using other.symm), Nat.add_zero]
    · show _ = (updateWhere (·.id == slot.planId) _ t.plans).map _
      rw [← onPlan]
      refine map_updateWhere_eq_self keyed.plans hp ?_ fun r _ other => ?_
      · have back : moved plan.booked (-(l.count : Int)) + l.count = plan.booked := by omega
        rw [units, stands, if_pos (by simpa using onPlan.symm), back]
      · rw [units, stands, ← onPlan, if_neg (by simpa using other.symm), Nat.add_zero]

end TakesOff

end Tables

/-! ## Promotion -/

namespace Promotion

variable {deciding : List String}

/-- A lock of a promoted job is settled: unless it decided, its units are taken off. -/
theorem settle_takesOff {l : Lock} {u : Unit} (sound : s.tables.IsSound) (hl : s.tables.HasLive l)
    (h : settle deciding now l s = .ok u s') :
    s.tables.TakesOff ([l].filter fun l => !deciding.contains l.id) s'.tables := by
  unfold settle at h
  split at h
  · next decides =>
    rw [Work.write_eq_ok] at h
    subst h
    rw [List.filter_cons_of_neg (by simpa using decides)]
    exact .of_eq rfl rfl
  · next other =>
    simp only [bind_eq_ok, pure_eq_ok] at h
    obtain ⟨r, _, released, -, rfl⟩ := h
    obtain ⟨decided, sound⟩ := sound
    have gives := Tables.TakesOff.giveBack sound.keyed (sound.returnsAll hl)
    rw [List.filter_cons_of_pos (by simpa using other), (Locks.releaseOne_eq_ok released).1]
    exact ⟨gives.slots, gives.plans⟩

/-- The live locks of a promoted job are settled one by one. None of them is live afterwards, and no
lock has come to life. -/
theorem eachSettle_takesOff {live : List Lock} {u : Unit} (nodup : (live.map (·.id)).Nodup)
    (sound : s.tables.IsSound) (hlive : ∀ l ∈ live, s.tables.HasLive l)
    (h : Work.each (settle deciding now) live s = .ok u s') :
    s.tables.TakesOff (live.filter fun l => !deciding.contains l.id) s'.tables ∧
      ∀ k, s'.tables.HasLive k → s.tables.HasLive k ∧ k ∉ live := by
  induction live generalizing s with
  | nil =>
    obtain ⟨-, rfl⟩ := pure_eq_ok.mp h
    exact ⟨.of_eq rfl rfl, fun k hk => ⟨hk, List.not_mem_nil⟩⟩
  | cons l rest ih =>
    obtain ⟨_, s₁, first, others⟩ := bind_eq_ok.mp h
    obtain ⟨new, nodupRest⟩ := List.nodup_cons.mp nodup
    have hl := hlive l List.mem_cons_self
    obtain ⟨sound₁, -, keeps⟩ := settle_sound hl first
    obtain ⟨takesOff, ended⟩ := ih nodupRest (sound₁ sound) (fun k hk => keeps k
      (fun same => new (List.mem_map.mpr ⟨k, hk, same⟩)) (hlive k (List.mem_cons_of_mem _ hk)))
      others
    refine ⟨?_, fun k hk => ?_⟩
    · rw [← List.singleton_append, List.filter_append]
      exact (settle_takesOff sound hl first).trans takesOff
    · obtain ⟨⟨hk₁, live₁⟩, later⟩ := ended k hk
      obtain ⟨-, -, -, locks⟩ := settle_ok_cases first
      rw [locks] at hk₁
      -- A lock that is still live is not the one that was settled.
      obtain ⟨q, hq, rfl⟩ := mem_updateWhere.mp hk₁
      split at live₁
      · cases live₁
      · next other =>
        rw [if_neg other] at later ⊢
        refine ⟨⟨hq, live₁⟩, fun again => ?_⟩
        rcases List.mem_cons.mp again with rfl | again
        · exact other (beq_self_eq_true _)
        · exact later again

end Promotion

namespace Engine

/-- **A promotion frees its job of its locks,** but for the units of those by which it was
decided. -/
theorem promote_frees (ready : e.Ready) (sound : e.store.tables.IsSound) {jobId : String}
    {p : Promotion} (h : promote jobId now e = .ok (some p) e') :
    e.store.tables.Frees jobId p.promotedLockIds e'.store.tables := by
  obtain ⟨s', done, rfl⟩ := promote_eq_some.mp h
  obtain ⟨-, ⟨none, -⟩ | ⟨p', j, choice, rows, s₁, s₂, answered, made, rfl, decides, tables₁,
    settled, tables⟩⟩ := Promotion.promote_ok_cases ready.idle ready.keyed done
  · cases none
  · obtain rfl := Option.some.inj answered
    obtain ⟨log, frame⟩ := dispatch_frame (e := { e with store := s' }) now [
          .locksPromoted p.jobId p.promotedLockIds p.providerIds p.teamId,
          .jobMatched p.jobId p.providerIds p.teamId] tables
    -- Staffing the job has left the ledger alone, so its locks are settled as they were read.
    have same : e.store.tables.SameLedger s₁.tables := by
      rw [tables₁]
      exact ⟨rfl, rfl, rfl, rfl⟩
    have live : ∀ l ∈ e.store.tables.locksFor j.id none false, s₁.tables.HasLive l := by
      rw [tables₁]
      exact fun l hl => Locks.mem_locksFor hl
    obtain ⟨decided, sound⟩ := sound
    obtain ⟨takesOff, ended⟩ := Promotion.eachSettle_takesOff
      (Locks.locksFor_nodup ready.keyed.locks j.id none false) ⟨decided, same.sound sound⟩ live
      settled
    rw [frame, made]
    constructor
    · refine List.filter_eq_nil_iff.mpr fun k hk own => ?_
      simp only [Bool.false_or, Bool.and_eq_true, Option.all_none, and_true] at own
      obtain ⟨⟨hk₁, -⟩, other⟩ := ended k ⟨hk, own.2⟩
      rw [same.locks] at hk₁
      refine other (List.mem_filter.mpr ⟨hk₁, ?_⟩)
      simpa using own
    · have whole := (Tables.TakesOff.of_eq same.slots same.plans).trans takesOff
      rw [List.nil_append] at whole
      exact ⟨whole.slots, whole.plans⟩

end Engine

/-! ## Automatic assignment -/

namespace Tables

theorem SameLedger.refl (t : Tables) : t.SameLedger t := ⟨rfl, rfl, rfl, rfl⟩

theorem OnlyDemand.sameLedger (h : t.OnlyDemand t') : t.SameLedger t' := by
  obtain ⟨_, _, rfl⟩ := h
  exact ⟨rfl, rfl, rfl, rfl⟩

end Tables

namespace Engine

theorem commitChoice_sameLedger {choice : Option (Job × Selection)} {answer : Option Selection}
    (h : commitChoice now choice e = .ok answer e') :
    e.store.tables.SameLedger e'.store.tables := by
  cases choice with
  | none =>
    obtain ⟨-, rfl⟩ := pure_eq_ok.mp h
    exact .refl _
  | some choice =>
    obtain ⟨j, selection⟩ := choice
    obtain ⟨committed, e₁, stored, answers⟩ := bind_eq_ok.mp h
    obtain ⟨s', done, rfl⟩ := onStore_eq_ok.mp stored
    have same := (selection.commit_onlyDemand j now _ _ _ done).1.sameLedger
    split at answers
    · obtain ⟨_, e₂, told, answers⟩ := bind_eq_ok.mp answers
      obtain ⟨-, rfl⟩ := pure_eq_ok.mp answers
      obtain ⟨log, frame⟩ := dispatch_frame (e := { e with store := s' }) now
        [.jobMatched j.id selection.providerIds selection.teamId?] rfl
      rw [after_of_ok told] at frame
      rw [frame]
      exact ⟨same.teams, same.plans, same.slots, same.locks⟩
    · obtain ⟨-, rfl⟩ := pure_eq_ok.mp answers
      exact same

/-- A call has answered that it staffed the job. A promotion has answered by which locks, too. -/
inductive Matches (e : Engine) (jobId : String) (now : Instant) :
    Option (List String) → Engine → Prop
  | autoAssign {selection : Selection} {e' : Engine} :
      autoAssign jobId now e = .ok (some selection) e' → Matches e jobId now none e'
  /-- The choice was made on the engine `view`, older or otherwise different. -/
  | commitSeen {view : Engine} {selection : Selection} {e' : Engine} :
      commitSeen view jobId now e = .ok (some selection) e' → Matches e jobId now none e'
  | promote {p : Promotion} {e' : Engine} :
      promote jobId now e = .ok (some p) e' → Matches e jobId now (some p.promotedLockIds) e'

/-- Unless a promotion staffs it, a job keeps its locks. -/
theorem Matches.sameLedger (quiet : e.priceSource.IsQuiet) {jobId : String}
    (h : e.Matches jobId now none e') : e.store.tables.SameLedger e'.store.tables := by
  cases h with
  | autoAssign done =>
    obtain ⟨choice, e₁, chosen, committed⟩ := bind_eq_ok.mp done
    have rests : e.Rests (after (choose jobId now) e) := rests_choose quiet jobId
    rw [after_of_ok chosen] at rests
    rw [← rests.store]
    exact commitChoice_sameLedger committed
  | @commitSeen view _ _ done =>
    unfold Engine.commitSeen at done
    cases chosen : choose jobId now view with
    | ok choice view' =>
      rw [chosen] at done
      exact commitChoice_sameLedger done
    | error fault view' =>
      rw [chosen] at done
      cases done

end Engine

/-- **A job that is matched keeps its locks unless a promotion matches it.** In every state that a
run reaches, let a call staff a job. Then the job is freed of its locks, and the units of those that
did not decide are taken off slots and plans, exactly if the call is a promotion or there was
nothing to free. An automatic assignment leaves all locks, slots and plans as they were. -/
theorem matched_frees_iff {past : List (Engine × Operation)} (run : Run past e) {jobId : String}
    {deciding : Option (List String)} (staffed : e.Matches jobId now deciding e') :
    (e.store.tables.Frees jobId (deciding.getD []) e'.store.tables ↔
        deciding.isSome ∨ e.store.tables.locksFor jobId none false = []) ∧
      (deciding = none → e.store.tables.SameLedger e'.store.tables) := by
  cases deciding with
  | some ids =>
    cases staffed with
    | promote done =>
      have frees := Engine.promote_frees run.ready ⟨_, run.sound⟩ done
      exact ⟨⟨fun _ => .inl rfl, fun _ => frees⟩, fun never => by cases never⟩
  | none =>
    have same := staffed.sameLedger run.ready.quiet
    have asBefore : e'.store.tables.locksFor jobId none false
        = e.store.tables.locksFor jobId none false := by
      unfold Tables.locksFor
      rw [same.locks]
    refine ⟨⟨fun frees => .inr (asBefore ▸ frees.noneLive), ?_⟩, fun _ => same⟩
    rintro (never | nothing)
    · cases never
    · refine ⟨asBefore.trans nothing, ?_⟩
      rw [nothing]
      exact .of_eq same.slots same.plans

/-- A job with confirmed locks on two teams. -/
def Sample.lockedTwice : List Operation := [
  .insertProvider (provider "ada"), .createTeam admin (team ["ada"]),
  .createTeam admin (team ["ada"]), .createJob (job 9),
  .createLocks admin (idText "job" 2) ⟨.team (idText "team" 0) none, none⟩,
  .createLocks admin (idText "job" 2) ⟨.team (idText "team" 1) none, none⟩,
  .confirmLocks admin (idText "job" 2) none]

/-- A promotion frees the job: the second lock gives its unit back. -/
theorem matched_frees_iff_lockedTwice : ∃ past e p e', Run past e ∧
    Engine.promote (idText "job" 2) 0 e = .ok (some p) e' ∧
      e.store.tables.slots.map (·.booked) = [1, 1] ∧
      e'.store.tables.slots.map (·.booked) = [1, 0] ∧
      e.store.tables.Frees (idText "job" 2) p.promotedLockIds e'.store.tables := by
  obtain ⟨e, left⟩ : ∃ e, e = Operation.afterAll Sample.lockedTwice Sample.engine := ⟨_, rfl⟩
  have run : Run (Operation.trace Sample.lockedTwice Sample.engine) e := left ▸
    Run.of_operations rfl rfl (fun _ _ _ => rfl)
      (by simp [Sample.lockedTwice, Operation.IsAdmissible])
  obtain ⟨booked, booked', staffs⟩ : e.store.tables.slots.map (·.booked) = [1, 1] ∧
      ((Operation.promote (idText "job" 2) 0).after e).store.tables.slots.map (·.booked) = [1, 0] ∧
      (answer? (Engine.promote (idText "job" 2) 0) e).join.isSome = true := by
    rw [left]
    decide +kernel
  obtain ⟨p, e', done⟩ : ∃ p e', Engine.promote (idText "job" 2) 0 e = .ok (some p) e' := by
    obtain ⟨p, answered⟩ := Option.isSome_iff_exists.mp staffs
    exact ⟨p, _, answer?_eq_some.mp (Option.join_eq_some_iff.mp answered)⟩
  obtain ⟨iff, -⟩ := matched_frees_iff run (.promote done)
  refine ⟨_, e, p, e', run, done, booked, ?_, iff.mpr (.inl rfl)⟩
  rw [← after_of_ok done]
  exact booked'

/-- So it is not so that a job that is matched is always freed of its locks: an automatic assignment
leaves both. -/
theorem not_always_freed : ¬ ∀ (past : List (Engine × Operation)) (e : Engine), Run past e →
    ∀ (jobId : String) (now : Instant) (deciding : Option (List String)) (e' : Engine),
      e.Matches jobId now deciding e' →
        e.store.tables.Frees jobId (deciding.getD []) e'.store.tables := by
  intro always
  obtain ⟨e, left⟩ : ∃ e, e = Operation.afterAll Sample.lockedTwice Sample.engine := ⟨_, rfl⟩
  have run : Run (Operation.trace Sample.lockedTwice Sample.engine) e := left ▸
    Run.of_operations rfl rfl (fun _ _ _ => rfl)
      (by simp [Sample.lockedTwice, Operation.IsAdmissible])
  obtain ⟨locked, staffs⟩ : (e.store.tables.locksFor (idText "job" 2) none false).length = 2 ∧
      (answer? (Engine.autoAssign (idText "job" 2) 0) e).join.isSome = true := by
    rw [left]
    decide +kernel
  obtain ⟨selection, e', done⟩ :
      ∃ selection e', Engine.autoAssign (idText "job" 2) 0 e = .ok (some selection) e' := by
    obtain ⟨selection, answered⟩ := Option.isSome_iff_exists.mp staffs
    exact ⟨selection, _, answer?_eq_some.mp (Option.join_eq_some_iff.mp answered)⟩
  have staffed : e.Matches (idText "job" 2) 0 none e' := .autoAssign done
  have noneLive := (always _ e run _ _ _ _ staffed).noneLive
  have same := (staffed.sameLedger run.ready.quiet).locks
  unfold Tables.locksFor at noneLive locked
  rw [← same, noneLive] at locked
  cases locked

end Staffing
