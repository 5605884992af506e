import Staffing.Proofs.ExactPromotion
import Staffing.Proofs.Headroom
import Staffing.Proofs.LockEvents
import Staffing.Proofs.TeamEligibility
import Staffing.Proofs.Turns

/-!
# Inactive teams

A team that has been set inactive is no longer matched, and a check refuses it. Two calls do not
look whether a team is active: one makes locks on whatever stored team it is given, and a promotion
goes by the team of a lock. No other call hands work to an inactive team.

* `Tables.SparesTeam` — no lock, no assignment and no job to take over is new to the team
* `Engine.choose_active`, `Engine.matchTeamAt_active` — teams that are matched are active
* `Operation.HandsWorkTo` — a lock is made on the team, or a promotion goes by one
* `Run.sparesTeam_iff`, `Run.sweep_sparesTeam_iff` — operations and sweeps spare the team otherwise
* `inactive_teams_are_spared_iff` — what remains closed to an inactive team, and what does not
* `not_inactive_teams_are_spared` — a lock is made on one
-/

namespace Staffing

variable {now : Instant} {t t' t'' : Tables} {s s' : Store} {e e' : Engine} {j : Job}
  {teamId jobId : String} {past : List (Engine × Operation)}

/-! ## The tables -/

namespace Tables

/-- No team of the id is active. -/
def IsInactive (t : Tables) (teamId : String) : Prop :=
  ∀ team ∈ t.teams, team.id = teamId → team.active = false

instance (t : Tables) (teamId : String) : Decidable (t.IsInactive teamId) :=
  inferInstanceAs (Decidable (∀ team ∈ t.teams, team.id = teamId → team.active = false))

/-- The ids of the locks on the team. -/
def lockIdsOn (t : Tables) (teamId : String) : List String :=
  (t.locks.filter (·.target.teamId? = some teamId)).map (·.id)

/-- The ids of the assignments that were made for the team. -/
def assignmentIdsFor (t : Tables) (teamId : String) : List String :=
  (t.assignments.filter (·.teamId = some teamId)).map (·.id)

/-- The ids of the jobs that the team could take over. -/
def fallbackIdsFor (t : Tables) (teamId : String) : List String :=
  (t.jobs.filter (·.fallbackTeam = some teamId)).map (·.id)

/-- The team has been handed nothing: no lock on it and no assignment that carries its id is new,
and there is no job which it has come to be the fallback of. -/
structure SparesTeam (t t' : Tables) (teamId : String) : Prop where
  locks : t'.lockIdsOn teamId ⊆ t.lockIdsOn teamId
  assignments : t'.assignmentIdsFor teamId ⊆ t.assignmentIdsFor teamId
  fallbacks : t'.fallbackIdsFor teamId ⊆ t.fallbackIdsFor teamId

namespace SparesTeam

theorem refl (t : Tables) (teamId : String) : t.SparesTeam t teamId :=
  ⟨List.Subset.refl _, List.Subset.refl _, List.Subset.refl _⟩

theorem trans (h : t.SparesTeam t' teamId) (h' : t'.SparesTeam t'' teamId) :
    t.SparesTeam t'' teamId where
  locks := List.Subset.trans h'.locks h.locks
  assignments := List.Subset.trans h'.assignments h.assignments
  fallbacks := List.Subset.trans h'.fallbacks h.fallbacks

end SparesTeam

/-- A lock on the team is new. -/
theorem mem_lockIdsOn {l : Lock} {slotId : String} (target : l.target = .team teamId slotId)
    (locks : t'.locks = t.locks ++ [l.stored]) (nodup : (t'.locks.map (·.id)).Nodup) :
    l.id ∈ t'.lockIdsOn teamId ∧ l.id ∉ t.lockIdsOn teamId := by
  have on : l.stored.target.teamId? = some teamId := by
    show l.target.teamId? = _
    rw [target]
    rfl
  rw [locks, List.map_append] at nodup
  constructor
  · refine List.mem_map.mpr ⟨l.stored, List.mem_filter.mpr ⟨?_, decide_eq_true on⟩, rfl⟩
    exact locks ▸ List.mem_append_right _ (List.mem_singleton_self _)
  · intro again
    obtain ⟨k, hk, same⟩ := List.mem_map.mp again
    have there : l.id ∈ t.locks.map (·.id) := List.mem_map.mpr ⟨k, (List.mem_filter.mp hk).1, same⟩
    exact (List.nodup_append.mp nodup).2.2 _ there _ (List.mem_singleton_self l.id) rfl

/-- A job is staffed for another team, or for none. -/
theorem staffed_sparesTeam {other : Option String} {providerIds : List String}
    {rows : List Assignment} (staffs : t.Staffs j other providerIds now rows)
    (spared : other ≠ some teamId) : t.SparesTeam (t.staffed j.id rows now) teamId where
  locks := List.Subset.refl _
  assignments := by
    refine keys_append_subset fun a ha => decide_eq_false ?_
    obtain ⟨row, hrow, rfl⟩ := List.mem_map.mp ha
    rw [staffs.scheduled row hrow]
    exact spared
  fallbacks := by
    refine keys_updateWhere_subset fun k => ⟨rfl, fun never => ?_⟩
    cases of_decide_eq_true never

namespace Promotes

variable {p : Promotion}

/-- A promotion that goes by no lock on the team spares it. -/
theorem sparesTeam (h : t.Promotes t' j p now) (other : p.teamId ≠ some teamId) :
    t.SparesTeam t' teamId where
  locks := by
    unfold lockIdsOn
    rw [h.locks]
    refine keys_map_subset fun l => ?_
    split <;> exact ⟨rfl, id⟩
  assignments := by
    have staffed := (staffed_sparesTeam h.staffs other).assignments
    unfold assignmentIdsFor at staffed ⊢
    rw [h.assignments]
    exact staffed
  fallbacks := by
    have staffed := (staffed_sparesTeam h.staffs other).fallbacks
    unfold fallbackIdsFor at staffed ⊢
    rw [h.jobs]
    exact staffed

/-- A promotion by a lock on the team makes a new assignment for it. -/
theorem handsOver (h : t.Promotes t' j p now) (asks : 1 ≤ j.requiredMembers)
    (on : p.teamId = some teamId) :
    ∃ id ∈ t'.assignmentIdsFor teamId, id ∉ t.assignmentIdsFor teamId := by
  have many : 0 < p.assignments.length := by
    rw [← List.length_map (f := (·.providerId)), h.staffs.providers, h.staffs.enough]
    exact asks
  obtain ⟨row, hrow⟩ := List.exists_mem_of_length_pos many
  refine ⟨row.id, List.mem_map.mpr ⟨row.stored, List.mem_filter.mpr ⟨?_, ?_⟩, rfl⟩, ?_⟩
  · rw [h.assignments]
    exact List.mem_append_right _ (List.mem_map_of_mem hrow)
  · refine decide_eq_true ?_
    rw [h.staffs.scheduled row hrow]
    exact on
  · intro again
    obtain ⟨a, ha, same⟩ := List.mem_map.mp again
    exact h.staffs.ids_fresh row hrow a (List.mem_filter.mp ha).1 same

end Promotes

end Tables

open Tables (SparesTeam)

/-- Calm steps make no locks on teams. -/
theorem Calm.lockIdsOn (h : Calm now t t') (teamId : String) :
    t'.lockIdsOn teamId ⊆ t.lockIdsOn teamId := by
  unfold Tables.lockIdsOn
  rcases h.locks_cases with same | ⟨-, ⟨l, j, providerId, -, -, target, -, added⟩ |
    ⟨l, -, -, confirmed⟩ | ⟨l, -, reason, -, released⟩⟩
  · rw [same]
    exact List.Subset.refl _
  · rw [added]
    refine keys_append_subset fun k hk => decide_eq_false ?_
    rw [List.mem_singleton.mp hk]
    show l.target.teamId? ≠ _
    rw [target]
    exact nofun
  · rw [confirmed]
    exact keys_updateWhere_subset fun k => ⟨rfl, id⟩
  · rw [released]
    exact keys_updateWhere_subset fun k => ⟨rfl, id⟩

theorem Calms.lockIdsOn (h : Calms now t t') (teamId : String) :
    t'.lockIdsOn teamId ⊆ t.lockIdsOn teamId := by
  induction h with
  | refl => exact List.Subset.refl _
  | tail _ last ih => exact List.Subset.trans (last.lockIdsOn teamId) ih

/-! ## Teams that are matched -/

theorem pickTeam_active {service : String} {loads : List (String × Float)} {required : Nat}
    {sent : TeamMatch} (h : pickTeam t.activeTeams service loads required = some sent) :
    ¬ t.IsInactive sent.teamId := by
  obtain ⟨team, hteam, sends⟩ := List.mem_filterMap.mp (leastLoaded_mem h)
  obtain ⟨stored, active⟩ := List.mem_filter.mp hteam
  have own : team.id = sent.teamId := by
    unfold TeamMatch.of? at sends
    dsimp only at sends
    split at sends
    · rw [← Option.some.inj sends]
    · cases sends
  intro inactive
  cases (inactive team stored own).symm.trans active

theorem Selection.choose_active {service : String} {ranked : List Scored} {required : Nat}
    (h : (Selection.choose t.activeTeams service ranked required).teamId? = some teamId) :
    ¬ t.IsInactive teamId := by
  unfold Selection.choose at h
  dsimp only at h
  split at h
  · next sent picked =>
    obtain rfl := Option.some.inj h
    split at picked
    · exact pickTeam_active picked
    · cases picked
  · cases h

namespace Engine

/-- The team that a match answers is active when the teams are read. -/
theorem matchTeamAt_active {criteria : Criteria} {required : Nat} {sent : TeamMatch}
    (h : matchTeamAt criteria required now e = .ok (some sent) e') :
    ¬ e'.store.tables.IsInactive sent.teamId := by
  unfold matchTeamAt at h
  simp only [bind_eq_ok, pure_eq_ok, ask_eq_ok] at h
  obtain ⟨_, e₁, -, ranked, e₂, -, _, _, ⟨rfl, rfl⟩, picked, rfl⟩ := h
  exact pickTeam_active picked.symm

/-- The team of a choice is active when the teams are read. -/
theorem choose_active {selection : Selection}
    (h : choose jobId now e = .ok (some (j, selection)) e')
    (onTeam : selection.teamId? = some teamId) : ¬ e'.store.tables.IsInactive teamId := by
  unfold choose at h
  simp only [bind_eq_ok] at h
  obtain ⟨_, e₁, -, h⟩ := h
  split at h
  · cases (pure_eq_ok.mp h).1
  · unfold propose at h
    simp only [bind_eq_ok, pure_eq_ok, ask_eq_ok] at h
    obtain ⟨_, _, ⟨ranked, e₂, -, _, _, ⟨rfl, rfl⟩, rfl, rfl⟩, chosen, rfl⟩ := h
    split at chosen
    · cases chosen
    · obtain ⟨-, rfl⟩ := Prod.mk.inj (Option.some.inj chosen)
      exact Selection.choose_active onTeam

/-- A check refuses an inactive team. -/
theorem ensureTeam_refuses (inactive : e.store.tables.IsInactive teamId) (criteria : Criteria)
    (required : Nat) : ∃ fault, ensureTeam teamId criteria required e = .error fault e := by
  unfold ensureTeam
  cases checkHeadcount required with
  | error fault => exact ⟨fault, rfl⟩
  | ok _ =>
    rw [bind_of_ok (ofExcept_apply _ e)]
    cases found : e.store.tables.team? teamId with
    | none =>
      refine ⟨.notFound .team teamId, bind_of_error (onStore_of_error ?_)⟩
      show Work.found _ _ (e.store.tables.team? teamId) e.store = _
      rw [found]
      rfl
    | some team =>
      obtain ⟨stored, own⟩ := mem_of_find?_key found
      have demanded : onStore (Work.demand .team teamId (Tables.team? · teamId)) e = .ok team e :=
        onStore_of_ok (Work.demand_eq_ok.mpr ⟨found, rfl⟩)
      refine ⟨.invalid (.inactiveTeam teamId), ?_⟩
      rw [bind_of_ok demanded, inactive team stored own]
      rfl

/-! ## Commits and failed attempts -/

/-- A team that is not sent is spared when the choice is committed and told of. -/
theorem commits_sparesTeam {selection : Selection} {rows : List Assignment}
    (commits : Selection.Commits t j selection now rows) (other : selection.teamId? ≠ some teamId)
    (same : e.store.tables = t.staffed j.id rows now) (events : List Event) :
    t.SparesTeam (after (dispatch now events) e).store.tables teamId := by
  obtain ⟨log, frame⟩ := dispatch_frame now events same
  have spares := Tables.staffed_sparesTeam commits.staffs other
  rw [frame]
  exact ⟨spares.locks, spares.assignments, spares.fallbacks⟩

/-- A choice that was made on another engine, where the team was inactive, spares it. -/
theorem commitSeen_sparesTeam (ready : e.Ready) {view : Engine}
    (keyed : view.store.tables.RosterKeyed) (prices : view.KeepsRoster)
    (seen : (after (choose jobId now) view).store.tables.IsInactive teamId) :
    e.store.tables.SparesTeam (after (commitSeen view jobId now) e).store.tables teamId := by
  obtain ⟨same, -⟩ | ⟨j, selection, view', rows, s', chosen, -, commits, same, told⟩ :=
    commitSeen_cases ready.idle keyed prices jobId now
  · exact same ▸ .refl _ _
  · rw [after_of_ok chosen] at seen
    rw [after_of_ok told]
    exact commits_sparesTeam commits (fun onTeam => choose_active chosen onTeam seen) same _

/-- An automatic assignment spares an inactive team, and does not answer it. -/
theorem autoAssign_sparesTeam (ready : e.Ready) (inactive : e.store.tables.IsInactive teamId)
    (jobId : String) (now : Instant) :
    e.store.tables.SparesTeam (after (autoAssign jobId now) e).store.tables teamId ∧
      ∀ selection e', autoAssign jobId now e = .ok (some selection) e' →
        selection.teamId? ≠ some teamId := by
  obtain ⟨same, never⟩ | ⟨j, selection, e₁, rows, s', chosen, rests, -, commits, same, told⟩ :=
    autoAssign_cases ready jobId now
  · exact ⟨same ▸ .refl _ _, fun selection e' h => absurd h (never selection e')⟩
  · have other : selection.teamId? ≠ some teamId := fun onTeam =>
      choose_active chosen onTeam (rests.store ▸ inactive)
    rw [after_of_ok told, told]
    refine ⟨commits_sparesTeam commits other same _, ?_⟩
    rintro _ _ ⟨⟩
    exact other

/-- A failed attempt changes at most one job, whose fallback is then an active team if it was not
the same before. -/
theorem recordFailure_left (ready : e.Ready) (j : Job) (maxRetries : Nat)
    (now staleBefore : Instant) :
    ∃ log, (after (Sweep.recordFailure j maxRetries now staleBefore) e).store.tables
        = { e.store.tables with log } ∨
      ∃ stored team, e.store.tables.job? j.id = some stored ∧
        (∀ id, team = some id → ¬ e.store.tables.IsInactive id) ∧
        (after (Sweep.recordFailure j maxRetries now staleBefore) e).store.tables
          = { e.store.tables.saveMatchingState
            (Sweep.afterFailure stored maxRetries team now).1 now with log } := by
  obtain ⟨team, e₁, events, s', rests, found, left, -, counted⟩ :=
    recordFailure_notes ready.idle ready.quiet j maxRetries now staleBefore
  obtain ⟨log, frame⟩ := dispatch_frame (e := { e₁ with store := s' }) now events rfl
  refine ⟨log, ?_⟩
  rw [left, frame]
  rcases counted with ⟨-, same, -⟩ | ⟨stored, known, -, -, -, same⟩
  · exact .inl (by rw [same])
  · refine .inr ⟨stored, team, known, fun id named => ?_, by rw [same]⟩
    obtain ⟨sent, rfl, matched⟩ := found id named
    rw [← rests.store]
    exact matchTeamAt_active matched

theorem recordFailure_sparesTeam (ready : e.Ready) (inactive : e.store.tables.IsInactive teamId)
    (j : Job) (maxRetries : Nat) (now staleBefore : Instant) : e.store.tables.SparesTeam
      (after (Sweep.recordFailure j maxRetries now staleBefore) e).store.tables teamId := by
  obtain ⟨log, same | ⟨stored, team, known, active, same⟩⟩ :=
    recordFailure_left ready j maxRetries now staleBefore
  · rw [same]
    exact ⟨List.Subset.refl _, List.Subset.refl _, List.Subset.refl _⟩
  · rw [same]
    refine ⟨List.Subset.refl _, List.Subset.refl _, keys_subset fun k hk fallback => ?_⟩
    obtain ⟨old, hold, rfl⟩ := mem_updateWhere.mp hk
    split at fallback
    · next own =>
      -- A team that was looked for is active, so the fallback is the one that there was.
      have named : (if stored.fallbackRequestedAt.isNone then team else stored.fallbackTeam)
          = some teamId := of_decide_eq_true fallback
      have asBefore : stored.fallbackTeam = some teamId := by
        split at named
        · exact absurd inactive (active teamId named)
        · exact named
      refine ⟨stored, List.mem_of_find?_eq_some known, decide_eq_true asBefore, ?_⟩
      rw [if_pos own]
      exact (beq_iff_eq.mp own).symm
    · next other => exact ⟨old, hold, fallback, by rw [if_neg other]⟩

end Engine

/-! ## Locks on teams -/

/-- What a request for units of a team makes is one lock on the team. -/
theorem Locks.createOnTeam_target {units : Option Nat} {expiresAt : Instant} {locks : List Lock}
    (h : createOnTeam j teamId units expiresAt now s = .ok locks s') :
    ∃ l slotId, locks = [l] ∧ l.target = .team teamId slotId := by
  unfold createOnTeam at h
  simp only [bind_eq_ok, Work.guard_eq_ok, pure_eq_ok] at h
  obtain ⟨_, _, -, slot, _, -, _, _, -, _, _, -, -, _, _, -, _, _, -, _, _, -, rfl, -⟩ := h
  exact ⟨_, slot.id, rfl, rfl⟩

theorem Locks.create_target {config : LockConfig} {actor : Actor} {units : Option Nat}
    {ttl : Option Int} {locks : List Lock} (idle : s.saved = none)
    (h : create config actor jobId ⟨.team teamId units, ttl⟩ now s = .ok locks s') :
    ∃ l slotId, locks = [l] ∧ l.target = .team teamId slotId := by
  unfold create at h
  simp only [bind_eq_ok, Work.ofExcept_eq_ok] at h
  obtain ⟨_, s, ⟨-, rfl⟩, h⟩ := h
  obtain ⟨s₁, done, -⟩ := (Work.atomic_eq_ok idle).mp h
  unfold createJoined at done
  simp only [bind_eq_ok, Work.guard_eq_ok] at done
  obtain ⟨_, _, -, -, done⟩ := done
  exact createOnTeam_target done

/-- A request for units of a team fails and changes no table, or makes one lock on the team. -/
theorem Engine.createLocks_left (ready : e.Ready) (actor : Actor) (jobId teamId : String)
    (units : Option Nat) (ttl : Option Int) :
    let request : LockRequest := ⟨.team teamId units, ttl⟩
    ((after (createLocks actor jobId request) e).store.tables = e.store.tables ∧
        ∀ locks e', createLocks actor jobId request e ≠ .ok locks e') ∨
      ∃ l slotId e', createLocks actor jobId request e = .ok [l] e' ∧
        l.target = .team teamId slotId ∧
        e'.store.tables.locks = e.store.tables.locks ++ [l.stored] := by
  intro request
  cases made : Locks.create e.config.locks actor jobId request e.now e.store with
  | error fault s' =>
    have failed := createLocks_of_error made
    obtain ⟨same, -⟩ := create_failsClean _ _ _ _ _ _ _ _ ready.idle made
    rw [after_of_error failed, failed]
    exact .inl ⟨same, fun _ _ never => by cases never⟩
  | ok locks s' =>
    obtain ⟨l, slotId, rfl, target⟩ := Locks.create_target ready.idle made
    obtain ⟨added, -⟩ := Locks.create_holds ready.idle made
    obtain ⟨e', done, log, frame⟩ := createLocks_of_ok rfl made
    refine .inr ⟨l, slotId, e', done, target, ?_⟩
    rw [frame]
    exact added

/-- A request for units of a team hands work to no other one, and to that one if it succeeds. -/
theorem Engine.createLocks_sparesTeam (ready : e.Ready) (actor : Actor) (jobId id : String)
    (units : Option Nat) (ttl : Option Int) :
    let request : LockRequest := ⟨.team id units, ttl⟩
    e.store.tables.SparesTeam (after (createLocks actor jobId request) e).store.tables teamId ↔
      ¬ (id = teamId ∧ ∃ locks e', createLocks actor jobId request e = .ok locks e') := by
  intro request
  obtain ⟨same, never⟩ | ⟨l, slotId, e', done, target, added⟩ :=
    createLocks_left ready actor jobId id units ttl
  · exact iff_of_true (same ▸ .refl _ _) fun ⟨_, locks, e', done⟩ => never locks e' done
  · obtain ⟨demand, -⟩ := createLocks_spares actor jobId request e ready.idle
    have ready' := ((Operation.createLocks actor jobId request).steps ready trivial
      Operation.eq_of_instant?).2
    have left : (Operation.createLocks actor jobId request).after e = e' := after_of_ok done
    rw [left] at ready'
    rw [after_of_ok done] at demand ⊢
    constructor
    · rintro spares ⟨rfl, -⟩
      obtain ⟨new, old⟩ := Tables.mem_lockIdsOn target added ready'.keyed.locks
      exact old (spares.locks new)
    · intro other
      refine ⟨?_, ?_, ?_⟩
      · unfold Tables.lockIdsOn
        rw [added]
        refine keys_append_subset fun k hk => decide_eq_false fun on => other ⟨?_, [l], e', done⟩
        rw [List.mem_singleton.mp hk] at on
        have on : l.target.teamId? = some teamId := on
        rw [target] at on
        exact Option.some.inj on
      · unfold Tables.assignmentIdsFor
        rw [demand.assignments]
        exact List.Subset.refl _
      · unfold Tables.fallbackIdsFor
        rw [demand.jobs]
        exact List.Subset.refl _

/-! ## Operations -/

namespace Operation

/-- The operation makes a lock on the team, or it is a promotion that goes by one. -/
def HandsWorkTo (teamId : String) (e : Engine) : Operation → Prop
  | createLocks actor jobId ⟨.team id units, ttl⟩ => id = teamId ∧
    ∃ locks e', Engine.createLocks actor jobId ⟨.team id units, ttl⟩ e = .ok locks e'
  | promote jobId now => ∃ p e', Engine.promote jobId now e = .ok (some p) e' ∧
    p.teamId = some teamId
  | _ => False

/-- A choice that is committed was made of teams among which that one was inactive. -/
def SeesInactive (teamId : String) : Operation → Prop
  | commitSeen view jobId now =>
    (Staffing.after (Engine.choose jobId now) view).store.tables.IsInactive teamId
  | _ => True

end Operation

/-- What an operation that neither staffs a job nor counts a failed attempt does to jobs and
assignments is no matter of teams. -/
theorem Turn.spares {op : Operation} (turn : Turn e op e') (unread : ∀ j, ¬ op.Reads e j)
    (uncounted : ∀ j maxRetries now staleBefore,
      op ≠ .recordFailure j maxRetries now staleBefore) (teamId : String) :
    e'.store.tables.assignmentIdsFor teamId ⊆ e.store.tables.assignmentIdsFor teamId ∧
      e'.store.tables.fallbackIdsFor teamId ⊆ e.store.tables.fallbackIdsFor teamId := by
  unfold Tables.assignmentIdsFor Tables.fallbackIdsFor
  cases turn with
  | rest _ same =>
    rw [same.jobs, same.assignments]
    exact ⟨List.Subset.refl _, List.Subset.refl _⟩
  | book _ same =>
    rw [same.jobs, same.assignments]
    refine ⟨List.Subset.refl _, keys_append_subset fun k hk => ?_⟩
    rw [List.mem_singleton.mp hk]
    rfl
  | @cancel _ jobId _ same =>
    obtain ⟨f, hf, frame⟩ := Tables.cancelled_frame jobId e.now e.store.tables
    rw [same.jobs, same.assignments, frame]
    constructor
    · refine keys_map_subset fun a => ?_
      rcases hf a with same | same <;> rw [same] <;> exact ⟨rfl, id⟩
    · exact keys_updateWhere_subset fun k => ⟨rfl, id⟩
  | staff reads => exact absurd reads (unread _)
  | note => exact absurd rfl (uncounted _ _ _ _)

/-- A promotion spares a team that it does not answer. -/
theorem Run.promote_sparesTeam (run : Run past e) (jobId : String) (now : Instant)
    (spared : ∀ p e', Engine.promote jobId now e = .ok (some p) e' → p.teamId ≠ some teamId) :
    e.store.tables.SparesTeam (after (Engine.promote jobId now) e).store.tables teamId := by
  obtain ⟨same, -⟩ | ⟨j, hj, own, promotable, -⟩ := Engine.promote_left run.ready jobId now
  · exact same ▸ .refl _ _
  · have found : e.store.tables.job? jobId = some j :=
      (find?_key_eq_some run.ready.keyed.jobs).mpr ⟨hj, own⟩
    rcases run.promote_answers now found with ⟨-, p, e', done⟩ | ⟨not, -⟩
    · rw [after_of_ok done]
      exact (run.promote_promotes found done).sparesTeam (spared p e' done)
    · exact absurd promotable not

/-- A promotion that answers the team makes a new assignment for it. -/
theorem Run.promote_handsOver (run : Run past e) {p : Promotion}
    (h : Engine.promote jobId now e = .ok (some p) e') (on : p.teamId = some teamId) :
    ∃ id ∈ e'.store.tables.assignmentIdsFor teamId,
      id ∉ e.store.tables.assignmentIdsFor teamId := by
  obtain ⟨-, never⟩ | ⟨j, hj, own, -⟩ := Engine.promote_left run.ready jobId now
  · exact absurd h (never p e')
  · have found : e.store.tables.job? jobId = some j :=
      (find?_key_eq_some run.ready.keyed.jobs).mpr ⟨hj, own⟩
    exact (run.promote_promotes found h).handsOver (run.asksForSome j hj) on

/-- **Which operations hand work to an inactive team.** -/
theorem Run.sparesTeam_iff (run : Run past e) (inactive : e.store.tables.IsInactive teamId)
    (op : Operation) (admissible : op.IsAdmissible) (seen : op.SeesInactive teamId) :
    e.store.tables.SparesTeam (op.after e).store.tables teamId ↔ ¬ op.HandsWorkTo teamId e := by
  have ready := run.ready
  -- Calm operations that do not staff a job leave little to be looked at.
  have rest {op : Operation} (admissible : op.IsAdmissible) (calm : op.IsCalm)
      (unread : ∀ j, ¬ op.Reads e j) (uncounted : ∀ j maxRetries now staleBefore,
        op ≠ .recordFailure j maxRetries now staleBefore) :
      e.store.tables.SparesTeam (op.after e).store.tables teamId := by
    obtain ⟨calms, -⟩ := Operation.calms calm ready admissible Operation.eq_of_instant?
    obtain ⟨assignments, fallbacks⟩ := (op.turn ready admissible).spares unread uncounted teamId
    exact ⟨calms.lockIdsOn teamId, assignments, fallbacks⟩
  cases op with
  | promote jobId now =>
    constructor
    · rintro spares ⟨p, e', done, on⟩
      obtain ⟨id, new, old⟩ := run.promote_handsOver done on
      refine old (spares.assignments ?_)
      show id ∈ (after (Engine.promote jobId now) e).store.tables.assignmentIdsFor teamId
      rwa [after_of_ok done]
    · intro spared
      exact run.promote_sparesTeam jobId now fun p e' done on => spared ⟨p, e', done, on⟩
  | createLocks actor jobId request =>
    obtain ⟨target, ttl⟩ := request
    cases target with
    | providers ids =>
      exact iff_of_true (rest trivial trivial (fun _ => id) (fun _ _ _ _ => (by cases ·))) id
    | team id units =>
      exact Engine.createLocks_sparesTeam ready actor jobId id units ttl
  | autoAssign jobId now =>
    exact iff_of_true (Engine.autoAssign_sparesTeam ready inactive jobId now).1 id
  | commitSeen view jobId now =>
    exact iff_of_true
      (Engine.commitSeen_sparesTeam ready admissible.1 admissible.2 seen) id
  | recordFailure j maxRetries now staleBefore =>
    exact iff_of_true
      (Engine.recordFailure_sparesTeam ready inactive j maxRetries now staleBefore) id
  | _ => exact iff_of_true (rest admissible trivial (fun _ => id) (fun _ _ _ _ => (by cases ·))) id

/-! ## Sweeps -/

open Operation (afterAll)

/-- What the sweeps do leaves teams alone, and takes no assignment away. -/
theorem Sweep.Kind.Part.keeps {kind : Kind} {op : Operation} (part : kind.Part now op)
    (run : Run past e) : (op.after e).store.tables.teams = e.store.tables.teams ∧
      ∀ a ∈ e.store.tables.assignments, a ∈ (op.after e).store.tables.assignments := by
  cases part with
  | autoAssign jobId =>
    have narrows := Engine.autoAssign_narrows run.ready jobId now
    exact ⟨narrows.teams, narrows.assignments⟩
  | recordFailure j maxRetries staleBefore =>
    unfold Operation.after
    obtain ⟨log, same | ⟨stored, team, -, -, same⟩⟩ :=
      Engine.recordFailure_left run.ready j maxRetries now staleBefore
    · rw [same]
      exact ⟨rfl, fun _ ha => ha⟩
    · rw [same]
      exact ⟨rfl, fun _ ha => ha⟩
  | promote jobId =>
    have narrows := Engine.promote_narrows run.ready jobId now
    exact ⟨narrows.teams, narrows.assignments⟩
  | expireLock lockId =>
    have narrows := (Engine.expireLock_narrows run.ready run.sound.fits lockId now).1
    exact ⟨narrows.teams, narrows.assignments⟩

/-- Only promotions hand work to teams. -/
theorem Sweep.Kind.Part.handsOver {kind : Kind} {op : Operation} (part : kind.Part now op)
    (run : Run past e) (hands : op.HandsWorkTo teamId e) : kind = .promotion ∧
      ∃ id ∈ (op.after e).store.tables.assignmentIdsFor teamId,
        id ∉ e.store.tables.assignmentIdsFor teamId := by
  cases part with
  | promote jobId =>
    obtain ⟨p, e', done, on⟩ := hands
    have left : (Operation.promote jobId now).after e = e' := after_of_ok done
    rw [left]
    exact ⟨rfl, run.promote_handsOver done on⟩
  | _ => exact hands.elim

theorem Tables.assignmentIdsFor_mono (h : ∀ a ∈ t.assignments, a ∈ t'.assignments)
    (teamId : String) : t.assignmentIdsFor teamId ⊆ t'.assignmentIdsFor teamId :=
  keys_subset fun a ha made => ⟨a, h a ha, made, rfl⟩

namespace Run

variable {kind : Sweep.Kind} {ops : List Operation}

/-- An assignment stays while a sweep goes on. -/
theorem parts_keep (run : Run past e) (parts : ∀ op ∈ ops, kind.Part now op) (teamId : String) :
    e.store.tables.assignmentIdsFor teamId
      ⊆ (afterAll ops e).store.tables.assignmentIdsFor teamId := by
  induction ops generalizing past e with
  | nil => exact List.Subset.refl _
  | cons op rest ih =>
    obtain ⟨part, parts⟩ := List.forall_mem_cons.mp parts
    have run' := run.operation op (by cases part <;> trivial)
    exact List.Subset.trans (Tables.assignmentIdsFor_mono (part.keeps run).2 teamId)
      (ih run' parts)

/-- The operations of a sweep all spare an inactive team, and so do they together; or one of them
hands work to it, and an assignment for it is new at the end. -/
theorem parts_sparesTeam (run : Run past e) (inactive : e.store.tables.IsInactive teamId)
    (parts : ∀ op ∈ ops, kind.Part now op) :
    e.store.tables.SparesTeam (afterAll ops e).store.tables teamId ∧
        (∀ made ∈ Operation.trace ops e, ¬ made.2.HandsWorkTo teamId made.1) ∨
      (∃ made ∈ Operation.trace ops e, made.2.HandsWorkTo teamId made.1) ∧
        kind = .promotion ∧ ∃ id ∈ (afterAll ops e).store.tables.assignmentIdsFor teamId,
          id ∉ e.store.tables.assignmentIdsFor teamId := by
  induction ops generalizing past e with
  | nil => exact .inl ⟨.refl _ _, fun _ never => absurd never List.not_mem_nil⟩
  | cons op rest ih =>
    obtain ⟨part, parts⟩ := List.forall_mem_cons.mp parts
    obtain ⟨teams, assignments⟩ := part.keeps run
    have admissible : op.IsAdmissible := by cases part <;> trivial
    have seen : op.SeesInactive teamId := by cases part <;> trivial
    have run' := run.operation op admissible
    by_cases hands : op.HandsWorkTo teamId e
    · obtain ⟨sweep, id, new, old⟩ := part.handsOver run hands
      refine .inr ⟨⟨(e, op), List.mem_cons_self, hands⟩, sweep, id, ?_, old⟩
      exact run'.parts_keep parts teamId new
    · have first := (run.sparesTeam_iff inactive op admissible seen).mpr hands
      have inactive' : (op.after e).store.tables.IsInactive teamId := by
        unfold Tables.IsInactive
        rw [teams]
        exact inactive
      obtain ⟨later, none⟩ | ⟨⟨made, later, hands'⟩, sweep, id, new, old⟩ := ih run' inactive' parts
      · exact .inl ⟨first.trans later, List.forall_mem_cons.mpr ⟨hands, none⟩⟩
      · refine .inr ⟨⟨made, List.mem_cons_of_mem _ later, hands'⟩, sweep, id, new, fun before => ?_⟩
        exact old (Tables.assignmentIdsFor_mono assignments teamId before)

/-- **Which sweeps hand work to an inactive team.** -/
theorem sweep_sparesTeam_iff (run : Run past e) (inactive : e.store.tables.IsInactive teamId)
    (kind : Sweep.Kind) (config : SweepConfig) (now : Instant) :
    e.store.tables.SparesTeam (after ((kind.sweep config).run now) e).store.tables teamId ↔
      ¬ (kind = .promotion ∧ ∃ made ∈ Operation.trace (kind.parts config now e) e,
        made.2.HandsWorkTo teamId made.1) := by
  rw [kind.after_eq config now e]
  obtain ⟨spares, none⟩ | ⟨some, sweep, id, new, old⟩ :=
    run.parts_sparesTeam inactive (kind.part config now e)
  · exact iff_of_true spares fun ⟨_, made, hmade, hands⟩ => none made hmade hands
  · exact iff_of_false (fun spares => old (spares.assignments new)) fun none => none ⟨sweep, some⟩

end Run

/-! ## The whole -/

/-- **An inactive team is handed no work but through locks on it.** In every state that a run
reaches, while a team is inactive, it is neither matched nor approved nor chosen for a job. An
operation gives it a new lock, a new assignment or a job to take over exactly if it is a request for
a lock on the team that succeeds, or a promotion that goes by a lock on it; and a sweep exactly if
it makes such a promotion. -/
theorem inactive_teams_are_spared_iff (run : Run past e)
    (inactive : e.store.tables.IsInactive teamId) :
    (∀ criteria required sent e', Engine.matchTeam criteria required e = .ok (some sent) e' →
      sent.teamId ≠ teamId) ∧
    (∀ criteria required, ∃ fault,
      Engine.ensureTeam teamId criteria required e = .error fault e) ∧
    (∀ jobId now selection e', Engine.autoAssign jobId now e = .ok (some selection) e' →
      selection.teamId? ≠ some teamId) ∧
    (∀ op : Operation, op.IsAdmissible → op.SeesInactive teamId →
      (e.store.tables.SparesTeam (op.after e).store.tables teamId ↔
        ¬ op.HandsWorkTo teamId e)) ∧
    ∀ (kind : Sweep.Kind) (config : SweepConfig) (now : Instant),
      e.store.tables.SparesTeam (after ((kind.sweep config).run now) e).store.tables teamId ↔
        ¬ (kind = .promotion ∧ ∃ made ∈ Operation.trace (kind.parts config now e) e,
          made.2.HandsWorkTo teamId made.1) := by
  refine ⟨fun criteria required sent e' matched same => ?_, Engine.ensureTeam_refuses inactive,
    fun jobId now => (Engine.autoAssign_sparesTeam run.ready inactive jobId now).2,
    run.sparesTeam_iff inactive, run.sweep_sparesTeam_iff inactive⟩
  have rests : e.Rests e' := after_of_ok matched ▸ Engine.rests_matchTeam run.ready.quiet _ _
  refine Engine.matchTeamAt_active matched ?_
  rw [rests.store, same]
  exact inactive

/-- A team is set inactive when a lock on it has been confirmed. -/
def Sample.retired : List Operation := [
  .insertProvider (provider "ada"), .createTeam admin (team ["ada"]), .createJob (job 9),
  .createLocks admin (idText "job" 1) ⟨.team (idText "team" 0) none, none⟩,
  .confirmLocks admin (idText "job" 1) none, .setTeamActive (idText "team" 0) false]

/-- The retry sweep spares the team, but it is still sent by a promotion of the job. -/
theorem inactive_teams_are_spared_iff_retired : ∃ past e, Run past e ∧
    e.store.tables.IsInactive (idText "team" 0) ∧
    e.store.tables.SparesTeam (after ((Sweep.retry {}).run 0) e).store.tables (idText "team" 0) ∧
    ¬ e.store.tables.SparesTeam ((Operation.promote (idText "job" 1) 0).after e).store.tables
      (idText "team" 0) := by
  obtain ⟨e, left⟩ : ∃ e, e = Operation.afterAll Sample.retired Sample.engine := ⟨_, rfl⟩
  have run : Run (Operation.trace Sample.retired Sample.engine) e := left ▸
    Run.of_operations rfl rfl (fun _ _ _ => rfl) (by simp [Sample.retired, Operation.IsAdmissible])
  obtain ⟨inactive, sends⟩ : e.store.tables.IsInactive (idText "team" 0) ∧
      (answer? (Engine.promote (idText "job" 1) 0) e).map (·.map (·.teamId))
        = some (some (some (idText "team" 0))) := by
    rw [left]
    decide +kernel
  obtain ⟨-, -, -, operations, sweeps⟩ := inactive_teams_are_spared_iff run inactive
  obtain ⟨_, answered, sends⟩ := Option.map_eq_some_iff.mp sends
  obtain ⟨p, rfl, on⟩ := Option.map_eq_some_iff.mp sends
  have hands : (Operation.promote (idText "job" 1) 0).HandsWorkTo (idText "team" 0) e :=
    ⟨p, _, answer?_eq_some.mp answered, on⟩
  refine ⟨_, e, run, inactive, (sweeps .retry {} 0).mpr fun never => ?_, fun spares => ?_⟩
  · cases never.1
  · exact (operations (.promote (idText "job" 1) 0) trivial trivial).mp spares hands

/-- A team is stored and set inactive before there is a lock on it. -/
def Sample.neverSent : List Operation := [
  .insertProvider (provider "ada"), .createTeam admin (team ["ada"]), .createJob (job 9),
  .setTeamActive (idText "team" 0) false]

/-- A lock on an inactive team is made like any other. -/
theorem not_inactive_teams_are_spared : ¬ ∀ past e (team : Team) (op : Operation), Run past e →
    team ∈ e.store.tables.teams → team.active = false → op.IsAdmissible →
    op.SeesInactive team.id → e.store.tables.SparesTeam (op.after e).store.tables team.id := by
  intro allSpared
  obtain ⟨e, left⟩ : ∃ e, e = Operation.afterAll Sample.neverSent Sample.engine := ⟨_, rfl⟩
  have run : Run (Operation.trace Sample.neverSent Sample.engine) e := left ▸
    Run.of_operations rfl rfl (fun _ _ _ => rfl)
      (by simp [Sample.neverSent, Operation.IsAdmissible])
  obtain ⟨team, hteam, own, inactive⟩ : ∃ team ∈ e.store.tables.teams,
      team.id = idText "team" 0 ∧ team.active = false := by
    rw [left]
    decide +kernel
  have spares := (allSpared _ e team (.createLocks Sample.admin (idText "job" 1)
    ⟨.team (idText "team" 0) none, none⟩) run hteam inactive trivial trivial).locks
  rw [own, left] at spares
  revert spares
  decide +kernel

end Staffing
