import Staffing.Proofs.Choice
import Staffing.Proofs.Keys
import Staffing.Proofs.Locking

/-!
# Committing assignments

* `Promotion.collectAssign_ok_cases` — one new assignment for each provider
* `Selection.Commits`, `Selection.commit_ok_cases` — a choice is committed by one calm step, or
  nothing is done
* `Promotion.promote_ok_cases`, `Promotion.promote_ebbs` — a promotion staffs the job, then releases
  its locks one by one
-/

namespace Staffing

variable {now : Instant} {s s' : Store}

namespace Promotion

/-- One new assignment for each provider, in order. -/
theorem collectAssign_ok_cases {j : Job} {teamId : Option String} {ids : List String}
    {rows : List Assignment} (h : Work.collect (assign j teamId now) ids s = .ok rows s') :
    s'.saved = s.saved ∧ s'.tables = s.tables.assigned rows ∧
      rows.map (·.providerId) = ids ∧
      (∀ a ∈ rows, a = scheduled j teamId a.providerId now a.id) ∧
      (rows.map (·.id)).Nodup ∧ (∀ a ∈ rows, ∀ b ∈ s.tables.assignments, b.id ≠ a.id) ∧
      ∀ id ∈ ids, s.tables.hasProvider id = true := by
  -- By induction on the providers still to come, on whatever store has been reached.
  induction ids generalizing s rows with
  | nil =>
    obtain ⟨rfl, rfl⟩ := pure_eq_ok.mp h
    refine ⟨rfl, ?_, rfl, fun _ h => absurd h List.not_mem_nil, List.nodup_nil,
      fun _ h => absurd h List.not_mem_nil, fun _ h => absurd h List.not_mem_nil⟩
    unfold Tables.assigned
    rw [List.map_nil, List.append_nil]
  | cons providerId rest ih =>
    obtain ⟨a, s₁, first, h⟩ := bind_eq_ok.mp h
    obtain ⟨later, s₂, others, h⟩ := bind_eq_ok.mp h
    obtain ⟨rfl, rfl⟩ := pure_eq_ok.mp h
    unfold assign at first
    simp only [bind_eq_ok, Work.run_eq_ok, pure_eq_ok] at first
    obtain ⟨id, s₀, drawn, _, _, ⟨t, done, rfl⟩, rfl, rfl⟩ := first
    obtain ⟨tables₀, saved₀⟩ := Work.draw_eq_ok drawn
    rw [tables₀] at done
    obtain ⟨new, -, known, rfl⟩ := Tables.insertAssignment_eq_ok.mp done
    obtain ⟨saved, tables, providers, scheduledAll, distinct, fresh, knownAll⟩ := ih others
    refine ⟨saved.trans saved₀, ?_, by rw [List.map_cons, providers]; rfl, ?_, ?_, ?_, ?_⟩
    · rw [tables]
      unfold Tables.assigned
      rw [List.map_cons, ← List.append_cons]
    · exact List.forall_mem_cons.mpr ⟨rfl, scheduledAll⟩
    · -- The first is among the rows that the later ones had to be new to.
      refine List.nodup_cons.mpr ⟨fun again => ?_, distinct⟩
      obtain ⟨b, hb, same⟩ := List.mem_map.mp again
      refine fresh b hb _ (List.mem_append_right _ (List.mem_singleton_self _)) ?_
      exact same.symm
    · refine List.forall_mem_cons.mpr ⟨new, fun b hb c hc => ?_⟩
      exact fresh b hb c (List.mem_append_left _ hc)
    · exact List.forall_mem_cons.mpr ⟨known, knownAll⟩

end Promotion

/-- The check in front of both ways of staffing a job. -/
theorem vacant_iff {t : Tables} {j : Job} {jobId : String} :
    ¬ (!j.isPending || !(t.assignmentsFor jobId).isEmpty) = true ↔
      j.isPending = true ∧ t.assignmentsFor jobId = [] := by
  cases j.isPending <;> cases t.assignmentsFor jobId <;> simp

/-! ## Committing a choice -/

theorem Job.assignFault_eq_none {j : Job} {t : Tables} {id : String} :
    j.assignFault t now id = none ↔ t.hasConflict id j.window (some j.id) = false ∧
      t.providerLocked id j.window now (some j.id) = false := by
  unfold Job.assignFault
  cases t.hasConflict id j.window (some j.id) with
  | true => simp
  | false => cases t.providerLocked id j.window now (some j.id) <;> simp

/-- A commit of a choice for the job `j` as it was read when the choice was made, with these
assignments. -/
structure Selection.Commits (t : Tables) (j : Job) (selection : Selection) (now : Instant)
    (rows : List Assignment) : Prop where
  found : ∃ stored, t.job? j.id = some stored ∧ stored.isPending = true
  vacant : t.assignmentsFor j.id = []
  staffs : t.Staffs j selection.teamId? selection.providerIds now rows
  unlocked : ∀ id ∈ selection.providerIds, t.providerLocked id j.window now (some j.id) = false

theorem Selection.Commits.calm {t : Tables} {j : Job} {selection : Selection}
    {rows : List Assignment} (h : Commits t j selection now rows) :
    Calm now t (t.staffed j.id rows now) := by
  obtain ⟨stored, found, pending⟩ := h.found
  exact .commit found pending h.vacant h.staffs h.unlocked

/-- A choice of enough different providers is committed, or nothing is done. -/
theorem Selection.commit_ok_cases {selection : Selection} {j : Job} {committed : Bool}
    (idle : s.saved = none) (distinct : selection.providerIds.Nodup)
    (enough : selection.providerIds.length = j.requiredMembers)
    (h : selection.commit j now s = .ok committed s') :
    s'.saved = none ∧ (committed = false ∧ s'.tables = s.tables ∨
      committed = true ∧ ∃ rows, s'.tables = s.tables.staffed j.id rows now ∧
        Commits s.tables j selection now rows) := by
  unfold Selection.commit at h
  obtain ⟨s₁, done, rfl⟩ := (Work.atomic_eq_ok idle).mp h
  refine ⟨rfl, ?_⟩
  unfold Selection.commitJoined at done
  simp only [bind_eq_ok, Work.demand_eq_ok, Work.ask_eq_ok] at done
  obtain ⟨stored, _, ⟨found, rfl⟩, _, _, ⟨rfl, rfl⟩, done⟩ := done
  split at done
  · obtain ⟨rfl, rfl⟩ := pure_eq_ok.mp done
    exact .inl ⟨rfl, rfl⟩
  · next waits =>
    simp only [bind_eq_ok, Work.ask_eq_ok] at done
    obtain ⟨fault, _, ⟨checked, rfl⟩, done⟩ := done
    cases fault with
    | some fault => exact absurd done (Work.refuse_eq_ok.mp ·)
    | none =>
      simp only [bind_eq_ok, Work.write_eq_ok, pure_eq_ok] at done
      obtain ⟨rows, s₂, assigned, _, _, rfl, rfl, rfl⟩ := done
      obtain ⟨-, tables, providers, scheduled, ids, fresh, known⟩ :=
        Promotion.collectAssign_ok_cases assigned
      have clear := fun id hid => Job.assignFault_eq_none.mp
        (List.findSome?_eq_none_iff.mp checked.symm id hid)
      obtain ⟨pending, vacant⟩ := vacant_iff.mp waits
      refine .inr ⟨rfl, rows, ?_, ⟨stored, found, pending⟩, vacant, ?_, fun id hid =>
        (clear id hid).2⟩
      · show s₂.tables.markMatched j.id now = _
        rw [tables]
        rfl
      · exact ⟨providers, distinct, enough, scheduled, ids, fresh, known,
          fun id hid => (clear id hid).1⟩

/-! ## Promotion -/

namespace Promotion

/-- The locks of a staffed job are released one by one; those that decided are settled. -/
theorem eachSettle_ok_cases {deciding : List String} {live : List Lock} {u : Unit}
    (decided : List String) (nodup : (live.map (·.id)).Nodup)
    (hlive : ∀ l ∈ live, s.tables.HasLive l)
    (h : Work.each (settle deciding now) live s = .ok u s') :
    s'.saved = s.saved ∧ Ebbs now (s.tables, decided)
      (s'.tables, decided ++ (live.map (·.id)).filter deciding.contains) := by
  induction live generalizing s decided with
  | nil =>
    obtain ⟨-, rfl⟩ := pure_eq_ok.mp h
    rw [List.map_nil, List.filter_nil, List.append_nil]
    exact ⟨rfl, .refl⟩
  | cons l rest ih =>
    obtain ⟨_, s₁, first, others⟩ := bind_eq_ok.mp h
    obtain ⟨new, nodupRest⟩ := List.nodup_cons.mp nodup
    have hl := hlive l List.mem_cons_self
    -- The locks still to come have other ids, so they stay live.
    have differ : ∀ k ∈ rest, k.id ≠ l.id :=
      fun k hk same => new (List.mem_map.mpr ⟨k, hk, same⟩)
    unfold settle at first
    by_cases decides : deciding.contains l.id = true
    · rw [if_pos decides, Work.write_eq_ok] at first
      subst first
      obtain ⟨saved, ebbs⟩ := ih (decided ++ [l.id]) nodupRest (fun k hk =>
        ⟨Locks.mem_setLockState_of_ne (differ k hk) (hlive k (List.mem_cons_of_mem _ hk)).1,
          (hlive k (List.mem_cons_of_mem _ hk)).2⟩) others
      refine ⟨saved, .head (.settle hl.1 hl.2) ?_⟩
      rw [List.map_cons, List.filter_cons_of_pos decides,
        List.append_cons decided l.id (.filter _ _)]
      exact ebbs
    · rw [if_neg decides] at first
      simp only [bind_eq_ok, pure_eq_ok] at first
      obtain ⟨r, _, released, -, rfl⟩ := first
      obtain ⟨calms, saved₁, keeps⟩ := Locks.releaseOne_ok_cases hl released
      obtain ⟨saved, ebbs⟩ := ih decided nodupRest
        (fun k hk => keeps k (differ k hk) (hlive k (List.mem_cons_of_mem _ hk))) others
      refine ⟨saved.trans saved₁, (calms.ebbs decided).trans ?_⟩
      rw [List.map_cons, List.filter_cons_of_neg decides]
      exact ebbs

/-- A promotion of the job `j` by a choice, with these assignments. -/
structure Decides (t : Tables) (j : Job) (choice : PromotionChoice) (now : Instant)
    (rows : List Assignment) : Prop where
  found : t.job? j.id = some j
  pending : j.isPending = true
  vacant : t.assignmentsFor j.id = []
  chosen : choice? t j ((t.locksFor j.id none false).filter (·.isUsable now)) = some choice
  staffs : t.Staffs j choice.teamId choice.providerIds now rows

/-- What a promotion by a choice answers, when the job had these live locks. -/
def ofChoice (jobId : String) (choice : PromotionChoice) (rows : List Assignment)
    (live : List Lock) : Promotion where
  jobId := jobId
  teamId := choice.teamId
  providerIds := choice.providerIds
  assignments := rows
  promotedLockIds := choice.lockIds
  releasedLockIds := (live.map (·.id)).filter (!choice.lockIds.contains ·)

/-- A promotion staffs the job and then releases its locks; or nothing is done. -/
theorem promote_ok_cases {jobId : String} {answer : Option Promotion} (idle : s.saved = none)
    (keyed : s.tables.Keyed) (h : promote jobId now s = .ok answer s') :
    s'.saved = none ∧ (answer = none ∧ s'.tables = s.tables ∨
      ∃ p j choice rows s₁ s₂, answer = some p ∧
        p = ofChoice jobId choice rows (s.tables.locksFor jobId none false) ∧ j.id = jobId ∧
        Decides s.tables j choice now rows ∧ s₁.tables = s.tables.staffed jobId rows now ∧
        Work.each (settle choice.lockIds now) (s.tables.locksFor jobId none false) s₁ = .ok () s₂ ∧
        s'.tables = s₂.tables) := by
  unfold promote at h
  obtain ⟨s₁, done, rfl⟩ := (Work.atomic_eq_ok idle).mp h
  refine ⟨rfl, ?_⟩
  unfold promoteJoined at done
  simp only [bind_eq_ok, Work.demand_eq_ok, Work.ask_eq_ok] at done
  obtain ⟨j, _, ⟨found, rfl⟩, _, _, ⟨rfl, rfl⟩, done⟩ := done
  have same : j.id = jobId := (mem_of_find?_key found).2
  subst same
  split at done
  · obtain ⟨rfl, rfl⟩ := pure_eq_ok.mp done
    exact .inl ⟨rfl, rfl⟩
  · next waits =>
    obtain ⟨pending, vacant⟩ := vacant_iff.mp waits
    simp only [bind_eq_ok, Work.ask_eq_ok] at done
    obtain ⟨live, _, ⟨rfl, rfl⟩, chosen, _, ⟨decides, rfl⟩, done⟩ := done
    cases chosen with
    | none =>
      obtain ⟨rfl, rfl⟩ := pure_eq_ok.mp done
      exact .inl ⟨rfl, rfl⟩
    | some choice =>
      simp only [bind_eq_ok, Work.write_eq_ok, pure_eq_ok] at done
      obtain ⟨rows, s₂, assigned, _, _, rfl, _, _, settled, rfl, rfl⟩ := done
      obtain ⟨-, tables, providers, scheduled, ids, fresh, known⟩ :=
        collectAssign_ok_cases assigned
      obtain ⟨distinct, enough, free, -⟩ := choice?_cases keyed.toRosterKeyed decides.symm
      refine .inr ⟨_, j, choice, rows, _, _, rfl, rfl, rfl, ?_, ?_, settled, rfl⟩
      · exact ⟨found, pending, vacant, decides.symm, providers, distinct, enough, scheduled, ids,
          fresh, known, free⟩
      · show s₂.tables.markMatched j.id now = _
        rw [tables]
        rfl

/-- A promotion staffs the job by a calm step and then releases its locks; the locks that decided
are those that it answers. -/
theorem promote_ebbs {jobId : String} {answer : Option Promotion} (idle : s.saved = none)
    (keyed : s.tables.Keyed) (h : promote jobId now s = .ok answer s') :
    s'.saved = none ∧ (answer = none ∧ s'.tables = s.tables ∨
      ∃ p, answer = some p ∧ ∀ decided,
        Ebbs now (s.tables, decided) (s'.tables, decided ++ p.promotedLockIds)) := by
  obtain ⟨saved, same | ⟨p, j, choice, rows, s₁, s₂, answered, made, rfl, decides, tables₁, settled,
    tables⟩⟩ := promote_ok_cases idle keyed h
  · exact ⟨saved, .inl same⟩
  · have keys := Locks.locksFor_nodup keyed.locks j.id none false
    have staffed : Calm now s.tables (s.tables.staffed j.id rows now) :=
      .staff decides.found decides.pending decides.vacant decides.chosen decides.staffs
    refine ⟨saved, .inr ⟨p, answered, fun decided => .head (.calm staffed) ?_⟩⟩
    -- Staffing the job has left the locks alone, so they are settled as they were read.
    have live : ∀ l ∈ s.tables.locksFor j.id none false, s₁.tables.HasLive l := by
      rw [tables₁]
      exact fun l hl => Locks.mem_locksFor hl
    obtain ⟨-, -, -, order, -⟩ := choice?_cases keyed.toRosterKeyed decides.chosen
    obtain ⟨-, ebbs⟩ := eachSettle_ok_cases decided keys live settled
    rw [filter_contains_of_sublist keys (order.trans (List.filter_sublist.map _)), tables₁] at ebbs
    rw [made, tables]
    exact ebbs

end Promotion

end Staffing
