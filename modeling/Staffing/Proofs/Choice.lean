import Staffing.Engine.Matching
import Staffing.Proofs.Step

/-!
# Who is chosen

Both ways of choosing providers for a job name as many different providers as the job needs, as
long as keys are unique and a team lists a provider once.

* `Promotion.choice?_cases` — by the usable locks of the job
* `Selection.choose_cases` — from a ranking and the teams
-/

namespace Staffing

theorem Team.orderedMembers_nodup {team : Team} (h : (team.members.map (·.providerId)).Nodup) :
    (team.orderedMembers.map (·.providerId)).Nodup :=
  ((List.mergeSort_perm team.members Member.precedes).map _).nodup_iff.mpr h

/-! ## By usable locks -/

namespace Promotion

variable {t : Tables} {j : Job}

theorem isFree_iff {providerId : String} :
    isFree t j providerId = true ↔ t.hasConflict providerId j.window (some j.id) = false := by
  unfold isFree
  rw [Bool.not_eq_true']

/-- The lock on a team that decides, and who goes by it. -/
theorem byTeamLock?_cases {l : Lock} {choice : PromotionChoice} (keyed : t.RosterKeyed)
    (h : byTeamLock? t j l = some choice) :
    choice.lockIds = [l.id] ∧ choice.teamId = l.target.teamId? ∧ choice.teamId.isSome ∧
      choice.providerIds.Nodup ∧ choice.providerIds.length = j.requiredMembers ∧
      ∀ id ∈ choice.providerIds, t.hasConflict id j.window (some j.id) = false := by
  unfold byTeamLock? at h
  simp only [Option.bind_eq_bind, Option.bind_eq_some_iff] at h
  obtain ⟨teamId, target, team, found, h⟩ := h
  split at h
  · next enough =>
    obtain rfl := Option.some.inj h
    have members := Team.orderedMembers_nodup (keyed.members team (List.mem_of_find?_eq_some found))
    refine ⟨rfl, target.symm, rfl, (members.filter _).sublist (List.take_sublist _ _), ?_, ?_⟩
    · rw [List.length_take, Nat.min_eq_left enough]
    · intro id hid
      exact isFree_iff.mp (List.mem_filter.mp (List.mem_of_mem_take hid)).2
  · cases h

/-- The locks on different free providers, in the order of the locks. -/
theorem freeProviderLocks_cases (t : Tables) (j : Job) (seen : List String) (usable : List Lock) :
    ((freeProviderLocks t j seen usable).map (·.1)).Nodup ∧
      ((freeProviderLocks t j seen usable).map (·.2)).Sublist (usable.map (·.id)) ∧
      ∀ pick ∈ freeProviderLocks t j seen usable, pick.1 ∉ seen ∧
        t.hasConflict pick.1 j.window (some j.id) = false ∧
        ∃ l ∈ usable, l.id = pick.2 ∧ l.target.providerId? = some pick.1 := by
  induction usable generalizing seen with
  | nil => exact ⟨List.nodup_nil, List.Sublist.refl _, fun _ h => absurd h List.not_mem_nil⟩
  | cons l rest ih =>
    -- A lock that is passed over changes nothing for the picks among the later ones.
    have passed : ∀ seen', (∀ id, id ∈ seen → id ∈ seen') →
        freeProviderLocks t j seen (l :: rest) = freeProviderLocks t j seen' rest →
        ((freeProviderLocks t j seen (l :: rest)).map (·.1)).Nodup ∧
        ((freeProviderLocks t j seen (l :: rest)).map (·.2)).Sublist ((l :: rest).map (·.id)) ∧
        ∀ pick ∈ freeProviderLocks t j seen (l :: rest), pick.1 ∉ seen ∧
          t.hasConflict pick.1 j.window (some j.id) = false ∧
          ∃ k ∈ l :: rest, k.id = pick.2 ∧ k.target.providerId? = some pick.1 := by
      intro seen' grown same
      obtain ⟨distinct, order, picks⟩ := ih seen'
      rw [same]
      refine ⟨distinct, order.cons _, fun pick hpick => ?_⟩
      obtain ⟨unseen, free, k, hk, found⟩ := picks pick hpick
      exact ⟨fun h => unseen (grown _ h), free, k, List.mem_cons_of_mem _ hk, found⟩
    cases target : l.target.providerId? with
    | none => exact passed seen (fun _ h => h) (by rw [freeProviderLocks, target])
    | some id =>
      by_cases known : seen.contains id = true
      · exact passed seen (fun _ h => h) (by rw [freeProviderLocks, target]; exact if_pos known)
      · by_cases free : isFree t j id = true
        · have picked : freeProviderLocks t j seen (l :: rest)
              = (id, l.id) :: freeProviderLocks t j (id :: seen) rest := by
            rw [freeProviderLocks, target]
            exact (if_neg known).trans (if_pos free)
          obtain ⟨distinct, order, picks⟩ := ih (id :: seen)
          rw [picked]
          refine ⟨List.nodup_cons.mpr ⟨?_, distinct⟩, order.cons_cons _, fun pick hpick => ?_⟩
          · intro again
            obtain ⟨pick, hpick, same⟩ := List.mem_map.mp again
            exact (picks pick hpick).1 (same ▸ List.mem_cons_self)
          · rcases List.mem_cons.mp hpick with rfl | later
            · exact ⟨by simpa using known, isFree_iff.mp free, l, List.mem_cons_self, rfl, target⟩
            · obtain ⟨unseen, isFree, k, hk, found⟩ := picks pick later
              exact ⟨fun h => unseen (List.mem_cons_of_mem _ h), isFree, k,
                List.mem_cons_of_mem _ hk, found⟩
        · refine passed (id :: seen) (fun _ h => List.mem_cons_of_mem _ h) ?_
          rw [freeProviderLocks, target]
          exact (if_neg known).trans (if_neg free)

/-- **Who goes by the usable locks of a job:** as many different free providers as it needs, by the
earliest lock on a team that can send them, or else each by a lock on him. -/
theorem choice?_cases {usable : List Lock} {choice : PromotionChoice} (keyed : t.RosterKeyed)
    (h : choice? t j usable = some choice) :
    choice.providerIds.Nodup ∧ choice.providerIds.length = j.requiredMembers ∧
      (∀ id ∈ choice.providerIds, t.hasConflict id j.window (some j.id) = false) ∧
      choice.lockIds.Sublist (usable.map (·.id)) ∧
      (choice.teamId = none → ∀ id ∈ choice.providerIds,
        ∃ l ∈ usable, l.target.providerId? = some id) := by
  unfold choice? at h
  split at h
  · cases h
  · cases byTeam : usable.findSome? (byTeamLock? t j) with
    | some chosen =>
      rw [byTeam] at h
      obtain rfl : chosen = choice := Option.some.inj h
      obtain ⟨l, hl, decides⟩ := List.exists_of_findSome?_eq_some byTeam
      obtain ⟨ids, -, some, distinct, enough, free⟩ := byTeamLock?_cases keyed decides
      refine ⟨distinct, enough, free, ?_, fun none => ?_⟩
      · rw [ids, List.singleton_sublist]
        exact List.mem_map_of_mem hl
      · rw [none] at some
        cases some
    | none =>
      rw [byTeam] at h
      have byLocks : byProviderLocks? t j usable = some choice := h
      unfold byProviderLocks? at byLocks
      dsimp only at byLocks
      split at byLocks
      · next enough =>
        obtain rfl := Option.some.inj byLocks
        obtain ⟨distinct, order, picks⟩ := freeProviderLocks_cases t j [] usable
        have taken := List.take_sublist j.requiredMembers (freeProviderLocks t j [] usable)
        refine ⟨distinct.sublist (taken.map _), ?_, ?_, (taken.map _).trans order, ?_⟩
        · rw [List.length_map, List.length_take, Nat.min_eq_left enough]
        · intro id hid
          obtain ⟨pick, hpick, rfl⟩ := List.mem_map.mp hid
          exact (picks pick (taken.subset hpick)).2.1
        · intro _ id hid
          obtain ⟨pick, hpick, rfl⟩ := List.mem_map.mp hid
          obtain ⟨-, -, l, hl, -, target⟩ := picks pick (taken.subset hpick)
          exact ⟨l, hl, target⟩
      · cases byLocks

end Promotion

/-! ## From a ranking -/

/-- The providers who are found are different. -/
theorem Tables.findProviders_nodup {t : Tables} (keyed : (t.providers.map (·.id)).Nodup)
    (service : String) (ecoOnly : Bool) (ids : Option (List String)) :
    ((t.findProviders service ecoOnly ids).map (·.id)).Nodup := by
  unfold Tables.findProviders
  rw [((List.mergeSort_perm _ _).map _).nodup_iff]
  exact keyed.sublist (List.filter_sublist.map _)

/-- The candidates are different providers. -/
theorem Tables.candidates_nodup {t : Tables} (keyed : t.RosterKeyed) (config : Config)
    (criteria : Criteria) (now : Instant) :
    ((t.candidates config criteria now).map (·.provider.id)).Nodup := by
  unfold Tables.candidates
  refine List.Nodup.sublist (List.filter_sublist.map _) ?_
  rw [List.map_map]
  exact (findProviders_nodup keyed.providers _ _ _).sublist (List.filter_sublist.map _)

theorem Candidate.scored?_providerId {c : Candidate} {criteria : Criteria} {weights : Weights}
    {config : ScoringConfig} {row : Scored} (h : c.scored? criteria weights config = some row) :
    row.providerId = c.provider.id := by
  unfold Candidate.scored? at h
  dsimp only at h
  split at h
  · cases h
  · rw [← Option.some.inj h]

theorem scored_sublist (candidates : List Candidate) (criteria : Criteria) (weights : Weights)
    (config : ScoringConfig) :
    ((candidates.filterMap (·.scored? criteria weights config)).map (·.providerId)).Sublist
      (candidates.map (·.provider.id)) := by
  induction candidates with
  | nil => exact List.Sublist.refl _
  | cons c rest ih =>
    rw [List.filterMap_cons]
    cases scored : c.scored? criteria weights config with
    | none => exact ih.cons _
    | some row =>
      rw [List.map_cons, List.map_cons, Candidate.scored?_providerId scored]
      exact ih.cons_cons _

/-- What does not look at the numbers is the same of numbered rows. -/
theorem numbered_map {β : Type} {f : Scored → β} (blind : ∀ row n, f { row with rank := n } = f row)
    (rows : List Scored) : (numbered rows).map f = rows.map f := by
  unfold numbered
  refine List.ext_getElem ?_ fun i _ _ => ?_
  · rw [List.length_map, List.length_mapIdx, List.length_map]
  · rw [List.getElem_map, List.getElem_mapIdx, List.getElem_map]
    exact blind _ _

/-- The rows of a ranking are different providers. -/
theorem rank_nodup {candidates : List Candidate} (h : (candidates.map (·.provider.id)).Nodup)
    (criteria : Criteria) (weights : Weights) (config : ScoringConfig) :
    ((rank candidates criteria weights config).map (·.providerId)).Nodup := by
  unfold rank Scored.sort
  rw [numbered_map fun _ _ => rfl, ((List.mergeSort_perm _ _).map _).nodup_iff]
  exact h.sublist (scored_sublist candidates criteria weights config)

/-- What a team would send: as many different members as are asked for. -/
theorem TeamMatch.of?_cases {team : Team} {service : String} {loads : List (String × Float)}
    {required : Nat} {found : TeamMatch} (members : (team.members.map (·.providerId)).Nodup)
    (h : TeamMatch.of? team service loads required = some found) :
    found.memberIds.Nodup ∧ found.memberIds.length = required := by
  have loaded : ((team.loadedMembers loads).map (·.1)).Sublist
      (team.orderedMembers.map (·.providerId)) := by
    unfold Team.loadedMembers
    induction team.orderedMembers with
    | nil => exact List.Sublist.refl _
    | cons m rest ih =>
      rw [List.filterMap_cons]
      cases loadOf? loads m.providerId with
      | none => exact ih.cons _
      | some load => exact ih.cons_cons _
  unfold TeamMatch.of? at h
  dsimp only at h
  split at h
  · next fits =>
    rw [Bool.and_eq_true, decide_eq_true_eq] at fits
    rw [← Option.some.inj h]
    constructor
    · exact (Team.orderedMembers_nodup members).sublist
        (((List.take_sublist _ _).map _).trans loaded)
    · rw [List.length_map, List.length_take, Nat.min_eq_left fits.2]
  · cases h

theorem leastLoaded_mem {found : TeamMatch} {matches_ : List TeamMatch}
    (h : leastLoaded matches_ = some found) : found ∈ matches_ := by
  cases matches_ with
  | nil => cases h
  | cons first rest =>
    have among : ∀ (rest : List TeamMatch) (best : TeamMatch),
        rest.foldl (fun best m => if m.totalLoad < best.totalLoad then m else best) best
          ∈ best :: rest := by
      intro rest
      induction rest with
      | nil => exact fun best => List.mem_singleton_self best
      | cons m rest ih =>
        intro best
        rw [List.foldl_cons]
        split
        · exact List.mem_cons_of_mem _ (ih m)
        · rcases List.mem_cons.mp (ih best) with same | later
          · rw [same]
            exact List.mem_cons_self
          · exact List.mem_cons_of_mem _ (List.mem_cons_of_mem _ later)
    rw [← Option.some.inj h]
    exact among rest first

/-- **Who goes by a ranking:** different providers, and no more than the job needs. -/
theorem Selection.choose_cases {teams : List Team} {service : String} {ranked : List Scored}
    {required : Nat} (members : ∀ team ∈ teams, (team.members.map (·.providerId)).Nodup)
    (distinct : (ranked.map (·.providerId)).Nodup) :
    (Selection.choose teams service ranked required).providerIds.Nodup ∧
      (Selection.choose teams service ranked required).providerIds.length ≤ required := by
  unfold Selection.choose
  dsimp only
  split
  · next found picked =>
    split at picked
    · unfold pickTeam at picked
      obtain ⟨team, hteam, sent⟩ := List.mem_filterMap.mp (leastLoaded_mem picked)
      obtain ⟨nodup, length⟩ := TeamMatch.of?_cases (members team hteam) sent
      exact ⟨nodup, Nat.le_of_eq length⟩
    · cases picked
  · constructor
    · exact distinct.sublist ((List.take_sublist _ _).map _)
    · unfold Selection.providerIds
      rw [List.length_map, List.length_take]
      exact Nat.min_le_left _ _

end Staffing
