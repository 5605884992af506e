import Staffing.Proofs.RankOrder

/-!
# Teams and eligibility

A team is matched by ranking everyone and looking which members got a row; a team or a list of
providers is checked by ranking no one else. Both come to the same, since whether a provider gets a
row has nothing to do with the other providers.

* `Provider.mayGo`, `Tables.eligibleIds` — who may go, each provider taken alone
* `Team.eligible` — the members who may go, in member order
* `Engine.matchTeam_succeeds`, `Engine.ensureTeam_iff`, `Engine.ensureProviders_succeeds` — what the
  calls answer, by these lists
* `Engine.matchTeam_agrees` — matching and checking agree
-/

namespace Staffing

variable {criteria : Criteria} {now : Instant}

/-! ## Who may go -/

section

variable {t : Tables} {config : Config} {p : Provider} {ids : List String} {id : String}

/-- May the provider go? An active one for the service, among those who are asked, who is not busy
and who can be ranked. -/
def Provider.mayGo (p : Provider) (t : Tables) (config : Config) (criteria : Criteria)
    (now : Instant) : Bool :=
  p.active && p.offers criteria.service && (!criteria.ecoRequired || p.ecoFriendly) &&
    criteria.providerIds.all (·.contains p.id) && !t.isBusy criteria now p &&
    ((p.candidate t config criteria now).isUsable || criteria.includeUnavailable) &&
    (p.candidate t config criteria now).isEligible criteria

/-- Whether a provider may go does not depend on who else is asked. -/
theorem Provider.mayGo_restricted (whole : criteria.providerIds = none) :
    p.mayGo t config (criteria.restrictedTo ids) now
      = (ids.contains p.id && p.mayGo t config criteria now) := by
  have busy : t.isBusy (criteria.restrictedTo ids) now p = t.isBusy criteria now p := rfl
  have looked : p.candidate t config (criteria.restrictedTo ids) now
      = p.candidate t config criteria now := rfl
  unfold mayGo
  rw [busy, looked, whole]
  simp only [Criteria.restrictedTo, Option.all_some, Option.all_none, Bool.and_true]
  cases ids.contains p.id <;> simp [Candidate.isEligible]

/-- The providers who may go: those who get a row in a ranking. -/
def Tables.eligibleIds (t : Tables) (config : Config) (criteria : Criteria) (now : Instant) :
    List String :=
  ((t.candidates config criteria now).filter (·.isEligible criteria)).map (·.provider.id)

/-- A candidate is a stored provider who is found, not busy, and usable if that is wanted. -/
theorem Tables.mem_candidates {c : Candidate} : c ∈ t.candidates config criteria now ↔
    ∃ p ∈ t.providers, c = p.candidate t config criteria now ∧
      (p.active && p.offers criteria.service && (!criteria.ecoRequired || p.ecoFriendly) &&
        criteria.providerIds.all (·.contains p.id)) = true ∧ t.isBusy criteria now p = false ∧
      ((p.candidate t config criteria now).isUsable || criteria.includeUnavailable) = true := by
  unfold candidates findProviders
  simp only [List.mem_filter, List.mem_map, List.mem_mergeSort, Bool.not_eq_true']
  constructor
  · rintro ⟨⟨p, ⟨⟨stored, found⟩, free⟩, rfl⟩, kept⟩
    exact ⟨p, stored, rfl, found, free, kept⟩
  · rintro ⟨p, stored, rfl, found, free, kept⟩
    exact ⟨⟨p, ⟨⟨stored, found⟩, free⟩, rfl⟩, kept⟩

theorem Tables.mem_eligibleIds :
    id ∈ t.eligibleIds config criteria now
      ↔ ∃ p ∈ t.providers, p.id = id ∧ p.mayGo t config criteria now = true := by
  unfold eligibleIds Provider.mayGo
  simp only [List.mem_map, List.mem_filter, mem_candidates, Bool.and_eq_true, Bool.not_eq_true']
  constructor
  · rintro ⟨c, ⟨⟨p, stored, rfl, found, free, kept⟩, eligible⟩, rfl⟩
    exact ⟨p, stored, rfl, ⟨⟨found, free⟩, kept⟩, eligible⟩
  · rintro ⟨p, stored, rfl, ⟨⟨found, free⟩, kept⟩, eligible⟩
    exact ⟨_, ⟨⟨p, stored, rfl, found, free, kept⟩, eligible⟩, rfl⟩

theorem Tables.mem_eligibleIds_restricted (whole : criteria.providerIds = none) :
    id ∈ t.eligibleIds config (criteria.restrictedTo ids) now
      ↔ id ∈ ids ∧ id ∈ t.eligibleIds config criteria now := by
  simp only [mem_eligibleIds, Provider.mayGo_restricted whole, Bool.and_eq_true,
    List.contains_iff_mem]
  constructor
  · rintro ⟨p, stored, rfl, named, may⟩
    exact ⟨named, p, stored, rfl, may⟩
  · rintro ⟨named, p, stored, rfl, may⟩
    exact ⟨p, stored, rfl, named, may⟩

/-- Who may go is a stored provider. -/
theorem Tables.hasProvider_of_eligible (h : id ∈ t.eligibleIds config criteria now) :
    t.hasProvider id = true := by
  obtain ⟨p, stored, own, -⟩ := mem_eligibleIds.mp h
  exact any_key.mpr ⟨p, stored, own⟩

end

/-! ## Members who may go -/

namespace Team

variable {team : Team} {ids ids' : List String}

/-- The members among `ids`, in member order. -/
def eligible (team : Team) (ids : List String) : List String :=
  (team.orderedMembers.map (·.providerId)).filter ids.contains

theorem mem_eligible {id : String} :
    id ∈ team.eligible ids ↔ id ∈ team.members.map (·.providerId) ∧ id ∈ ids := by
  unfold eligible orderedMembers
  rw [List.mem_filter, List.contains_iff_mem, ((List.mergeSort_perm _ _).map _).mem_iff]

theorem eligible_congr
    (same : ∀ id ∈ team.members.map (·.providerId), id ∈ ids ↔ id ∈ ids') :
    team.eligible ids = team.eligible ids' := by
  unfold eligible
  refine List.filter_congr fun id hid => ?_
  rw [Bool.eq_iff_iff, List.contains_iff_mem, List.contains_iff_mem]
  exact same id (((List.mergeSort_perm _ _).map _).mem_iff.mp hid)

theorem eligible_nodup (members : (team.members.map (·.providerId)).Nodup) :
    (team.eligible ids).Nodup :=
  (orderedMembers_nodup members).filter _

/-- All members, where all of them may go. -/
theorem length_eligible (all : ∀ id ∈ team.members.map (·.providerId), id ∈ ids) :
    (team.eligible ids).length = team.members.length := by
  unfold eligible
  rw [List.filter_eq_self.mpr fun id hid => ?_, List.length_map]
  · exact (List.mergeSort_perm _ _).length_eq
  · rw [List.contains_iff_mem]
    exact all id (((List.mergeSort_perm _ _).map _).mem_iff.mp hid)

/-- The loaded members are the members with a load. -/
theorem loadedMembers_ids {loads : List (String × Float)}
    (loaded : ∀ id, (loadOf? loads id).isSome ↔ id ∈ ids) :
    (team.loadedMembers loads).map (·.1) = team.eligible ids := by
  unfold loadedMembers eligible
  induction team.orderedMembers with
  | nil => rfl
  | cons m rest ih =>
    have this := loaded m.providerId
    rw [List.filterMap_cons, List.map_cons]
    cases found : loadOf? loads m.providerId with
    | none =>
      rw [found] at this
      rw [List.filter_cons_of_neg (by simpa using this)]
      exact ih
    | some load =>
      rw [found] at this
      rw [List.filter_cons_of_pos (by simpa using this)]
      exact congrArg (m.providerId :: ·) ih

end Team

theorem loadOf?_isSome {loads : List (String × Float)} {id : String} :
    (loadOf? loads id).isSome ↔ id ∈ loads.map (·.1) := by
  unfold loadOf?
  rw [Option.isSome_map, List.find?_isSome]
  simp

/-- Of a ranking of available providers, each has a load. -/
theorem rankedLoads_ids {ranked : List Scored}
    (available : ∀ row ∈ ranked, row.tier.isAvailable = true) :
    (rankedLoads ranked).map (·.1) = ranked.map (·.providerId) := by
  unfold rankedLoads
  rw [List.filter_eq_self.mpr available, List.map_map]
  rfl

/-- What a team sends, by the providers who have a load. -/
theorem TeamMatch.of?_iff (team : Team) (service : String) (required : Nat)
    {loads : List (String × Float)} {ids : List String}
    (loaded : ∀ id, id ∈ loads.map (·.1) ↔ id ∈ ids) :
    (∀ found, TeamMatch.of? team service loads required = some found →
      found.teamId = team.id ∧ found.memberIds = (team.eligible ids).take required) ∧
    ((TeamMatch.of? team service loads required).isSome
      ↔ team.active = true ∧ team.offers service = true ∧
        required ≤ (team.eligible ids).length) := by
  have members : (team.loadedMembers loads).map (·.1) = team.eligible ids :=
    Team.loadedMembers_ids fun id => loadOf?_isSome.trans (loaded id)
  rw [← members, List.length_map]
  unfold TeamMatch.of?
  dsimp only
  constructor
  · intro found h
    split at h
    · rw [← Option.some.inj h]
      exact ⟨rfl, List.map_take⟩
    · cases h
  · split
    · next fits => simpa [and_assoc] using fits
    · next short => simpa [and_assoc] using short

theorem eligibleMembers_eq_ok {team : Team} {ids sent : List String} {required : Nat}
    (asked : checkHeadcount required = .ok ()) :
    eligibleMembers team ids required = .ok sent
      ↔ required ≤ (team.eligible ids).length ∧ sent = (team.eligible ids).take required := by
  unfold eligibleMembers
  rw [asked]
  change (if (team.eligible ids).length < required then _ else Except.ok _) = _ ↔ _
  split
  · next short => simp [Nat.not_le.mpr short]
  · next enough =>
    rw [and_iff_right (Nat.le_of_not_lt enough), Except.ok.injEq, eq_comm]
    rfl

theorem providerListFault_eq_ok {eligible : List String} (ids seen : List String)
    (distinct : ids.Nodup) (unseen : ∀ id ∈ ids, id ∉ seen) (may : ∀ id ∈ ids, id ∈ eligible) :
    providerListFault eligible seen ids = .ok () := by
  induction ids generalizing seen with
  | nil => rfl
  | cons id rest ih =>
    obtain ⟨new, distinct⟩ := List.nodup_cons.mp distinct
    rw [providerListFault, if_neg (by simpa using unseen id List.mem_cons_self),
      if_neg (by simpa using may id List.mem_cons_self)]
    refine ih (id :: seen) distinct (fun other hother => ?_)
      fun other hother => may other (List.mem_cons_of_mem _ hother)
    rw [List.mem_cons, not_or]
    exact ⟨fun same => new (same ▸ hother), unseen other (List.mem_cons_of_mem _ hother)⟩

theorem leastLoaded_eq_none {matches_ : List TeamMatch} :
    leastLoaded matches_ = none ↔ matches_ = [] := by
  cases matches_ <;> simp [leastLoaded]

/-! ## The calls -/

namespace Engine

variable {e : Engine} {required : Nat}

/-- The providers who may go now. -/
def eligibleIds (e : Engine) (criteria : Criteria) : List String :=
  e.store.tables.eligibleIds e.config criteria e.now

theorem Rests.eligibleIds {e₁ : Engine} (h : e.Rests e₁) (criteria : Criteria) :
    e₁.eligibleIds criteria = e.eligibleIds criteria := by
  unfold Engine.eligibleIds
  rw [h.store, h.clock, h.config]

/-- Looking for candidates succeeds, and finds those who may go. -/
theorem ranking_succeeds (criteria : Criteria)
    (headcount : checkHeadcount criteria.requiredMembers = .ok ()) (now : Instant) (e : Engine) :
    ∃ ranked e', ranking criteria now e = .ok ranked e' ∧
      (ranked.map (·.providerId)).Perm (e.store.tables.eligibleIds e.config criteria now) ∧
      ∀ row ∈ ranked, row.tier.isAvailable = true := by
  obtain ⟨ceiling, e₁, priced⟩ : ∃ ceiling e₁, priceCeiling criteria e = .ok ceiling e₁ := by
    unfold priceCeiling
    cases criteria.priceCeiling <;> exact ⟨_, _, rfl⟩
  obtain ⟨w, e₂, weighed⟩ : ∃ w e₂, weights e₁ = .ok w e₂ := ⟨_, _, rfl⟩
  have ranked : ranking criteria now e = .ok (rank (e.store.tables.candidates e.config criteria now)
      { criteria with priceCeiling := ceiling } w e.config.scoring) e₂ := by
    unfold ranking
    rw [headcount, bind_of_ok (ofExcept_apply () e), bind_of_ok (get_apply e), bind_of_ok priced,
      bind_of_ok weighed]
    rfl
  exact ⟨_, e₂, ranked, rank_providerIds _ _ _ _, fun row hrow => rank_available hrow⟩

/-- What matching a team answers, by who may go. -/
theorem matchTeam_succeeds (quiet : e.priceSource.IsQuiet)
    (headcount : checkHeadcount criteria.requiredMembers = .ok ())
    (asked : checkHeadcount required = .ok ()) :
    ∃ found e', matchTeam criteria required e = .ok found e' ∧
      (∀ sent, found = some sent → ∃ team ∈ e.store.tables.activeTeams,
        required ≤ (team.eligible (e.eligibleIds criteria)).length ∧
        sent.teamId = team.id ∧ sent.memberIds
          = (team.eligible (e.eligibleIds criteria)).take required) ∧
      (found = none → ∀ team ∈ e.store.tables.activeTeams, team.offers criteria.service = true →
        (team.eligible (e.eligibleIds criteria)).length < required) := by
  obtain ⟨ranked, e', looked, ids, available⟩ := ranking_succeeds criteria headcount e.now e
  have store : e'.store = e.store := (after_of_ok looked ▸ rests_ranking quiet criteria).store
  have loaded : ∀ id, id ∈ (rankedLoads ranked).map (·.1)
      ↔ id ∈ e.eligibleIds criteria := fun id => by
    rw [rankedLoads_ids available, ids.mem_iff]
    rfl
  refine ⟨pickTeam e.store.tables.activeTeams criteria.service (rankedLoads ranked) required, e',
    ?_, fun sent picked => ?_, fun none team hteam offers => ?_⟩
  · unfold matchTeam matchTeamAt
    rw [bind_of_ok (clock_apply e), asked, bind_of_ok (ofExcept_apply () e), bind_of_ok looked,
      ← store]
    rfl
  · obtain ⟨team, hteam, sends⟩ := List.mem_filterMap.mp (leastLoaded_mem picked)
    obtain ⟨who, fits⟩ := TeamMatch.of?_iff team criteria.service required loaded
    obtain ⟨teamId, memberIds⟩ := who sent sends
    exact ⟨team, hteam, (fits.mp (by rw [sends]; rfl)).2.2, teamId, memberIds⟩
  · by_contra enough
    obtain ⟨-, fits⟩ := TeamMatch.of?_iff team criteria.service required loaded
    have sends := fits.mpr ⟨(List.mem_filter.mp hteam).2, offers, Nat.le_of_not_lt enough⟩
    obtain ⟨sent, sends⟩ := Option.isSome_iff_exists.mp sends
    have among : sent ∈ e.store.tables.activeTeams.filterMap fun team =>
        TeamMatch.of? team criteria.service (rankedLoads ranked) required :=
      List.mem_filterMap.mpr ⟨team, hteam, sends⟩
    rw [leastLoaded_eq_none.mp none] at among
    cases among

theorem rests_matchTeam (quiet : e.priceSource.IsQuiet) (criteria : Criteria) (required : Nat) :
    e.Rests (after (matchTeam criteria required) e) :=
  rests_bind (.refl e) fun _ _ _ rests =>
    rests_matchTeamAt (rests.priceSource ▸ quiet) criteria required

/-- When a check of a team succeeds, and with whom. -/
theorem ensureTeam_iff {team : Team} (whole : criteria.providerIds = none)
    (headcount : checkHeadcount criteria.requiredMembers = .ok ())
    (asked : checkHeadcount required = .ok ()) (known : e.store.tables.team? team.id = some team)
    (active : team.active = true) {ids : List String} :
    (∃ e', ensureTeam team.id criteria required e = .ok ids e')
      ↔ required ≤ (team.eligible (e.eligibleIds criteria)).length ∧
        ids = (team.eligible (e.eligibleIds criteria)).take required := by
  obtain ⟨ranked, e₁, looked, perm, -⟩ :=
    ranking_succeeds (criteria.restrictedTo (team.members.map (·.providerId))) headcount e.now e
  have same : team.eligible (ranked.map (·.providerId))
      = team.eligible (e.eligibleIds criteria) :=
    Team.eligible_congr fun id hid => by
      rw [perm.mem_iff, Tables.mem_eligibleIds_restricted whole, and_iff_right hid]
      rfl
  have runs : ensureTeam team.id criteria required e
      = ofExcept (eligibleMembers team (ranked.map (·.providerId)) required) e₁ := by
    unfold ensureTeam
    have demanded : onStore (Work.demand .team team.id (Tables.team? · team.id)) e = .ok team e :=
      onStore_of_ok (Work.demand_eq_ok.mpr ⟨known, rfl⟩)
    rw [asked, bind_of_ok (ofExcept_apply () e), bind_of_ok demanded, if_neg (by simp [active])]
    exact (bind_of_ok (clock_apply e)).trans (bind_of_ok looked)
  rw [runs, ← same]
  simp only [ofExcept_eq_ok, exists_and_left, exists_eq, and_true]
  exact eligibleMembers_eq_ok asked

/-- A check of different providers who may go succeeds. -/
theorem ensureProviders_succeeds (whole : criteria.providerIds = none)
    (headcount : checkHeadcount criteria.requiredMembers = .ok ()) {ids : List String}
    (some : ids ≠ []) (distinct : ids.Nodup)
    (may : ∀ id ∈ ids, id ∈ e.eligibleIds criteria) :
    ∃ e', ensureProviders ids criteria e = .ok () e' := by
  obtain ⟨ranked, e₁, looked, perm, -⟩ :=
    ranking_succeeds (criteria.restrictedTo ids) headcount e.now e
  have known : requireProviders ids e = .ok () e := by
    have stored : ids.find? (!e.store.tables.hasProvider ·) = none :=
      List.find?_eq_none.mpr fun id hid => by
        simp [Tables.hasProvider_of_eligible (may id hid)]
    unfold requireProviders
    rw [bind_of_ok (ask_eq_ok.mpr ⟨rfl, rfl⟩), id, stored]
    rfl
  have passes : checkProviderList ids (ranked.map (·.providerId)) = .ok () := by
    unfold checkProviderList
    rw [if_neg (by simpa using some)]
    refine providerListFault_eq_ok ids [] distinct (fun _ _ => List.not_mem_nil) fun id hid => ?_
    rw [perm.mem_iff, Tables.mem_eligibleIds_restricted whole]
    exact ⟨hid, may id hid⟩
  refine ⟨e₁, ?_⟩
  unfold ensureProviders
  rw [if_neg (by simpa using some)]
  refine (bind_of_ok known).trans ((bind_of_ok (clock_apply e)).trans ?_)
  rw [bind_of_ok looked, passes]
  rfl

/-- **Matching a team and checking one agree.** Matching never fails. The members that it would send
are exactly those that a check of the team answers, and as a list of providers they pass as well.
Where a check of an active team that offers the service succeeds, matching finds some team. -/
theorem matchTeam_agrees (keyed : e.store.tables.RosterKeyed) (quiet : e.priceSource.IsQuiet)
    (whole : criteria.providerIds = none)
    (headcount : 1 ≤ criteria.requiredMembers ∧ criteria.requiredMembers ≤ 20)
    (asked : 1 ≤ required ∧ required ≤ 20) :
    ∃ found e', matchTeam criteria required e = .ok found e' ∧ e.Rests e' ∧
      ∀ e₁, e.Rests e₁ →
        (∀ sent, found = some sent →
          (∃ e₂, ensureTeam sent.teamId criteria required e₁ = .ok sent.memberIds e₂) ∧
          ∃ e₂, ensureProviders sent.memberIds criteria e₁ = .ok () e₂) ∧
        (∀ team ∈ e.store.tables.activeTeams, team.offers criteria.service = true →
          (∃ ids e₂, ensureTeam team.id criteria required e₁ = .ok ids e₂) → found.isSome) := by
  have headcount := checkHeadcount_eq_ok (u := ()).mpr headcount
  have askedOk := checkHeadcount_eq_ok (u := ()).mpr asked
  obtain ⟨found, e', matched, sends, misses⟩ := matchTeam_succeeds quiet headcount askedOk
  have rests := rests_matchTeam quiet criteria required
  rw [after_of_ok matched] at rests
  have known : ∀ team ∈ e.store.tables.activeTeams,
      team.active = true ∧ e.store.tables.team? team.id = some team := fun team hteam =>
    ⟨(List.mem_filter.mp hteam).2,
      (find?_key_eq_some keyed.teams).mpr ⟨(List.mem_filter.mp hteam).1, rfl⟩⟩
  refine ⟨found, e', matched, rests, fun e₁ alike => ⟨fun sent picked => ?_, ?_⟩⟩
  · obtain ⟨team, hteam, enough, teamId, members⟩ := sends sent picked
    obtain ⟨active, stored⟩ := known team hteam
    rw [← alike.eligibleIds] at enough members
    rw [← alike.store] at stored
    rw [teamId, members]
    refine ⟨(ensureTeam_iff whole headcount askedOk stored active).mpr ⟨enough, rfl⟩, ?_⟩
    refine ensureProviders_succeeds whole headcount ?_ ?_ fun id hid => ?_
    · rw [← List.length_pos_iff, List.length_take, Nat.min_eq_left enough]
      exact asked.1
    · exact (Team.eligible_nodup (keyed.members team (List.mem_filter.mp hteam).1)).sublist
        (List.take_sublist _ _)
    · exact (Team.mem_eligible.mp (List.mem_of_mem_take hid)).2
  · rintro team hteam offers ⟨ids, checked⟩
    obtain ⟨active, stored⟩ := known team hteam
    rw [← alike.store] at stored
    obtain ⟨enough, -⟩ := (ensureTeam_iff whole headcount askedOk stored active).mp checked
    rw [alike.eligibleIds] at enough
    rw [Option.isSome_iff_ne_none]
    intro missed
    exact absurd enough (Nat.not_le.mpr (misses missed team hteam offers))

end Engine

namespace Sample

/-- A team of two. -/
def onePair : List Operation := [
  .insertProvider (provider "ada"), .insertProvider (provider "bob"),
  .createTeam admin (team ["ada", "bob"])]

/-- What asks for two, on a Monday from 9 o'clock of universal time on. -/
def forTwo : Criteria where
  window := ⟨Instant.utc 2026 3 2 9 0, Instant.utc 2026 3 2 11 0⟩
  requiredMembers := 2

/-- Both members of the team may go. -/
theorem onePair_eligible : ∀ id ∈ ["ada", "bob"],
    id ∈ (Operation.afterAll onePair engine).eligibleIds forTwo := by
  obtain ⟨e, made⟩ : ∃ e, e = Operation.afterAll onePair engine := ⟨_, rfl⟩
  rw [← made]
  have may : (e.store.tables.providers.filter fun p =>
      p.mayGo e.store.tables e.config forTwo e.now).map (·.id) = ["ada", "bob"] := by
    rw [made]
    decide +kernel
  intro id hid
  rw [← may] at hid
  obtain ⟨p, hp, own⟩ := List.mem_map.mp hid
  obtain ⟨stored, free⟩ := List.mem_filter.mp hp
  exact Tables.mem_eligibleIds.mpr ⟨p, stored, own, free⟩

end Sample

/-- The team of two is matched, and as it is matched it passes both checks. -/
theorem matchTeam_agrees_onePair : ∃ e : Engine, ∃ sent e',
    e.store.tables.RosterKeyed ∧ e.priceSource.IsQuiet ∧
    Engine.matchTeam Sample.forTwo 2 e = .ok (some sent) e' ∧
    (∃ e₂, Engine.ensureTeam sent.teamId Sample.forTwo 2 e' = .ok sent.memberIds e₂) ∧
    ∃ e₂, Engine.ensureProviders sent.memberIds Sample.forTwo e' = .ok () e₂ := by
  obtain ⟨e, made⟩ : ∃ e, e = Operation.afterAll Sample.onePair Sample.engine := ⟨_, rfl⟩
  have run : Run (Operation.trace Sample.onePair Sample.engine) e := made ▸
    Run.of_operations rfl rfl (fun _ _ _ => rfl)
      (by simp [Sample.onePair, Operation.IsAdmissible])
  have keyed : e.store.tables.RosterKeyed := run.ready.keyed.toRosterKeyed
  have roster : e.store.tables.activeTeams.map
      (fun team => (team.members.map (·.providerId), team.offers "standard"))
      = [(["ada", "bob"], true)] := by
    rw [made]
    decide +kernel
  have eligible : ∀ id ∈ ["ada", "bob"], id ∈ e.eligibleIds Sample.forTwo :=
    made ▸ Sample.onePair_eligible
  obtain ⟨team, teams, facts⟩ := List.map_eq_singleton_iff.mp roster
  obtain ⟨members, offers⟩ := Prod.mk.inj facts
  have hteam : team ∈ e.store.tables.activeTeams := teams ▸ List.mem_singleton_self team
  obtain ⟨stored, active⟩ := List.mem_filter.mp hteam
  have enough : 2 ≤ (team.eligible (e.eligibleIds Sample.forTwo)).length := by
    rw [Team.length_eligible (members ▸ eligible), ← List.length_map, members]
    decide
  have whole : Sample.forTwo.providerIds = none := rfl
  have headcount : 1 ≤ Sample.forTwo.requiredMembers ∧ Sample.forTwo.requiredMembers ≤ 20 := by
    decide
  have asked : 1 ≤ 2 ∧ 2 ≤ 20 := by decide
  obtain ⟨found, e', matched, rests, agree⟩ :=
    Engine.matchTeam_agrees keyed run.ready.quiet whole headcount asked
  have checked := (Engine.ensureTeam_iff whole rfl rfl
    ((find?_key_eq_some keyed.teams).mpr ⟨stored, rfl⟩) active).mpr ⟨enough, rfl⟩
  obtain ⟨sent, rfl⟩ := Option.isSome_iff_exists.mp
    ((agree e (.refl e)).2 team hteam offers ⟨_, checked⟩)
  exact ⟨e, sent, e', keyed, run.ready.quiet, matched, (agree e' rests).1 sent rfl⟩

end Staffing
