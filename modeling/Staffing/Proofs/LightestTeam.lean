import Staffing.Proofs.Picking
import Staffing.Proofs.TeamEligibility

/-!
# The lightest team goes

Of the teams that can send enough loaded members the first goes whose total load no other undercuts,
provided that the totals can be compared. Floats can, as long as none of them is NaN.

* `isStrictWeakOrder_of_not_nan` — floats that are not NaN have a strict weak order
* `Team.CanSend`, `Team.Sends`, `Team.IsLightest` — whom a team sends, and that no team undercuts it
* `leastLoaded_isFirstLeast` — the loop over the matches
* `pickTeam_lightest` — the choice, and that it does not depend on the order of members
-/

namespace Staffing

/-! ## Comparing floats -/

open Float.Model in
/-- The place of a float: infinities outside, then finite numbers by exponent and mantissa, and both
zeros in the middle. -/
def floatPlace : UnpackedFloat → Int ×ₗ Int ×ₗ Int
  | .infinity .positive => toLex (2, toLex (0, 0))
  | .finite .positive mantissa exponent _ => toLex (1, toLex (exponent, mantissa))
  | .zero _ | .notANumber => toLex (0, toLex (0, 0))
  | .finite .negative mantissa exponent _ => toLex (-1, toLex (-exponent, -mantissa))
  | .infinity .negative => toLex (-2, toLex (0, 0))

open Float.Model in
/-- Numbers are compared by their places. -/
theorem unpackedFloat_lt_iff {x y : UnpackedFloat} (hx : x.isNaN = false) (hy : y.isNaN = false) :
    x.lt y = true ↔ floatPlace x < floatPlace y := by
  have signs : compare UnpackedFloat.Sign.negative .positive = .lt := rfl
  rcases x with (_ | _) | _ | _ | ⟨_ | _, m, e, hm⟩ <;>
    rcases y with (_ | _) | _ | _ | ⟨_ | _, m', e', hm'⟩ <;>
    simp_all [UnpackedFloat.lt, UnpackedFloat.compare, UnpackedFloat.isNaN, floatPlace,
      Prod.Lex.toLex_lt_toLex, Ordering.then_eq_lt, Ordering.then_eq_gt, compare_lt_iff_lt,
      compare_gt_iff_gt]

theorem float_lt_iff {x y : Float} (hx : x.isNaN = false) (hy : y.isNaN = false) :
    x < y ↔ floatPlace x.toModel.unpack < floatPlace y.toModel.unpack := by
  rw [← unpackedFloat_lt_iff hx hy]
  exact decide_eq_true_iff

/-- **Floats have a strict weak order,** as long as none of them is NaN. -/
theorem isStrictWeakOrder_of_not_nan {loads : Set Float} (numbers : ∀ x ∈ loads, x.isNaN = false) :
    IsStrictWeakOrder loads fun x y => x.1 < y.1 := by
  have lt_iff (x y : loads) :
      x.1 < y.1 ↔ floatPlace x.1.toModel.unpack < floatPlace y.1.toModel.unpack :=
    float_lt_iff (numbers x x.2) (numbers y y.2)
  refine { irrefl := ?_, trans := ?_, incomp_trans := ?_ }
  · intro x
    rw [lt_iff]
    exact lt_irrefl _
  · intro x y z
    rw [lt_iff, lt_iff, lt_iff]
    exact lt_trans
  · intro x y z
    simp only [lt_iff, not_lt]
    exact fun ⟨yx, xy⟩ ⟨zy, yz⟩ => ⟨zy.trans yx, xy.trans yz⟩

/-- In a strict weak order what is between two that differ differs from one of them. -/
theorem lt_or_lt_of_lt {loads : Set Float}
    (weak : IsStrictWeakOrder loads fun x y => x.1 < y.1) {x y z : Float} (hx : x ∈ loads)
    (hy : y ∈ loads) (hz : z ∈ loads) (h : x < z) : x < y ∨ y < z := by
  by_contra between
  obtain ⟨notAbove, notBelow⟩ := not_or.mp between
  have lift {a b c : Float} (ha : a ∈ loads) (hb : b ∈ loads) (hc : c ∈ loads) (hab : a < b)
      (hbc : b < c) : a < c :=
    weak.trans ⟨a, ha⟩ ⟨b, hb⟩ ⟨c, hc⟩ hab hbc
  have notBelowX : ¬ y < x := fun below => notBelow (lift hy hx hz below h)
  have notAboveZ : ¬ z < y := fun above => notAbove (lift hx hz hy h above)
  exact (weak.incomp_trans ⟨x, hx⟩ ⟨y, hy⟩ ⟨z, hz⟩ ⟨notAbove, notBelowX⟩ ⟨notBelow, notAboveZ⟩).1 h

/-! ## The loop -/

/-- No match has a lower load, and those before it have a higher one. -/
def TeamMatch.IsFirstLeast (best : TeamMatch) (matches_ : List TeamMatch) : Prop :=
  ∃ before after, matches_ = before ++ best :: after ∧
    (∀ m ∈ before, best.totalLoad < m.totalLoad) ∧
    ∀ m ∈ matches_, ¬ m.totalLoad < best.totalLoad

section Loop

variable {loads : Set Float} {best m : TeamMatch} {matches_ : List TeamMatch}

/-- One more match undercuts the best so far, or not. -/
theorem TeamMatch.IsFirstLeast.snoc (weak : IsStrictWeakOrder loads fun x y => x.1 < y.1)
    (among : ∀ k ∈ matches_, k.totalLoad ∈ loads) (hm : m.totalLoad ∈ loads)
    (h : best.IsFirstLeast matches_) :
    (if m.totalLoad < best.totalLoad then m else best).IsFirstLeast (matches_ ++ [m]) := by
  obtain ⟨before, after, rfl, above, least⟩ := h
  have hbest : best.totalLoad ∈ loads := among best (by simp)
  by_cases undercuts : m.totalLoad < best.totalLoad
  · rw [if_pos undercuts]
    -- Nothing is below the best so far, so whatever is not above it is level with it.
    have below : ∀ k ∈ before ++ best :: after, m.totalLoad < k.totalLoad := fun k hk =>
      (lt_or_lt_of_lt weak hm (among k hk) hbest undercuts).resolve_right (least k hk)
    refine ⟨_, [], rfl, below, fun k hk => ?_⟩
    rcases List.mem_append.mp hk with old | new
    · exact fun above => weak.irrefl ⟨_, hm⟩
        (weak.trans ⟨_, hm⟩ ⟨_, among k old⟩ ⟨_, hm⟩ (below k old) above)
    · rw [List.mem_singleton.mp new]
      exact weak.irrefl ⟨_, hm⟩
  · rw [if_neg undercuts]
    refine ⟨before, after ++ [m], by simp, above, fun k hk => ?_⟩
    rcases List.mem_append.mp hk with old | new
    · exact least k old
    · rw [List.mem_singleton.mp new]
      exact undercuts

/-- **The loop finds the first of the least.** -/
theorem leastLoaded_isFirstLeast (weak : IsStrictWeakOrder loads fun x y => x.1 < y.1)
    (among : ∀ k ∈ matches_, k.totalLoad ∈ loads) (h : leastLoaded matches_ = some best) :
    best.IsFirstLeast matches_ := by
  cases matches_ with
  | nil => cases h
  | cons first rest =>
    obtain rfl := Option.some.inj h
    clear h
    -- The first of the matches so far is the best so far.
    have loop : ∀ (rest seen : List TeamMatch) (best : TeamMatch), best.IsFirstLeast seen →
        (∀ k ∈ seen ++ rest, k.totalLoad ∈ loads) →
        (rest.foldl (fun best m => if m.totalLoad < best.totalLoad then m else best)
          best).IsFirstLeast (seen ++ rest) := by
      intro rest
      induction rest with
      | nil =>
        intro seen best h _
        rw [List.append_nil]
        exact h
      | cons m rest ih =>
        intro seen best h among
        have next := h.snoc weak (fun k hk => among k (by simp [hk])) (among m (by simp))
        rw [List.append_cons] at among ⊢
        exact ih (seen ++ [m]) _ next among
    refine loop rest [first] first ⟨[], [], rfl, ?_, ?_⟩ among
    · exact fun _ h => absurd h List.not_mem_nil
    · intro k hk
      rw [List.mem_singleton.mp hk]
      exact weak.irrefl ⟨_, among first List.mem_cons_self⟩

end Loop

/-! ## What a team sends -/

theorem Member.ComesBefore.asymm {a b : Member} (ab : a.ComesBefore b) : ¬ b.ComesBefore a := by
  rcases ab with ⟨lead, other⟩ | ⟨same, lower | ⟨level, before⟩⟩
  · simp [ComesBefore, lead, other]
  · simp [ComesBefore, same, lower.not_gt, lower.ne']
  · simp [ComesBefore, same, level, before.not_gt]

namespace Team

variable {team other : Team} {service : String} {loads : List (String × Float)} {required : Nat}
  {found : TeamMatch}

/-- The team is active, offers the service, and has enough members with a load. -/
def CanSend (team : Team) (service : String) (loads : List (String × Float)) (required : Nat) :
    Prop :=
  team.active = true ∧ team.offers service = true ∧
    required ≤ (team.members.filter fun m => m.providerId ∈ loads.map (·.1)).length

/-- The team can send its first members with a load, and the total is that of their loads. -/
structure Sends (team : Team) (service : String) (loads : List (String × Float)) (required : Nat)
    (found : TeamMatch) : Prop where
  can : team.CanSend service loads required
  teamId : found.teamId = team.id
  members : ∃ members, team.InOrder members ∧
    found.memberIds
      = ((members.map (·.providerId)).filter fun id => id ∈ loads.map (·.1)).take required
  totalLoad : found.totalLoad = (found.memberIds.filterMap (loadOf? loads)).foldl (· + ·) 0

/-- The team can send members, and no team can send some of a lower total load. -/
def IsLightest (team : Team) (teams : List Team) (service : String) (loads : List (String × Float))
    (required : Nat) : Prop :=
  ∃ found, team.Sends service loads required found ∧ ∀ other ∈ teams, ∀ sent,
    other.Sends service loads required sent → ¬ sent.totalLoad < found.totalLoad

/-- The teams are the same but for the order in which their members are stored. -/
def SameButOrder (team other : Team) : Prop :=
  ∃ members, members.Perm team.members ∧ other = { team with members }

/-- Members have one order. -/
theorem InOrder.unique {members members' : List Member} (h : team.InOrder members)
    (h' : team.InOrder members') : members = members' := by
  refine List.Perm.eq_of_pairwise ?_ h.sorted h'.sorted (h.perm.trans h'.perm.symm)
  intro a b _ _ ab ba
  exact absurd ba (Member.ComesBefore.asymm ab)

theorem length_eligible_eq {ids : List String} :
    (team.eligible ids).length = (team.members.filter fun m => m.providerId ∈ ids).length := by
  unfold eligible orderedMembers
  rw [List.filter_map, List.length_map, ((List.mergeSort_perm _ _).filter _).length_eq]
  refine congrArg List.length (List.filter_congr fun m _ => ?_)
  exact List.contains_eq_mem _ _

theorem InOrder.eligible_eq {members : List Member} (h : team.InOrder members)
    (nodup : (team.members.map (·.providerId)).Nodup) (ids : List String) :
    (members.map (·.providerId)).filter (fun id => id ∈ ids) = team.eligible ids := by
  rw [h.unique (orderedMembers_inOrder nodup)]
  exact List.filter_congr fun id _ => (List.contains_eq_mem _ _).symm

theorem loadOf?_loadedMembers {pair : String × Float} (h : pair ∈ team.loadedMembers loads) :
    loadOf? loads pair.1 = some pair.2 := by
  obtain ⟨m, -, hm⟩ := List.mem_filterMap.mp h
  obtain ⟨load, found, rfl⟩ := Option.map_eq_some_iff.mp hm
  exact found

/-- The total is that of the loads of whom the team sends. -/
theorem totalLoad_of? (h : TeamMatch.of? team service loads required = some found) :
    found.totalLoad = (found.memberIds.filterMap (loadOf? loads)).foldl (· + ·) 0 := by
  unfold TeamMatch.of? at h
  dsimp only at h
  split at h
  · rw [← Option.some.inj h]
    refine congrArg (List.foldl (· + ·) 0) ?_
    rw [List.filterMap_map, ← List.filterMap_eq_map]
    refine List.filterMap_congr fun pair hpair => ?_
    exact (loadOf?_loadedMembers (List.mem_of_mem_take hpair)).symm
  · cases h

/-- What is computed for a team is whom it sends. -/
theorem sends_iff (nodup : (team.members.map (·.providerId)).Nodup) :
    team.Sends service loads required found
      ↔ TeamMatch.of? team service loads required = some found := by
  have loaded (id : String) : id ∈ loads.map (·.1) ↔ id ∈ loads.map (·.1) := Iff.rfl
  obtain ⟨answers, isSome⟩ := TeamMatch.of?_iff team service required loaded
  constructor
  · rintro ⟨⟨active, offers, enough⟩, teamId, ⟨members, inOrder, memberIds⟩, total⟩
    obtain ⟨sent, computed⟩ := Option.isSome_iff_exists.mp
      (isSome.mpr ⟨active, offers, length_eligible_eq ▸ enough⟩)
    obtain ⟨teamId', memberIds'⟩ := answers sent computed
    rw [inOrder.eligible_eq nodup, ← memberIds'] at memberIds
    have total' := totalLoad_of? computed
    rw [← memberIds, ← total] at total'
    obtain ⟨_, _, _⟩ := sent
    obtain ⟨_, _, _⟩ := found
    rw [computed, Option.some.injEq, TeamMatch.mk.injEq]
    exact ⟨teamId'.trans teamId.symm, memberIds.symm, total'⟩
  · intro computed
    obtain ⟨teamId, memberIds⟩ := answers found computed
    obtain ⟨active, offers, enough⟩ := isSome.mp (computed ▸ rfl)
    have inOrder := orderedMembers_inOrder nodup
    refine ⟨⟨active, offers, length_eligible_eq ▸ enough⟩, teamId, ⟨_, inOrder, ?_⟩,
      totalLoad_of? computed⟩
    rw [inOrder.eligible_eq nodup, memberIds]

theorem canSend_iff : team.CanSend service loads required
    ↔ (TeamMatch.of? team service loads required).isSome := by
  unfold CanSend
  rw [← length_eligible_eq]
  exact (TeamMatch.of?_iff team service required fun _ => Iff.rfl).2.symm

/-- Whom a team sends does not depend on the order in which its members are stored. -/
theorem SameButOrder.of?_eq (nodup : (team.members.map (·.providerId)).Nodup)
    (h : team.SameButOrder other) : TeamMatch.of? other service loads required
      = TeamMatch.of? team service loads required := by
  obtain ⟨members, perm, rfl⟩ := h
  have inOrder : InOrder { team with members } (orderedMembers { team with members }) :=
    orderedMembers_inOrder ((perm.map _).nodup_iff.mpr nodup)
  have same : { team with members }.orderedMembers = team.orderedMembers :=
    InOrder.unique ⟨inOrder.perm.trans perm, inOrder.sorted⟩ (orderedMembers_inOrder nodup)
  unfold TeamMatch.of? loadedMembers
  rw [same]
  rfl

end Team

/-! ## The choice -/

/-- The total loads of whom the teams send. -/
def sentLoads (teams : List Team) (service : String) (loads : List (String × Float))
    (required : Nat) : Set Float :=
  { load | ∃ team ∈ teams, ∃ found, team.Sends service loads required found ∧
    found.totalLoad = load }

section Choice

variable {teams teams' : List Team} {service : String} {loads : List (String × Float)}
  {required : Nat} {found : TeamMatch}

/-- No team is picked if and only if none can send enough members. -/
theorem pickTeam_eq_none_iff : pickTeam teams service loads required = none ↔
    ∀ team ∈ teams, ¬ team.CanSend service loads required := by
  unfold pickTeam
  rw [leastLoaded_eq_none, List.filterMap_eq_nil_iff]
  refine forall₂_congr fun team _ => ?_
  rw [Team.canSend_iff, Option.not_isSome_iff_eq_none]

section Nodup

variable (nodup : ∀ team ∈ teams, (team.members.map (·.providerId)).Nodup)
include nodup

theorem mem_filterMap_of? : found ∈ teams.filterMap (TeamMatch.of? · service loads required) ↔
    ∃ team ∈ teams, team.Sends service loads required found := by
  rw [List.mem_filterMap]
  refine exists_congr fun team => and_congr_right fun hteam => ?_
  exact (Team.sends_iff (nodup team hteam)).symm

/-- Who is picked is sent by the first of the lightest teams. -/
theorem pickTeam_eq_some
    (weak : IsStrictWeakOrder (sentLoads teams service loads required) fun x y => x.1 < y.1)
    (picked : pickTeam teams service loads required = some found) :
    ∃ before team after, teams = before ++ team :: after ∧
      team.Sends service loads required found ∧ team.IsLightest teams service loads required ∧
      ∀ other ∈ before, ¬ other.IsLightest teams service loads required := by
  have among : ∀ m ∈ teams.filterMap (TeamMatch.of? · service loads required),
      m.totalLoad ∈ sentLoads teams service loads required := by
    intro m hm
    obtain ⟨team, hteam, sends⟩ := (mem_filterMap_of? nodup).mp hm
    exact ⟨team, hteam, m, sends, rfl⟩
  obtain ⟨earlier, later, split, above, least⟩ := leastLoaded_isFirstLeast weak among picked
  obtain ⟨front, rest, rfl, rfl, tail⟩ := List.filterMap_eq_append_iff.mp split
  obtain ⟨skipped, team, after, rfl, silent, computed, -⟩ := List.filterMap_eq_cons_iff.mp tail
  have sends := (Team.sends_iff (nodup team (by simp))).mpr computed
  refine ⟨front ++ skipped, team, after, by simp, sends, ⟨found, sends, ?_⟩, ?_⟩
  · intro other hother sent sendsOther
    exact least sent (split ▸ (mem_filterMap_of? nodup).mpr ⟨other, hother, sendsOther⟩)
  · rintro other hother ⟨sent, sendsOther, lightest⟩
    have computedOther := (Team.sends_iff (nodup other (by
      rcases List.mem_append.mp hother with h | h <;> simp [h]))).mp sendsOther
    rcases List.mem_append.mp hother with inFront | inSkipped
    · -- The team that is picked undercuts this one.
      exact lightest team (by simp) found sends
        (above sent (List.mem_filterMap.mpr ⟨other, inFront, computedOther⟩))
    · rw [silent other inSkipped] at computedOther
      cases computedOther

/-- The order in which members are stored does not matter. -/
theorem pickTeam_sameButOrder (same : List.Forall₂ Team.SameButOrder teams teams') :
    pickTeam teams' service loads required = pickTeam teams service loads required := by
  unfold pickTeam
  refine congrArg leastLoaded ?_
  induction same with
  | nil => rfl
  | cons h _ ih =>
    rw [List.filterMap_cons, List.filterMap_cons, h.of?_eq (nodup _ List.mem_cons_self),
      ih fun team hteam => nodup team (List.mem_cons_of_mem _ hteam)]

end Nodup

end Choice

/-- **The lightest team goes,** and of several the first. Teams list a member once, and the total
loads of whom they send have a strict weak order. Then no team is picked exactly if none can send
enough members with a load. Otherwise it is the first of the teams that no other undercuts, and it
sends its first members with a load. The order in which a team's members are stored does not
matter. -/
theorem pickTeam_lightest (teams : List Team) (service : String) (loads : List (String × Float))
    (required : Nat) (nodup : ∀ team ∈ teams, (team.members.map (·.providerId)).Nodup)
    (weak : IsStrictWeakOrder (sentLoads teams service loads required) fun x y => x.1 < y.1) :
    (pickTeam teams service loads required = none ↔
      ∀ team ∈ teams, ¬ team.CanSend service loads required) ∧
    (∀ found, pickTeam teams service loads required = some found →
      ∃ before team after, teams = before ++ team :: after ∧
        team.Sends service loads required found ∧
        team.IsLightest teams service loads required ∧
        ∀ other ∈ before, ¬ other.IsLightest teams service loads required) ∧
    ∀ teams', List.Forall₂ Team.SameButOrder teams teams' →
      pickTeam teams' service loads required = pickTeam teams service loads required :=
  ⟨pickTeam_eq_none_iff, fun _ => pickTeam_eq_some nodup weak, fun _ => pickTeam_sameButOrder nodup⟩

namespace Sample

/-- A team of one. -/
def solo (providerId : String) : Team where
  id := providerId
  name := providerId
  timezone := "Europe/Berlin"
  dailyCap := none
  active := true
  services := []
  members := [{ providerId }]

/-- Three of them. -/
def solos : List Team := [solo "ada", solo "bob", solo "cleo"]

/-- The last two are level. -/
def soloLoads : List (String × Float) := [("ada", 2), ("bob", 1), ("cleo", 1)]

end Sample

/-- Of the two that are level the first goes. -/
theorem pickTeam_lightest_solos : ∃ found,
    pickTeam Sample.solos "standard" Sample.soloLoads 1 = some found ∧ found.teamId = "bob" ∧
    ∃ before team after, Sample.solos = before ++ team :: after ∧
      team.Sends "standard" Sample.soloLoads 1 found ∧
      team.IsLightest Sample.solos "standard" Sample.soloLoads 1 := by
  have nodup : ∀ team ∈ Sample.solos, (team.members.map (·.providerId)).Nodup := by
    decide +kernel
  have numbers : ∀ team ∈ Sample.solos, ∀ found ∈ TeamMatch.of? team "standard" Sample.soloLoads 1,
      found.totalLoad.isNaN = false := by
    decide +kernel
  have weak : IsStrictWeakOrder (sentLoads Sample.solos "standard" Sample.soloLoads 1)
      fun x y => x.1 < y.1 := by
    refine isStrictWeakOrder_of_not_nan ?_
    rintro _ ⟨team, hteam, found, sends, rfl⟩
    exact numbers team hteam found ((Team.sends_iff (nodup team hteam)).mp sends)
  have goes : (pickTeam Sample.solos "standard" Sample.soloLoads 1).map (·.teamId)
      = some "bob" := by
    decide +kernel
  obtain ⟨found, picked, teamId⟩ := Option.map_eq_some_iff.mp goes
  obtain ⟨before, team, after, split, sends, lightest, -⟩ :=
    (pickTeam_lightest Sample.solos "standard" Sample.soloLoads 1 nodup weak).2.1 found picked
  exact ⟨found, picked, teamId, before, team, after, split, sends, lightest⟩

end Staffing
