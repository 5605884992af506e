import Staffing.Proofs.Writes
import Staffing.Store.Profiles

/-!
# Writing providers and teams

Whatever is stored about providers and teams, `Tables.RosterGrows` holds of the tables before and
after.

* `Tables.updateProvider_grows`, `Tables.updateTeam_grows`, … — single writes
* `Store.insertProvider_does`, `Store.insertTeam_does`, … — the writes of several statements
-/

namespace Staffing

namespace Tables

variable {t t' t'' : Tables}

namespace RosterGrows

theorem refl (t : Tables) : t.RosterGrows t where
  others := rfl
  hasProvider := fun _ h => h
  zones := fun _ team h => ⟨team, h, rfl⟩
  newZones := fun h => h
  keyed := fun h => h
  known := fun h => h

theorem trans (h : t.RosterGrows t') (h' : t'.RosterGrows t'') : t.RosterGrows t'' where
  others := by
    rw [h'.others, h.others]
  hasProvider := fun id hid => h'.hasProvider id (h.hasProvider id hid)
  zones := by
    intro id team found
    obtain ⟨team', found', zone⟩ := h.zones id team found
    obtain ⟨team'', found'', zone'⟩ := h'.zones id team' found'
    exact ⟨team'', found'', zone'.trans zone⟩
  newZones := fun zones => h'.newZones (h.newZones zones)
  keyed := fun keyed => h'.keyed (h.keyed keyed)
  known := fun known => h'.known (h.known known)

end RosterGrows

/-! ## Providers -/

theorem hasProvider_updateProvider (id : String) {f : Provider → Provider}
    (hf : ∀ p, (f p).id = p.id) (t : Tables) (id' : String) :
    (t.updateProvider id f).hasProvider id' = t.hasProvider id' := by
  unfold hasProvider updateProvider
  exact any_updateWhere (fun p => by rw [hf p]) _

theorem updateProvider_grows (id : String) {f : Provider → Provider} (hf : ∀ p, (f p).id = p.id)
    (t : Tables) : t.RosterGrows (t.updateProvider id f) where
  others := rfl
  hasProvider := fun id' h => (hasProvider_updateProvider id hf t id').trans h
  zones := fun _ team h => ⟨team, h, rfl⟩
  newZones := fun h => h
  keyed := fun keyed =>
    { keyed with providers := (map_updateWhere hf t.providers).symm ▸ keyed.providers }
  known := fun known team hteam m hm =>
    (hasProvider_updateProvider id hf t m.providerId).trans (known team hteam m hm)

theorem insertProvider_grows {p : Provider} (h : t.insertProvider p = .ok t') :
    t.RosterGrows t' := by
  unfold insertProvider at h
  obtain ⟨free, rfl⟩ := guarded_eq_ok.mp h
  rw [Bool.or_eq_false_iff, Bool.or_eq_false_iff] at free
  obtain ⟨⟨fresh, -⟩, -⟩ := free
  have kept : ∀ id, t.hasProvider id = true →
      Tables.hasProvider { t with providers := t.providers ++ [p.stored] } id = true := by
    intro id has
    unfold hasProvider at has ⊢
    rw [List.any_append, has, Bool.true_or]
  exact {
    others := rfl
    hasProvider := kept
    zones := fun _ team found => ⟨team, found, rfl⟩
    newZones := fun zones => zones
    keyed := fun keyed =>
      { keyed with providers := nodup_map_append keyed.providers (any_key_eq_false.mp fresh) }
    known := fun known team hteam m hm => kept _ (known team hteam m hm) }

theorem addSlot_grows {providerId : String} {s : WeeklySlot}
    (h : t.addSlot providerId s = .ok t') : t.RosterGrows t' := by
  unfold addSlot at h
  split at h
  · rw [← Except.ok.inj h]
    refine updateProvider_grows providerId ?_ t
    exact fun _ => rfl
  · cases h

theorem addTimeOff_grows {providerId : String} {w : Window}
    (h : t.addTimeOff providerId w = .ok t') : t.RosterGrows t' := by
  unfold addTimeOff at h
  split at h
  · rw [← Except.ok.inj h]
    refine updateProvider_grows providerId ?_ t
    exact fun _ => rfl
  · cases h

theorem setRating_grows {providerId : String} {average : Float} {count : Nat}
    (h : t.setRating providerId average count = .ok t') : t.RosterGrows t' := by
  unfold setRating at h
  obtain ⟨-, rfl⟩ := guarded_eq_ok.mp h
  refine updateProvider_grows providerId ?_ t
  exact fun _ => rfl

/-! ## Teams -/

theorem updateTeam_grows (id : String) {f : Team → Team} (hid : ∀ team, (f team).id = team.id)
    (hzone : ∀ team, (f team).timezone = team.timezone) (t : Tables)
    (hmembers : t.RosterKeyed → ∀ team ∈ t.teams, team.id = id →
      ((f team).members.map (·.providerId)).Nodup)
    (hknown : ∀ team ∈ t.teams, ∀ m ∈ (f team).members,
      m ∈ team.members ∨ t.hasProvider m.providerId = true) :
    t.RosterGrows (t.updateTeam id f) where
  others := rfl
  hasProvider := fun _ h => h
  zones := by
    intro id' team found
    unfold team? at found ⊢
    refine ⟨if team.id == id then f team else team, ?_, ?_⟩
    · rw [updateTeam, find?_updateWhere hid, found]
      rfl
    · split
      · exact hzone team
      · rfl
  newZones := by
    intro zones team hteam
    obtain ⟨old, hold, rfl⟩ := mem_updateWhere.mp hteam
    split
    · rw [hzone]
      exact zones old hold
    · exact zones old hold
  keyed := by
    intro keyed
    refine ⟨keyed.providers, (map_updateWhere hid t.teams).symm ▸ keyed.teams, ?_⟩
    intro team hteam
    obtain ⟨old, hold, rfl⟩ := mem_updateWhere.mp hteam
    split
    · next same => exact hmembers keyed old hold (beq_iff_eq.mp same)
    · exact keyed.members old hold
  known := by
    intro known team hteam m hm
    obtain ⟨old, hold, rfl⟩ := mem_updateWhere.mp hteam
    split at hm
    · exact (hknown old hold m hm).elim (known old hold m) fun stored => stored
    · exact known old hold m hm

theorem clearMembers_grows (teamId : String) (t : Tables) :
    t.RosterGrows (t.clearMembers teamId) := by
  refine updateTeam_grows teamId ?_ ?_ t ?_ ?_
  · exact fun _ => rfl
  · exact fun _ => rfl
  · exact fun _ _ _ _ => List.nodup_nil
  · exact fun _ _ _ never => absurd never List.not_mem_nil

theorem setTeamActive_grows (teamId : String) (active : Bool) (t : Tables) :
    t.RosterGrows (t.setTeamActive teamId active) := by
  refine updateTeam_grows teamId ?_ ?_ t ?_ ?_
  · exact fun _ => rfl
  · exact fun _ => rfl
  · exact fun keyed team hteam _ => keyed.members team hteam
  · exact fun _ _ _ hm => .inl hm

theorem insertTeam_grows {team : Team} (zone : (Zone.named? team.timezone).isSome)
    (h : t.insertTeam team = .ok t') : t.RosterGrows t' := by
  unfold insertTeam at h
  obtain ⟨free, rfl⟩ := guarded_eq_ok.mp h
  have fresh : ∀ r ∈ t.teams, r.id ≠ team.id := any_key_eq_false.mp free
  exact {
    others := rfl
    hasProvider := fun _ has => has
    zones := by
      intro id old found
      refine ⟨old, ?_, rfl⟩
      unfold team? at found ⊢
      rw [List.find?_append, found]
      rfl
    newZones := by
      intro zones r hr
      rcases List.mem_append.mp hr with old | new
      · exact zones r old
      · rw [List.mem_singleton.mp new]
        exact zone
    keyed := by
      intro keyed
      refine ⟨keyed.providers, nodup_map_append keyed.teams fresh, ?_⟩
      intro r hr
      rcases List.mem_append.mp hr with old | new
      · exact keyed.members r old
      · rw [List.mem_singleton.mp new]
        exact List.nodup_nil
    known := by
      intro known r hr m hm
      rcases List.mem_append.mp hr with old | new
      · exact known r old m hm
      · rw [List.mem_singleton.mp new] at hm
        exact absurd hm List.not_mem_nil }

theorem addMember_grows {teamId : String} {m : Member} (h : t.addMember teamId m = .ok t') :
    t.RosterGrows t' := by
  unfold addMember at h
  cases found : t.team? teamId with
  | none =>
    rw [found] at h
    cases h
  | some team =>
    rw [found] at h
    dsimp only at h
    split at h
    · next free =>
      rw [Bool.and_eq_true, Bool.not_eq_true', any_key_eq_false] at free
      rw [← Except.ok.inj h]
      refine updateTeam_grows teamId ?_ ?_ t ?_ ?_
      · exact fun _ => rfl
      · exact fun _ => rfl
      · intro keyed r hr hid
        -- Whether the member is new was asked of the team found by the id, which is this one.
        obtain rfl : r = team := eq_of_find?_key keyed.teams found hr hid
        exact nodup_map_append (keyed.members r hr) free.2
      · intro r hr k hk
        refine (List.mem_append.mp hk).imp_right fun new => ?_
        rw [List.mem_singleton.mp new]
        exact free.1
    · cases h

end Tables

/-! ## Writes of several statements -/

namespace Store

open Tables (RosterGrows)

private theorem grows_trans (t u v : Tables) (h : t.RosterGrows u) (h' : u.RosterGrows v) :
    t.RosterGrows v := h.trans h'

theorem replaceSlots_does (providerId : String) (slots : List WeeklySlot) :
    (replaceSlots providerId slots).Does RosterGrows := by
  unfold replaceSlots
  refine Work.does_atomic (Work.does_bind grows_trans ?_ fun _ => ?_)
  · refine Work.does_write fun t => Tables.updateProvider_grows providerId ?_ t
    exact fun _ => rfl
  · exact Work.does_each RosterGrows.refl grows_trans
      (fun _ => Work.does_run fun _ _ => Tables.addSlot_grows) slots

theorem insertProvider_does (p : Provider) : (insertProvider p).Does RosterGrows := by
  unfold insertProvider
  refine Work.does_atomic (Work.does_bind grows_trans ?_ fun _ =>
    Work.does_bind grows_trans (replaceSlots_does p.id p.slots) fun _ => ?_)
  · exact Work.does_run fun _ _ => Tables.insertProvider_grows
  · exact Work.does_each RosterGrows.refl grows_trans
      (fun _ => Work.does_run fun _ _ => Tables.addTimeOff_grows) p.timeOff

theorem replaceMembers_does (teamId : String) (members : List Member) :
    (replaceMembers teamId members).Does RosterGrows := by
  unfold replaceMembers
  refine Work.does_atomic (Work.does_bind grows_trans ?_ fun _ => ?_)
  · exact Work.does_write (Tables.clearMembers_grows teamId)
  · exact Work.does_each RosterGrows.refl grows_trans
      (fun _ => Work.does_run fun _ _ => Tables.addMember_grows) members

/-- A new team needs a time zone that is known. -/
theorem insertTeam_does {team : Team} (zone : (Zone.named? team.timezone).isSome) :
    (insertTeam team).Does RosterGrows := by
  unfold insertTeam
  refine Work.does_atomic (Work.does_bind grows_trans ?_ fun _ => ?_)
  · exact Work.does_run fun _ _ => Tables.insertTeam_grows zone
  · exact replaceMembers_does team.id team.members

end Store

end Staffing
