import Staffing.Proofs.Conservation

/-!
# Bookings that do not rise

Only a lock on a team books units. Whatever else is done leaves every booking where it is or lowers
it, and new slots and plans begin without.

* `Tables.Sinks` — no booking has risen
* `Ebbs.sinks` — steps by which none does
* `Operation.sinks`, `Sweep.Kind.sinks` — operations and sweeps by which none does
-/

namespace Staffing

variable {now : Instant} {t t' t'' : Tables}

namespace Tables

/-- No booking of a slot or a plan has risen: each is zero, or at most what it was. -/
structure Sinks (t t' : Tables) : Prop where
  slots : ∀ r ∈ t'.slots, r.booked = 0 ∨ ∃ s ∈ t.slots, s.id = r.id ∧ r.booked ≤ s.booked
  plans : ∀ r ∈ t'.plans, r.booked = 0 ∨ ∃ p ∈ t.plans, p.id = r.id ∧ r.booked ≤ p.booked

namespace Sinks

theorem refl (t : Tables) : t.Sinks t where
  slots := fun s hs => .inr ⟨s, hs, rfl, Nat.le_refl _⟩
  plans := fun p hp => .inr ⟨p, hp, rfl, Nat.le_refl _⟩

theorem trans (h : t.Sinks t') (h' : t'.Sinks t'') : t.Sinks t'' := by
  constructor
  · intro r hr
    rcases h'.slots r hr with zero | ⟨s, hs, same, le⟩
    · exact .inl zero
    · rcases h.slots s hs with zero | ⟨q, hq, same', le'⟩
      · exact .inl (Nat.le_zero.mp (zero ▸ le))
      · exact .inr ⟨q, hq, same'.trans same, le.trans le'⟩
  · intro r hr
    rcases h'.plans r hr with zero | ⟨p, hp, same, le⟩
    · exact .inl zero
    · rcases h.plans p hp with zero | ⟨q, hq, same', le'⟩
      · exact .inl (Nat.le_zero.mp (zero ▸ le))
      · exact .inr ⟨q, hq, same'.trans same, le.trans le'⟩

theorem of_same (slots : t'.slots = t.slots) (plans : t'.plans = t.plans) : t.Sinks t' where
  slots := slots ▸ (refl t).slots
  plans := plans ▸ (refl t).plans

theorem adjustBooking_neg (fits : t.Fits) (slot : Slot) (count : Nat) :
    t.Sinks (t.adjustBooking slot (-(count : Int))) := by
  constructor
  · intro r hr
    obtain ⟨s, hs, rfl⟩ := mem_updateWhere.mp hr
    refine .inr ⟨s, hs, ?_⟩
    split
    · exact ⟨rfl, (moved_sub (fits.slots s hs).2 count).trans_le (Nat.sub_le _ _)⟩
    · exact ⟨rfl, Nat.le_refl _⟩
  · intro r hr
    obtain ⟨p, hp, rfl⟩ := mem_updateWhere.mp hr
    refine .inr ⟨p, hp, ?_⟩
    split
    · exact ⟨rfl, (moved_sub (fits.plans p hp).2 count).trans_le (Nat.sub_le _ _)⟩
    · exact ⟨rfl, Nat.le_refl _⟩

theorem giveBack (fits : t.Fits) (l : Lock) : t.Sinks (t.giveBack l) := by
  unfold Tables.giveBack
  split
  · exact adjustBooking_neg fits _ _
  · exact refl t

/-- A slot that is booked above its capacity was so before, or its capacity has been lowered. -/
theorem over_cases (h : t.Sinks t') {r : Slot} (hr : r ∈ t'.slots) (above : r.capacity < r.booked) :
    ∃ s ∈ t.slots, s.id = r.id ∧ (s.capacity < s.booked ∨ r.capacity < s.capacity) := by
  rcases h.slots r hr with zero | ⟨s, hs, same, le⟩
  · omega
  · exact ⟨s, hs, same, by omega⟩

end Sinks

end Tables

/-! ## Steps -/

theorem Calm.sinks (h : Calm now t t') (fits : t.Fits) : t.Sinks t' := by
  cases h with
  | roster grows => exact .of_same grows.slots grows.plans
  | @cancel jobId _ =>
    obtain ⟨f, -, frame⟩ := Tables.cancelled_frame jobId now t
    rw [frame]
    exact .of_same rfl rfl
  | newPlan =>
    refine ⟨(Tables.Sinks.refl t).slots, fun p hp => ?_⟩
    rcases List.mem_append.mp hp with old | new
    · exact (Tables.Sinks.refl t).plans p old
    · rw [List.mem_singleton.mp new]
      exact .inl rfl
  | resizePlan =>
    refine ⟨(Tables.Sinks.refl t).slots, fun p hp => ?_⟩
    obtain ⟨q, hq, rfl⟩ := mem_updateWhere.mp hp
    refine .inr ⟨q, hq, ?_⟩
    split <;> exact ⟨rfl, Nat.le_refl _⟩
  | @newSlot slot _ _ _ _ _ _ _ _ _ _ empty =>
    refine ⟨fun s hs => ?_, (Tables.Sinks.refl t).plans⟩
    rcases List.mem_append.mp hs with old | new
    · exact (Tables.Sinks.refl t).slots s old
    · rw [List.mem_singleton.mp new]
      exact .inl empty
  | resizeSlot =>
    refine ⟨fun s hs => ?_, (Tables.Sinks.refl t).plans⟩
    obtain ⟨r, hr, rfl⟩ := mem_updateWhere.mp hs
    refine .inr ⟨r, hr, ?_⟩
    split <;> exact ⟨rfl, Nat.le_refl _⟩
  | @release l _ _ _ =>
    rw [Tables.released_frame]
    exact ⟨(Tables.Sinks.giveBack fits l).slots, (Tables.Sinks.giveBack fits l).plans⟩
  | _ => exact .of_same rfl rfl

theorem Calms.sinks (h : Calms now t t') (fits : t.Fits) : t.Sinks t' ∧ t'.Fits := by
  induction h with
  | refl => exact ⟨.refl t, fits⟩
  | tail _ step ih => exact ⟨ih.1.trans (step.sinks ih.2), step.fits ih.2⟩

theorem Ebbs.sinks {p q : Tables × List String} (h : Ebbs now p q) (fits : p.1.Fits) :
    p.1.Sinks q.1 ∧ q.1.Fits := by
  induction h with
  | refl => exact ⟨.refl p.1, fits⟩
  | tail _ step ih =>
    obtain ⟨sinks, fits⟩ := ih
    cases step with
    | calm h => exact ⟨sinks.trans (h.sinks fits), h.fits fits⟩
    | settle => exact ⟨sinks.trans (.of_same rfl rfl), ⟨fits.slots, fits.plans⟩⟩

/-- A step raises no booking, or books units that the slot has left. -/
theorem Step.sinks_cases {p q : Tables × List String} (h : Step now p q) (keyed : p.1.LedgerKeyed)
    (fits : p.1.Fits) :
    p.1.Sinks q.1 ∨ ∀ r ∈ q.1.slots, r.booked ≤ r.capacity ∨ r ∈ p.1.slots := by
  cases h with
  | ebb h => exact .inl (Ebbs.sinks (.single h) fits).1
  | @holdTeam t _ l _ slot plan _ _ _ hs _ _ _ _ _ _ left =>
    unfold Locks.headroom Slot.headroom at left
    have capacity := (fits.slots slot hs).1
    refine .inr fun r hr => ?_
    obtain ⟨s, hs', rfl⟩ := mem_updateWhere.mp hr
    split
    · next same =>
      obtain rfl := List.inj_on_of_nodup_map keyed.slots hs' hs (by simpa using same)
      refine .inl ?_
      show Tables.moved s.booked l.count ≤ s.capacity
      rw [Tables.moved_add (by omega)]
      omega
    · exact .inr hs'

/-! ## Operations and sweeps -/

/-- An operation that makes no locks on a team raises no booking. -/
theorem Operation.sinks {past : List (Engine × Operation)} {e : Engine} (run : Run past e)
    {op : Operation} (admissible : op.IsAdmissible) (still : ¬ op.BooksTeam) :
    e.store.tables.Sinks (op.after e).store.tables := by
  obtain ⟨ebbs, -⟩ := op.ebbs still run.ready admissible Operation.eq_of_instant?
  exact ((ebbs []).sinks run.sound.fits).1

/-- A slot that an operation leaves booked above its capacity was so before, or the operation has
lowered its capacity. -/
theorem Operation.over_cases {past : List (Engine × Operation)} {e : Engine} (run : Run past e)
    {op : Operation} (admissible : op.IsAdmissible) {r : Slot}
    (hr : r ∈ (op.after e).store.tables.slots) (above : r.capacity < r.booked) :
    ∃ s ∈ e.store.tables.slots, s.id = r.id ∧
      (s.capacity < s.booked ∨ r.capacity < s.capacity) := by
  by_cases books : op.BooksTeam
  · cases op with
    | createLocks actor jobId request =>
      obtain lead | ⟨-, -, t, u, before, booked, -, slots⟩ :=
        Engine.createLocks_cases run.ready actor jobId request
      · exact (lead.calms.sinks run.sound.fits).1.over_cases hr above
      · have hu : r ∈ u.slots := slots ▸ hr
        obtain ⟨sinks, fits⟩ := before.sinks run.sound.fits
        have keyed := (before.keyed run.ready.keyed).toLedgerKeyed
        rcases (booked []).sinks_cases keyed fits with sinks' | rows
        · exact (sinks.trans sinks').over_cases hu above
        · rcases rows r hu with within | old
          · omega
          · exact sinks.over_cases old above
    | _ => exact books.elim
  · exact (op.sinks run admissible books).over_cases hr above

/-- No sweep raises a booking. -/
theorem Sweep.Kind.sinks {past : List (Engine × Operation)} {e : Engine} (run : Run past e)
    (kind : Sweep.Kind) (config : SweepConfig) (now : Instant) :
    e.store.tables.Sinks (after ((kind.sweep config).run now) e).store.tables := by
  rw [kind.after_eq config now e]
  suffices ∀ (operations : List Operation) (past : List (Engine × Operation)) (e : Engine),
      Run past e → (∀ op ∈ operations, op.IsAdmissible ∧ ¬ op.BooksTeam) →
      e.store.tables.Sinks (Operation.afterAll operations e).store.tables from
    this _ past e run (kind.parts_cases config now e)
  intro operations
  induction operations with
  | nil => exact fun _ e _ _ => .refl e.store.tables
  | cons op rest ih =>
    intro past e run allowed
    obtain ⟨admissible, still⟩ := allowed op List.mem_cons_self
    refine (op.sinks run admissible still).trans ?_
    refine ih _ _ (run.operation op admissible) fun o ho => ?_
    exact allowed o (List.mem_cons_of_mem _ ho)

end Staffing
