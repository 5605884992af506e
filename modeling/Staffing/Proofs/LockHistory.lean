import Staffing.Proofs.HeldElsewhere

/-!
# What becomes of a lock

A lock is never taken away, and what it reserves for which job never changes. It is held, then
confirmed, then released, or released at once; what is released stays as it is. A lock that has
expired never comes back to life: the only write that moves an expiry forward is that of a lapsed
lock which is confirmed, and it moves it to the instant of the confirmation. So a promotion never
uses the lock again.

* `LockStatus.MovesTo`, `Lock.Becomes` — what may become of a lock
* `Step.lock_becomes`, `Run.lock_becomes` — a step and a run do that to every lock
* `Promotion.PickedBy`, `Engine.promote_pickedBy` — the locks by which a promotion sends providers
* `locks_run_their_course` — every lock runs that course, and none that has expired is used again
-/

namespace Staffing

variable {now : Instant} {t t' : Tables} {e e₀ e' : Engine} {op : Operation}
  {past : List (Engine × Operation)}

/-- Where a lock may go from where it stands. -/
inductive LockStatus.MovesTo : LockStatus → LockStatus → Prop
  | confirm : MovesTo held confirmed
  | abandon : MovesTo held released
  | release : MovesTo confirmed released

namespace Lock

/-- What may become of a lock. -/
structure Becomes (l l' : Lock) : Prop where
  id : l'.id = l.id
  jobId : l'.jobId = l.jobId
  target : l'.target = l.target
  count : l'.count = l.count
  createdAt : l'.createdAt = l.createdAt
  status : l'.status = l.status ∨ l.status.MovesTo l'.status
  released : l.status = .released → l' = l

theorem Becomes.refl (l : Lock) : l.Becomes l where
  id := rfl
  jobId := rfl
  target := rfl
  count := rfl
  createdAt := rfl
  status := .inl rfl
  released := fun _ => rfl

theorem Becomes.trans {l l' l'' : Lock} (h : l.Becomes l') (h' : l'.Becomes l'') :
    l.Becomes l'' where
  id := h'.id.trans h.id
  jobId := h'.jobId.trans h.jobId
  target := h'.target.trans h.target
  count := h'.count.trans h.count
  createdAt := h'.createdAt.trans h.createdAt
  status := by
    rcases h.status with same | moves
    · rw [← same]
      exact h'.status
    · rcases h'.status with same | again
      · rw [same]
        exact .inr moves
      · generalize l.status = a at *
        generalize l'.status = b at *
        generalize l''.status = c at *
        cases moves with
        | confirm =>
          cases again with
          | release => exact .inr .abandon
        | abandon => cases again
        | release => cases again
  released := fun ended => by
    obtain rfl := h.released ended
    exact h'.released ended

/-- A lock that is live may be given another state. -/
theorem Becomes.of_move {l : Lock} {status : LockStatus} (moves : l.status.MovesTo status)
    (reason : Option ReleaseReason) (expiresAt updatedAt : Instant) :
    l.Becomes { l with status, reason, expiresAt, updatedAt } where
  id := rfl
  jobId := rfl
  target := rfl
  count := rfl
  createdAt := rfl
  status := .inr moves
  released := fun ended => by
    rw [ended] at moves
    cases moves

theorem isLive_moves {l : Lock} (live : l.isLive = true) : l.status.MovesTo .released := by
  unfold isLive at live
  cases status : l.status with
  | held => exact .abandon
  | confirmed => exact .release
  | released =>
    rw [status] at live
    cases live

end Lock

/-! ## Steps -/

/-- A step leaves the locks alone, or a new one is held, a held one is confirmed, or a live one is
released. -/
theorem Step.locks_cases {p q : Tables × List String} (h : Step now p q) :
    q.1.locks = p.1.locks ∨
      (∃ l : Lock, l.status = .held ∧ l.reason = none ∧ q.1.locks = p.1.locks ++ [l.stored]) ∨
      (∃ l ∈ p.1.locks, l.status = .held ∧ q.1.locks = (p.1.setLockState l.id .confirmed none
        (Locks.confirmed l now).expiresAt now).locks) ∨
      ∃ l ∈ p.1.locks, ∃ reason, l.isLive = true ∧
        q.1.locks = (p.1.setLockState l.id .released (some reason) l.expiresAt now).locks := by
  cases h with
  | ebb h =>
    cases h with
    | settle hl live => exact .inr (.inr (.inr ⟨_, hl, _, live, rfl⟩))
    | calm h =>
      cases h with
      | roster grows => exact .inl grows.locks
      | @cancel jobId _ =>
        obtain ⟨f, -, frame⟩ := Tables.cancelled_frame jobId now _
        rw [frame]
        exact .inl rfl
      | holdProvider _ _ _ _ held noReason => exact .inr (.inl ⟨_, held, noReason, rfl⟩)
      | confirm hl held => exact .inr (.inr (.inl ⟨_, hl, held, rfl⟩))
      | release hl live =>
        rw [Tables.released_frame]
        exact .inr (.inr (.inr ⟨_, hl, _, live, rfl⟩))
      | _ => exact .inl rfl
  | holdTeam _ _ _ _ _ _ held noReason => exact .inr (.inl ⟨_, held, noReason, rfl⟩)

/-- **What a step does to a lock.** Its expiry does not go beyond what it was and the instant of the
step. -/
theorem Step.lock_becomes {p q : Tables × List String} (h : Step now p q) (keyed : p.1.Keyed)
    {l : Lock} (hl : l ∈ p.1.locks) :
    ∃ l' ∈ q.1.locks, l.Becomes l' ∧ l'.expiresAt ≤ max l.expiresAt now := by
  -- One lock is given another state, and the others stay as they are.
  have change : ∀ {k : Lock} {status : LockStatus} {reason : Option ReleaseReason}
      {expiresAt : Instant}, k ∈ p.1.locks → k.status.MovesTo status →
      expiresAt ≤ max k.expiresAt now →
      q.1.locks = (p.1.setLockState k.id status reason expiresAt now).locks →
      ∃ l' ∈ q.1.locks, l.Becomes l' ∧ l'.expiresAt ≤ max l.expiresAt now := by
    intro k status reason expiresAt hk moves atMost changed
    rw [changed]
    refine ⟨_, mem_updateWhere.mpr ⟨l, hl, rfl⟩, ?_⟩
    by_cases own : (l.id == k.id) = true
    · obtain rfl := List.inj_on_of_nodup_map keyed.locks hl hk (beq_iff_eq.mp own)
      rw [if_pos own]
      exact ⟨.of_move moves reason _ _, (Instant.wholeSecond_le expiresAt).trans atMost⟩
    · rw [if_neg own]
      exact ⟨.refl l, Int.le_max_left _ _⟩
  rcases h.locks_cases with same | ⟨k, -, -, added⟩ | ⟨k, hk, held, confirmed⟩
    | ⟨k, hk, reason, live, released⟩
  · exact ⟨l, same ▸ hl, .refl l, Int.le_max_left _ _⟩
  · exact ⟨l, added ▸ List.mem_append_left _ hl, .refl l, Int.le_max_left _ _⟩
  · refine change hk (held ▸ .confirm) ?_ confirmed
    unfold Locks.confirmed
    show (if _ then _ else _) ≤ _
    split
    · exact Int.le_max_right _ _
    · exact Int.le_max_left _ _
  · exact change hk (Lock.isLive_moves live) (Int.le_max_left _ _) released

theorem Steps.lock_becomes {p q : Tables × List String} (h : Steps now p q) (keyed : p.1.Keyed)
    {l : Lock} (hl : l ∈ p.1.locks) :
    ∃ l' ∈ q.1.locks, l.Becomes l' ∧ l'.expiresAt ≤ max l.expiresAt now := by
  induction h with
  | refl => exact ⟨l, hl, .refl l, Int.le_max_left _ _⟩
  | tail before step ih =>
    obtain ⟨l₁, hl₁, becomes, atMost⟩ := ih
    obtain ⟨l₂, hl₂, becomes', atMost'⟩ := step.lock_becomes (Steps.keyed before keyed) hl₁
    exact ⟨l₂, hl₂, becomes.trans becomes', by lia⟩

namespace Tables

/-- A lock has a reason for its release exactly when it is released. -/
def ReasonsGiven (t : Tables) : Prop :=
  ∀ l ∈ t.locks, l.reason.isSome = true ↔ l.status = .released

end Tables

/-- Every step keeps that. -/
theorem Step.reasonsGiven {p q : Tables × List String} (h : Step now p q)
    (given : p.1.ReasonsGiven) : q.1.ReasonsGiven := by
  intro l' hl'
  rcases h.locks_cases with same | ⟨k, held, noReason, added⟩ | ⟨k, -, -, changed⟩
    | ⟨k, -, reason, -, changed⟩
  · exact given l' (same ▸ hl')
  · rw [added] at hl'
    rcases List.mem_append.mp hl' with old | new
    · exact given l' old
    · rw [List.mem_singleton.mp new]
      show k.reason.isSome = true ↔ k.status = .released
      rw [held, noReason]
      decide
  · rw [changed] at hl'
    obtain ⟨l, hl, rfl⟩ := mem_updateWhere.mp hl'
    split
    · exact ⟨fun some => (by cases some), fun released => (by cases released)⟩
    · exact given l hl
  · rw [changed] at hl'
    obtain ⟨l, hl, rfl⟩ := mem_updateWhere.mp hl'
    split
    · exact ⟨fun _ => rfl, fun _ => rfl⟩
    · exact given l hl

/-! ## Promotions -/

/-- The lock reserves the provider, or units of a team of which the provider is a member. -/
def Lock.Offers (l : Lock) (t : Tables) (providerId : String) : Prop :=
  l.target = .provider providerId ∨ ∃ teamId slotId team, l.target = .team teamId slotId ∧
    t.team? teamId = some team ∧ providerId ∈ team.members.map (·.providerId)

/-- The locks by which a promotion was decided are confirmed locks of its job that have not expired,
and one of them offers each of the providers that it sends. -/
structure Promotion.PickedBy (p : Promotion) (t : Tables) (now : Instant) : Prop where
  locks : ∀ id ∈ p.promotedLockIds, ∃ l ∈ t.locks,
    l.id = id ∧ l.jobId = p.jobId ∧ l.status = .confirmed ∧ now < l.expiresAt
  providers : ∀ id ∈ p.providerIds, ∃ l ∈ t.locks, l.id ∈ p.promotedLockIds ∧ l.Offers t id

/-- A lock that has expired is of no use. -/
theorem Lock.isUsable_lasts {l : Lock} (usable : l.isUsable now = true) :
    l.status = .confirmed ∧ now < l.expiresAt := by
  unfold isUsable at usable
  obtain ⟨confirmed, lasts⟩ : l.status = .confirmed ∧ l.lapsed now = false := by simpa using usable
  refine ⟨confirmed, Int.lt_of_not_ge fun expired => ?_⟩
  have lapsed : l.lapsed now = true := decide_eq_true (Instant.wholeSecond_mono expired)
  rw [lasts] at lapsed
  cases lapsed

namespace Promotion

/-- A lock on a team that decides alone offers each of the members who go. -/
theorem byTeamLock?_offers {j : Job} {l : Lock} {choice : PromotionChoice}
    (h : byTeamLock? t j l = some choice) :
    choice.lockIds = [l.id] ∧ ∀ id ∈ choice.providerIds, l.Offers t id := by
  unfold byTeamLock? at h
  simp only [Option.bind_eq_bind, Option.bind_eq_some_iff] at h
  obtain ⟨teamId, target, team, found, h⟩ := h
  split at h
  · obtain rfl := Option.some.inj h
    refine ⟨rfl, fun id hid => .inr ?_⟩
    cases onTeam : l.target with
    | provider => simp [LockTarget.teamId?, onTeam] at target
    | team teamId' slotId =>
      obtain rfl : teamId' = teamId := by simpa [LockTarget.teamId?, onTeam] using target
      refine ⟨teamId', slotId, team, rfl, found, ?_⟩
      obtain ⟨m, hm, rfl⟩ := List.mem_map.mp (List.mem_filter.mp (List.mem_of_mem_take hid)).1
      exact List.mem_map_of_mem (List.mem_mergeSort.mp hm)
  · cases h

/-- Locks on providers that decide together offer one each. -/
theorem byProviderLocks?_offers {j : Job} {usable : List Lock} {choice : PromotionChoice}
    (h : byProviderLocks? t j usable = some choice) :
    (∀ id ∈ choice.lockIds, ∃ l ∈ usable, l.id = id) ∧
      ∀ id ∈ choice.providerIds, ∃ l ∈ usable, l.id ∈ choice.lockIds ∧ l.Offers t id := by
  unfold byProviderLocks? at h
  dsimp only at h
  split at h
  · obtain rfl := Option.some.inj h
    obtain ⟨-, -, picks⟩ := freeProviderLocks_cases t j [] usable
    refine ⟨fun id hid => ?_, fun id hid => ?_⟩
    · obtain ⟨pick, hpick, rfl⟩ := List.mem_map.mp hid
      obtain ⟨-, -, l, hl, same, -⟩ := picks pick (List.mem_of_mem_take hpick)
      exact ⟨l, hl, same⟩
    · obtain ⟨pick, hpick, rfl⟩ := List.mem_map.mp hid
      obtain ⟨-, -, l, hl, same, target⟩ := picks pick (List.mem_of_mem_take hpick)
      refine ⟨l, hl, List.mem_map.mpr ⟨pick, hpick, same.symm⟩, .inl ?_⟩
      exact LockTarget.providerId?_eq_some.mp target
  · cases h

/-- The locks that decide are among the usable ones, and one of them offers each provider. -/
theorem choice?_offers {j : Job} {usable : List Lock} {choice : PromotionChoice}
    (h : choice? t j usable = some choice) :
    (∀ id ∈ choice.lockIds, ∃ l ∈ usable, l.id = id) ∧
      ∀ id ∈ choice.providerIds, ∃ l ∈ usable, l.id ∈ choice.lockIds ∧ l.Offers t id := by
  unfold choice? at h
  split at h
  · cases h
  cases byTeam : usable.findSome? (byTeamLock? t j) with
  | some chosen =>
    rw [byTeam] at h
    obtain rfl : chosen = choice := Option.some.inj h
    obtain ⟨l, hl, decides⟩ := List.exists_of_findSome?_eq_some byTeam
    obtain ⟨ids, offers⟩ := byTeamLock?_offers decides
    rw [ids]
    exact ⟨fun id hid => ⟨l, hl, (List.mem_singleton.mp hid).symm⟩,
      fun id hid => ⟨l, hl, List.mem_singleton_self _, offers id hid⟩⟩
  | none =>
    rw [byTeam] at h
    exact byProviderLocks?_offers h

/-- What a promotion answers is its choice. -/
theorem promote_some {s s' : Store} (idle : s.saved = none) {jobId : String} {p : Promotion}
    (h : promote jobId now s = .ok (some p) s') :
    ∃ j choice, s.tables.job? jobId = some j ∧
      choice? s.tables j ((s.tables.locksFor jobId none false).filter (·.isUsable now))
        = some choice ∧
      p.jobId = jobId ∧ p.providerIds = choice.providerIds ∧
      p.promotedLockIds = choice.lockIds := by
  unfold promote at h
  obtain ⟨s₁, done, -⟩ := (Work.atomic_eq_ok idle).mp h
  unfold promoteJoined at done
  simp only [bind_eq_ok, Work.demand_eq_ok, Work.ask_eq_ok] at done
  obtain ⟨j, _, ⟨found, rfl⟩, _, _, ⟨rfl, rfl⟩, done⟩ := done
  split at done
  · cases (pure_eq_ok.mp done).1
  simp only [bind_eq_ok, Work.ask_eq_ok] at done
  obtain ⟨live, _, ⟨rfl, rfl⟩, chosen, _, ⟨decides, rfl⟩, done⟩ := done
  cases chosen with
  | none => cases (pure_eq_ok.mp done).1
  | some choice =>
    simp only [bind_eq_ok, Work.write_eq_ok, pure_eq_ok] at done
    obtain ⟨rows, s₂, -, _, _, rfl, _, _, -, answered, -⟩ := done
    obtain rfl := Option.some.inj answered
    exact ⟨j, choice, found, decides.symm, rfl, rfl, rfl⟩

end Promotion

theorem Engine.promote_pickedBy (idle : e.store.saved = none) {jobId : String} {p : Promotion}
    (h : promote jobId now e = .ok (some p) e') : p.PickedBy e.store.tables now := by
  obtain ⟨s', done, -⟩ := promote_eq_some.mp h
  obtain ⟨j, choice, -, chosen, ofJob, providers, lockIds⟩ := Promotion.promote_some idle done
  obtain ⟨deciding, offers⟩ := Promotion.choice?_offers chosen
  have stored : ∀ l ∈ (e.store.tables.locksFor jobId none false).filter (·.isUsable now),
      l ∈ e.store.tables.locks ∧ l.jobId = jobId := by
    intro l hl
    have own := List.mem_filter.mp (List.mem_filter.mp hl).1
    exact ⟨own.1, by simpa using (Bool.and_eq_true_iff.mp (Bool.and_eq_true_iff.mp own.2).1).1⟩
  refine ⟨fun id hid => ?_, fun id hid => ?_⟩
  · obtain ⟨l, hl, same⟩ := deciding id (lockIds ▸ hid)
    obtain ⟨there, own⟩ := stored l hl
    exact ⟨l, there, same, own.trans ofJob.symm, Lock.isUsable_lasts (List.mem_filter.mp hl).2⟩
  · obtain ⟨l, hl, decides, offers⟩ := offers id (providers ▸ hid)
    exact ⟨l, (stored l hl).1, lockIds ▸ decides, offers⟩

/-! ## Runs -/

/-- **What an operation does to a lock.** One that has expired before the operation, or at its
instant, has expired afterwards. -/
theorem Operation.lock_becomes (op : Operation) (ready : e.Ready) (admissible : op.IsAdmissible)
    {l : Lock} (hl : l ∈ e.store.tables.locks) :
    ∃ l' ∈ (op.after e).store.tables.locks, l.Becomes l' ∧
      ∀ i, (∀ now, op.instant? e = some now → now ≤ i) → l.expiresAt ≤ i → l'.expiresAt ≤ i := by
  -- An operation that does not look at the time takes its steps whenever we like.
  have steps : ∀ now, (∀ i, op.instant? e = some i → i = now) →
      ∃ l' ∈ (op.after e).store.tables.locks, l.Becomes l' ∧
        l'.expiresAt ≤ max l.expiresAt now := fun now timed =>
    Steps.lock_becomes ((op.steps ready admissible timed).1 []) ready.keyed hl
  obtain ⟨l', hl', becomes, -⟩ := steps _ Operation.eq_of_instant?
  refine ⟨l', hl', becomes, fun i upTo expired => ?_⟩
  obtain ⟨l'', hl'', becomes', atMost⟩ := steps ((op.instant? e).getD i) fun now looks => by
    rw [looks]
    rfl
  obtain rfl : l'' = l' := List.inj_on_of_nodup_map
    (op.steps ready admissible Operation.eq_of_instant?).2.keyed.locks hl'' hl'
    (becomes'.id.trans becomes.id.symm)
  have instant : (op.instant? e).getD i ≤ i := by
    cases looks : op.instant? e with
    | none => exact Int.le_refl i
    | some now => exact upTo now looks
  lia

namespace Run

/-- What has been done up to an operation of a run is a run. -/
theorem upTo (run : Run past e) {before later : List (Engine × Operation)}
    (split : past = before ++ (e₀, op) :: later) : Run before e₀ := by
  refine (run.induct (P := fun past e => Run past e ∧ ∀ before made later,
    past = before ++ made :: later → Run before made.1) ?_ ?_).2 before (e₀, op) later split
  · exact fun e empty idle quiet => ⟨.start empty idle quiet, fun before _ _ split => by
      cases before <;> cases split⟩
  · rintro past e op ⟨run, ih⟩ admissible
    refine ⟨run.operation op admissible, fun before made later split => ?_⟩
    rcases List.eq_nil_or_concat later with rfl | ⟨later', last, rfl⟩
    · obtain ⟨rfl, same⟩ := List.append_inj' split rfl
      rw [← List.singleton_inj.mp same]
      exact run
    · rw [List.concat_eq_append, ← List.cons_append, ← List.append_assoc] at split
      exact ih before made later' (List.append_inj' split rfl).1

/-- **What a run does to a lock** that one of its operations has found. If the lock has expired at
an instant, none of the run's is later, then it has expired at this instant in the end. -/
theorem lock_becomes (run : Run past e) (made : (e₀, op) ∈ past) {l : Lock}
    (hl : l ∈ e₀.store.tables.locks) :
    ∃ l' ∈ e.store.tables.locks, l.Becomes l' ∧
      ∀ i, (∀ now ∈ instants past, now ≤ i) → l.expiresAt ≤ i → l'.expiresAt ≤ i := by
  refine (run.induct (P := fun past e => e.Ready ∧ ∀ made ∈ past,
    ∀ l ∈ made.1.store.tables.locks, ∃ l' ∈ e.store.tables.locks, l.Becomes l' ∧
      ∀ i, (∀ now ∈ instants past, now ≤ i) → l.expiresAt ≤ i → l'.expiresAt ≤ i) ?_ ?_).2
    (e₀, op) made l hl
  · intro e empty idle quiet
    exact ⟨⟨idle, empty ▸ .empty, quiet⟩, fun _ never => absurd never List.not_mem_nil⟩
  · rintro past e op ⟨ready, ih⟩ admissible
    refine ⟨(op.steps ready admissible Operation.eq_of_instant?).2, fun made hmade l hl => ?_⟩
    rw [instants_append]
    rcases List.mem_append.mp hmade with earlier | last
    · obtain ⟨l₁, hl₁, becomes, stays⟩ := ih made earlier l hl
      obtain ⟨l₂, hl₂, becomes', stays'⟩ := op.lock_becomes ready admissible hl₁
      refine ⟨l₂, hl₂, becomes.trans becomes', fun i upTo expired => ?_⟩
      refine stays' i (fun now looks => ?_) (stays i (fun now hnow => ?_) expired)
      · exact upTo now (List.mem_append_right _ (Option.mem_toList.mpr looks))
      · exact upTo now (List.mem_append_left _ hnow)
    · obtain rfl := List.mem_singleton.mp last
      obtain ⟨l', hl', becomes, stays⟩ := op.lock_becomes ready admissible hl
      refine ⟨l', hl', becomes, fun i upTo => stays i fun now looks => ?_⟩
      exact upTo now (List.mem_append_right _ (Option.mem_toList.mpr looks))

end Run

/-- **Locks run their course.** After every run whose clock does not go back, a lock has a reason
for its release exactly when it is released. A lock that an operation of the run has found is still
there; it reserves the same for the same job, and only its state has moved on. If it had expired at
an instant that no later operation precedes, then it has expired at every later instant, and a
promotion from then on neither answers it nor sends anyone by it: each of the locks by which it is
decided lasts, and one of these offers each provider. -/
theorem locks_run_their_course (run : Run past e) (timely : Run.IsTimely past) :
    (∀ l ∈ e.store.tables.locks, l.reason.isSome = true ↔ l.status = .released) ∧
      ∀ before e₀ op later, past = before ++ (e₀, op) :: later → ∀ l ∈ e₀.store.tables.locks,
        (∃ l' ∈ e.store.tables.locks, l.Becomes l') ∧
          ∀ i, (∀ now ∈ Run.instants ((e₀, op) :: later), i ≤ now) → l.expiresAt ≤ i →
            (∀ i', i ≤ i' → (∀ now ∈ Run.instants past, now ≤ i') →
              ∀ l' ∈ e.store.tables.locks, l'.id = l.id → l'.expiresAt ≤ i') ∧
            ∀ e₁ jobId now p e₂, (e₁, .promote jobId now) ∈ (e₀, op) :: later →
              Engine.promote jobId now e₁ = .ok (some p) e₂ →
                l.id ∉ p.promotedLockIds ∧ p.PickedBy e₁.store.tables now := by
  refine ⟨(run.holds (I := fun p => p.1.ReasonsGiven) (fun _ never => absurd never List.not_mem_nil)
    fun _ _ _ _ given step => step.reasonsGiven given).2, ?_⟩
  intro before e₀ op later split l hl
  have made : (e₀, op) ∈ past := split ▸ List.mem_append_right _ List.mem_cons_self
  obtain ⟨l', hl', becomes, stays⟩ := run.lock_becomes made hl
  refine ⟨⟨l', hl', becomes⟩, fun i first expired => ⟨fun i' le upTo k hk same => ?_, ?_⟩⟩
  · obtain rfl : k = l' := List.inj_on_of_nodup_map run.ready.keyed.locks hk hl'
      (same.trans becomes.id.symm)
    exact stays i' upTo (Int.le_trans expired le)
  · intro e₁ jobId now p e₂ promotes done
    -- When the promotion is made, the lock is there and has expired.
    obtain ⟨ready₁, l₁, hl₁, own, expired₁⟩ : e₁.Ready ∧
        ∃ l₁ ∈ e₁.store.tables.locks, l₁.id = l.id ∧ l₁.expiresAt ≤ now := by
      have since : i ≤ now := first now (List.mem_filterMap.mpr ⟨_, promotes, rfl⟩)
      rcases List.mem_cons.mp promotes with here | afterwards
      · obtain ⟨rfl, -⟩ := Prod.mk.inj here
        exact ⟨(run.upTo split).ready, l, hl, rfl, Int.le_trans expired since⟩
      · obtain ⟨between, rest, rfl⟩ := List.append_of_mem afterwards
        rw [← List.cons_append, ← List.append_assoc] at split
        have run₁ := run.upTo split
        have made₁ : (e₀, op) ∈ before ++ (e₀, op) :: between :=
          List.mem_append_right _ List.mem_cons_self
        obtain ⟨l₁, hl₁, becomes₁, stays₁⟩ := run₁.lock_becomes made₁ hl
        refine ⟨run₁.ready, l₁, hl₁, becomes₁.id, stays₁ now (fun i' hi' => ?_) ?_⟩
        · unfold Run.IsTimely at timely
          rw [split, Run.instants, List.filterMap_append, List.pairwise_append] at timely
          exact timely.2.2 i' hi' now (List.mem_filterMap.mpr ⟨_, List.mem_cons_self, rfl⟩)
        · exact Int.le_trans expired since
    have picked := Engine.promote_pickedBy ready₁.idle done
    refine ⟨fun decides => ?_, picked⟩
    obtain ⟨k, hk, same, -, -, lasts⟩ := picked.locks l.id decides
    obtain rfl : k = l₁ := List.inj_on_of_nodup_map ready₁.keyed.locks hk hl₁
      (same.trans own.symm)
    exact Int.not_lt.mpr expired₁ lasts

namespace Sample

/-- A job has a lock on one provider, and when that has lapsed it gets one on another. -/
def relocked : List Operation := [
  .insertProvider (provider "ada"), .insertProvider (provider "bob"), .createJob (job 9),
  .createLocks admin (idText "job" 0) ⟨.providers ["ada"], none⟩,
  .serve { engine with now := 20 * Instant.minute },
  .createLocks admin (idText "job" 0) ⟨.providers ["bob"], none⟩]

/-- Both locks are confirmed, and the job is promoted. -/
def confirmedLate : List Operation := [
  .confirmLocks admin (idText "job" 0) none, .promote (idText "job" 0) (20 * Instant.minute)]

end Sample

/-- Confirming the first lock does not bring it back to life: the promotion is by the second. -/
theorem locks_run_their_course_relocked : ∃ past e, Run past e ∧ Run.IsTimely past ∧
    ∃ e₀ e₁ p e₂, e₁ = (Operation.confirmLocks Sample.admin (idText "job" 0) none).after e₀ ∧
      Engine.promote (idText "job" 0) (20 * Instant.minute) e₁ = .ok (some p) e₂ ∧
      p.providerIds = ["bob"] ∧
      ∃ l ∈ e₀.store.tables.locks, l.target = .provider "ada" ∧ l.status = .held ∧
        l.expiresAt = 15 * Instant.minute ∧ l.id ∉ p.promotedLockIds ∧
        ∃ l' ∈ e.store.tables.locks, l.Becomes l' ∧ l'.status = .released ∧
          l'.expiresAt ≤ 21 * Instant.minute := by
  obtain ⟨e₀, found⟩ : ∃ e₀, e₀ = Operation.afterAll Sample.relocked Sample.engine := ⟨_, rfl⟩
  obtain ⟨e₁, confirmed⟩ :
      ∃ e₁, e₁ = (Operation.confirmLocks Sample.admin (idText "job" 0) none).after e₀ := ⟨_, rfl⟩
  obtain ⟨past, trace⟩ :
      ∃ past, past = Operation.trace (Sample.relocked ++ Sample.confirmedLate) Sample.engine :=
    ⟨_, rfl⟩
  obtain ⟨e, left⟩ :
      ∃ e, e = Operation.afterAll (Sample.relocked ++ Sample.confirmedLate) Sample.engine :=
    ⟨_, rfl⟩
  have run : Run past e := trace ▸ left ▸ Run.of_operations rfl rfl (fun _ _ _ => rfl) (by
    simp only [Sample.relocked, Sample.confirmedLate, List.cons_append, List.nil_append,
      List.forall_mem_cons, Operation.IsAdmissible]
    exact ⟨trivial, trivial, trivial, trivial, fun _ _ _ => rfl, trivial, trivial, trivial,
      fun _ h => absurd h List.not_mem_nil⟩)
  have split : past = Operation.trace Sample.relocked Sample.engine
      ++ (e₀, .confirmLocks Sample.admin (idText "job" 0) none)
      :: [(e₁, .promote (idText "job" 0) (20 * Instant.minute))] := by
    rw [trace, Operation.trace_append, confirmed, found]
    rfl
  obtain ⟨timely, upTo⟩ : Run.IsTimely past ∧ ∀ i ∈ Run.instants past, i ≤ 21 * Instant.minute := by
    rw [trace]
    decide +kernel
  have since : ∀ now ∈ Run.instants [
      (e₀, .confirmLocks Sample.admin (idText "job" 0) none),
      (e₁, .promote (idText "job" 0) (20 * Instant.minute))], 20 * Instant.minute ≤ now := by
    rw [confirmed, found]
    decide +kernel
  obtain ⟨l, hl, target, held, expires⟩ : ∃ l ∈ e₀.store.tables.locks, l.target = .provider "ada" ∧
      l.status = .held ∧ l.expiresAt = 15 * Instant.minute := by
    rw [found]
    decide +kernel
  have sends : (answer? (Engine.promote (idText "job" 0) (20 * Instant.minute)) e₁).join.map
      (·.providerIds) = some ["bob"] := by
    rw [confirmed, found]
    decide +kernel
  have ended : ∀ l' ∈ e.store.tables.locks, l'.status = .released := by
    rw [left]
    decide +kernel
  obtain ⟨p, e₂, done, providers⟩ : ∃ p e₂, Engine.promote (idText "job" 0) (20 * Instant.minute) e₁
      = .ok (some p) e₂ ∧ p.providerIds = ["bob"] := by
    obtain ⟨p, answered, providers⟩ := Option.map_eq_some_iff.mp sends
    exact ⟨p, _, answer?_eq_some.mp (Option.join_eq_some_iff.mp answered), providers⟩
  obtain ⟨⟨l', hl', becomes⟩, after⟩ :=
    (locks_run_their_course run timely).2 _ _ _ _ split l hl
  obtain ⟨stays, unused⟩ := after (20 * Instant.minute) since (by rw [expires]; decide)
  exact ⟨past, e, run, timely, e₀, e₁, p, e₂, confirmed, done, providers, l, hl, target, held,
    expires, (unused e₁ _ _ p e₂ (List.mem_cons_of_mem _ (List.mem_singleton_self _)) done).1, l',
    hl', becomes, ended l' hl', stays _ (by decide) upTo l' hl' becomes.id⟩

end Staffing
