import Staffing.Proofs.DoubleBooking
import Staffing.Proofs.Fixpoint

/-!
# Which rows clash with a window

There is one overlap rule, but three of the questions that are asked of the tables round the window
down to whole seconds before they apply it. Rows stand in whole seconds, so this makes no difference
at the start of the window. At its end it does: a row that begins with the second in which the
window ends, and overlaps it by less than a second, is overlooked. The rule on a provider who has
been read from the tables sees it.

* `Write`, `Tables.written` — the writes of the store, and the tables after any of them
* `Tables.KeptInSeconds`, `written_keptInSeconds` — all that is stored stands in whole seconds
* `Tables.timesOff`, `Tables.bookedWindows`, `Tables.heldWindows` — the rows that may clash
* `Window.Decides`, `Window.Overlooks` — which of them a question finds, and when it overlooks them
* `clashes_found_iff` — the three questions find every clash but those at the end of the window
* `not_every_clash_found` — a time off that is overlooked
-/

namespace Staffing

variable {t t' : Tables} {w r : Window} {rows : List Window} {providerId : String} {now : Instant}
  {exclude : Option String} {p : Provider}

/-! ## Writes -/

/-- A write of the store. -/
inductive Write where
  | insertProvider (p : Provider)
  | clearSlots (providerId : String)
  | addSlot (providerId : String) (s : WeeklySlot)
  | addTimeOff (providerId : String) (w : Window)
  | setRating (providerId : String) (average : Float) (count : Nat)
  | insertTeam (team : Team)
  | clearMembers (teamId : String)
  | addMember (teamId : String) (m : Member)
  | setTeamActive (teamId : String) (active : Bool)
  | insertJob (j : Job)
  | setJobStatus (id : String) (status : JobStatus) (now : Instant)
  | saveMatchingState (j : Job) (now : Instant)
  | markMatched (id : String) (now : Instant)
  | insertAssignment (a : Assignment)
  | setAssignmentStatus (id : String) (status : AssignmentStatus)
  | upsertPlan (id teamId : String) (d : Day) (capacity : Nat)
  | insertSlot (s : Slot)
  | setSlotCapacity (id : String) (capacity : Nat)
  | adjustBooking (s : Slot) (delta : Int)
  | insertLock (l : Lock)
  | setLockState (id : String) (status : LockStatus) (reason : Option ReleaseReason)
      (expiresAt now : Instant)
  | appendLog (jobId : Option String) (body : LogBody) (now : Instant)
  | putSetting (key value : String)

/-- The write as a statement. -/
def Write.statement : Write → Statement
  | insertProvider p => Tables.insertProvider p
  | clearSlots id => fun t => .ok (t.clearSlots id)
  | addSlot id s => Tables.addSlot id s
  | addTimeOff id w => Tables.addTimeOff id w
  | setRating id average count => Tables.setRating id average count
  | insertTeam team => Tables.insertTeam team
  | clearMembers id => fun t => .ok (t.clearMembers id)
  | addMember id m => Tables.addMember id m
  | setTeamActive id active => fun t => .ok (t.setTeamActive id active)
  | insertJob j => Tables.insertJob j
  | setJobStatus id status now => fun t => .ok (t.setJobStatus id status now)
  | saveMatchingState j now => fun t => .ok (t.saveMatchingState j now)
  | markMatched id now => fun t => .ok (t.markMatched id now)
  | insertAssignment a => Tables.insertAssignment a
  | setAssignmentStatus id status => fun t => .ok (t.setAssignmentStatus id status)
  | upsertPlan id teamId d capacity => Tables.upsertPlan id teamId d capacity
  | insertSlot s => Tables.insertSlot s
  | setSlotCapacity id capacity => fun t => .ok (t.setSlotCapacity id capacity)
  | adjustBooking s delta => fun t => .ok (t.adjustBooking s delta)
  | insertLock l => Tables.insertLock l
  | setLockState id status reason expiresAt now => fun t =>
    .ok (t.setLockState id status reason expiresAt now)
  | appendLog jobId body now => fun t => .ok (t.appendLog jobId body now)
  | putSetting key value => fun t => .ok (t.putSetting key value)

/-- The tables after a write; one that is refused leaves them as they are. -/
def Write.after (t : Tables) (write : Write) : Tables :=
  match write.statement t with
  | .ok t' => t'
  | .error _ => t

/-- The tables after these writes. -/
def Tables.written (writes : List Write) : Tables := writes.foldl Write.after {}

/-! ## Whole seconds -/

/-- Providers are stored once, and all that may clash with a window stands in whole seconds. -/
structure Tables.KeptInSeconds (t : Tables) : Prop where
  keyed : (t.providers.map (·.id)).Nodup
  timesOff : ∀ p ∈ t.providers, ∀ off ∈ p.timeOff, off.wholeSeconds = off
  jobs : ∀ j ∈ t.jobs, j.window.wholeSeconds = j.window
  assignments : ∀ a ∈ t.assignments, a.window.wholeSeconds = a.window
  expiries : t.ExpiriesWhole

theorem Tables.wholeSeconds_of_mem_insertTimeOff {off : Window} {timeOff : List Window}
    (h : off ∈ insertTimeOff w.wholeSeconds timeOff) : off.wholeSeconds = off ∨ off ∈ timeOff := by
  induction timeOff with
  | nil =>
    rw [List.mem_singleton.mp h]
    exact .inl w.wholeSeconds_wholeSeconds
  | cons v rest ih =>
    unfold insertTimeOff at h
    split at h
    · rcases List.mem_cons.mp h with rfl | later
      · exact .inr List.mem_cons_self
      · exact (ih later).imp_right (List.mem_cons_of_mem v)
    · rcases List.mem_cons.mp h with rfl | old
      · exact .inl w.wholeSeconds_wholeSeconds
      · exact .inr old

namespace Tables.KeptInSeconds

theorem empty : KeptInSeconds {} where
  keyed := List.nodup_nil
  timesOff := fun _ h => absurd h List.not_mem_nil
  jobs := fun _ h => absurd h List.not_mem_nil
  assignments := fun _ h => absurd h List.not_mem_nil
  expiries := fun _ h => absurd h List.not_mem_nil

/-- Other tables may change. -/
theorem of_eq (h : t.KeptInSeconds) (providers : t'.providers = t.providers)
    (jobs : t'.jobs = t.jobs) (assignments : t'.assignments = t.assignments)
    (locks : t'.locks = t.locks) : t'.KeptInSeconds where
  keyed := providers ▸ h.keyed
  timesOff := providers ▸ h.timesOff
  jobs := jobs ▸ h.jobs
  assignments := assignments ▸ h.assignments
  expiries := fun l hl => h.expiries l (locks ▸ hl)

/-- Providers may change, as long as new times off stand in whole seconds. -/
theorem updateProvider (h : t.KeptInSeconds) (id : String) {f : Provider → Provider}
    (same : ∀ p, (f p).id = p.id)
    (whole : ∀ p, ∀ off ∈ (f p).timeOff, off.wholeSeconds = off ∨ off ∈ p.timeOff) :
    (t.updateProvider id f).KeptInSeconds where
  keyed := by
    show ((updateWhere _ f t.providers).map (·.id)).Nodup
    rw [map_updateWhere same]
    exact h.keyed
  timesOff := forall_mem_updateWhere h.timesOff fun p _ before off hoff =>
    (whole p off hoff).elim (fun whole => whole) (before off)
  jobs := h.jobs
  assignments := h.assignments
  expiries := h.expiries

/-- Jobs may change as long as none moves. -/
theorem updateJob (h : t.KeptInSeconds) (id : String) {f : Job → Job}
    (stays : ∀ j, (f j).window = j.window) : (t.updateJob id f).KeptInSeconds where
  keyed := h.keyed
  timesOff := h.timesOff
  jobs := forall_mem_updateWhere h.jobs fun j _ whole => (stays j).symm ▸ whole
  assignments := h.assignments
  expiries := h.expiries

end Tables.KeptInSeconds

/-- **Every write keeps whole seconds.** -/
theorem Write.keptInSeconds (write : Write) (h : t.KeptInSeconds)
    (done : write.statement t = .ok t') : t'.KeptInSeconds := by
  cases write with
  | insertProvider p =>
    obtain ⟨refused, rfl⟩ := Tables.guarded_eq_ok.mp done
    simp only [Bool.or_eq_false_iff] at refused
    exact { h with
      keyed := nodup_map_append h.keyed (any_key_eq_false.mp refused.1.1)
      timesOff := List.forall_mem_append.mpr
        ⟨h.timesOff, List.forall_mem_singleton.mpr fun _ never => absurd never List.not_mem_nil⟩ }
  | clearSlots id =>
    obtain rfl := Except.ok.inj done
    exact h.updateProvider id (fun _ => rfl) fun _ _ => .inr
  | addSlot id s =>
    simp only [statement, Tables.addSlot] at done
    split at done
    · obtain rfl := Except.ok.inj done
      exact h.updateProvider id (fun _ => rfl) fun _ _ => .inr
    · cases done
  | addTimeOff id w =>
    simp only [statement, Tables.addTimeOff] at done
    split at done
    · obtain rfl := Except.ok.inj done
      exact h.updateProvider id (fun _ => rfl) fun _ _ =>
        Tables.wholeSeconds_of_mem_insertTimeOff
    · cases done
  | setRating id average count =>
    obtain ⟨-, rfl⟩ := Tables.guarded_eq_ok.mp done
    exact h.updateProvider id (fun _ => rfl) fun _ _ => .inr
  | insertTeam team =>
    obtain ⟨-, rfl⟩ := Tables.guarded_eq_ok.mp done
    exact h.of_eq rfl rfl rfl rfl
  | clearMembers id =>
    obtain rfl := Except.ok.inj done
    exact h.of_eq rfl rfl rfl rfl
  | addMember id m =>
    simp only [statement, Tables.addMember] at done
    split at done
    · cases done
    · split at done
      · obtain rfl := Except.ok.inj done
        exact h.of_eq rfl rfl rfl rfl
      · cases done
  | setTeamActive id active =>
    obtain rfl := Except.ok.inj done
    exact h.of_eq rfl rfl rfl rfl
  | insertJob j =>
    obtain ⟨-, -, rfl⟩ := Tables.insertJob_eq_ok.mp done
    have whole : j.stored.window.wholeSeconds = j.stored.window :=
      j.window.wholeSeconds_wholeSeconds
    exact { h with
      jobs := List.forall_mem_append.mpr ⟨h.jobs, List.forall_mem_singleton.mpr whole⟩ }
  | setJobStatus id status now =>
    obtain rfl := Except.ok.inj done
    exact h.updateJob id fun _ => rfl
  | saveMatchingState j now =>
    obtain rfl := Except.ok.inj done
    exact h.updateJob j.id fun _ => rfl
  | markMatched id now =>
    obtain rfl := Except.ok.inj done
    exact h.updateJob id fun _ => rfl
  | insertAssignment a =>
    obtain ⟨-, -, -, rfl⟩ := Tables.insertAssignment_eq_ok.mp done
    have whole := a.stored_wholeSeconds
    exact { h with
      assignments := List.forall_mem_append.mpr
        ⟨h.assignments, List.forall_mem_singleton.mpr whole⟩ }
  | setAssignmentStatus id status =>
    obtain rfl := Except.ok.inj done
    exact { h with
      assignments := forall_mem_updateWhere h.assignments fun _ _ whole => whole }
  | upsertPlan id teamId d capacity =>
    obtain ⟨-, ⟨-, rfl⟩ | ⟨-, -, rfl⟩⟩ := Tables.upsertPlan_ok_cases done
    · exact h.of_eq rfl rfl rfl rfl
    · exact h.of_eq rfl rfl rfl rfl
  | insertSlot s =>
    obtain ⟨-, -, -, -, rfl⟩ := Tables.insertSlot_eq_ok.mp done
    exact h.of_eq rfl rfl rfl rfl
  | setSlotCapacity id capacity =>
    obtain rfl := Except.ok.inj done
    exact h.of_eq rfl rfl rfl rfl
  | adjustBooking s delta =>
    obtain rfl := Except.ok.inj done
    exact h.of_eq rfl rfl rfl rfl
  | insertLock l =>
    obtain ⟨-, -, -, -, rfl⟩ := Tables.insertLock_eq_ok.mp done
    have whole : l.stored.expiresAt.wholeSecond = l.stored.expiresAt :=
      Instant.wholeSecond_wholeSecond l.expiresAt
    exact { h with
      expiries := List.forall_mem_append.mpr ⟨h.expiries, List.forall_mem_singleton.mpr whole⟩ }
  | setLockState id status reason expiresAt now =>
    obtain rfl := Except.ok.inj done
    exact { h with
      expiries := forall_mem_updateWhere h.expiries fun _ _ _ =>
        Instant.wholeSecond_wholeSecond expiresAt }
  | appendLog jobId body now =>
    obtain rfl := Except.ok.inj done
    exact h.of_eq rfl rfl rfl rfl
  | putSetting key value =>
    obtain rfl := Except.ok.inj done
    exact h.of_eq rfl rfl rfl rfl

theorem Tables.KeptInSeconds.after (h : t.KeptInSeconds) (write : Write) :
    (write.after t).KeptInSeconds := by
  unfold Write.after
  cases done : write.statement t with
  | ok t' => exact write.keptInSeconds h done
  | error fault => exact h

/-- **All that is stored stands in whole seconds,** whatever has been written. -/
theorem Tables.written_keptInSeconds (writes : List Write) : (written writes).KeptInSeconds := by
  suffices ∀ t : Tables, t.KeptInSeconds → (writes.foldl Write.after t).KeptInSeconds from
    this {} .empty
  induction writes with
  | nil => exact fun _ h => h
  | cons write rest ih => exact fun t h => ih _ (h.after write)

/-! ## Rounding a window -/

namespace Window

/-- Of rows in whole seconds, those overlap a window that is rounded down which overlap the window
and do not begin with the second in which it ends. -/
theorem overlaps_wholeSeconds_iff (whole : r.wholeSeconds = r) :
    r.wholeSeconds.overlaps w.wholeSeconds = true ↔
      r.overlaps w = true ∧ r.start ≠ w.stop.wholeSecond := by
  have start := congrArg Window.start whole
  have stop := congrArg Window.stop whole
  rw [whole]
  unfold overlaps
  simp only [wholeSeconds, Instant.wholeSecond, Bool.and_eq_true, decide_eq_true_eq, ne_eq]
    at start stop ⊢
  lia

/-- There are rows that overlap the window, but each of them begins with the second in which the
window ends. -/
def Overlooks (w : Window) (rows : List Window) : Prop :=
  (∃ r ∈ rows, r.overlaps w = true) ∧
    ∀ r ∈ rows, r.overlaps w = true → r.start = w.stop.wholeSecond

/-- The answer to whether one of the rows overlaps the window is found by those that do not begin
with the second in which the window ends; so it is right unless these are overlooked. -/
structure Decides (w : Window) (rows : List Window) (answer : Bool) : Prop where
  found_iff : answer = true ↔ ∃ r ∈ rows, r.overlaps w = true ∧ r.start ≠ w.stop.wholeSecond
  right_iff : (answer = true ↔ ∃ r ∈ rows, r.overlaps w = true) ↔ ¬ w.Overlooks rows

theorem Decides.of_rounded {answer : Bool} (whole : ∀ r ∈ rows, r.wholeSeconds = r)
    (h : answer = true ↔ ∃ r ∈ rows, r.wholeSeconds.overlaps w.wholeSeconds = true) :
    w.Decides rows answer := by
  have found : answer = true ↔
      ∃ r ∈ rows, r.overlaps w = true ∧ r.start ≠ w.stop.wholeSecond := by
    rw [h]
    exact exists_congr fun r => and_congr_right fun hr => overlaps_wholeSeconds_iff (whole r hr)
  refine ⟨found, ?_⟩
  rw [found]
  constructor
  · rintro right ⟨overlaps, late⟩
    obtain ⟨r, hr, hit, early⟩ := right.mpr overlaps
    exact early (late r hr hit)
  · intro seen
    constructor
    · rintro ⟨r, hr, hit, -⟩
      exact ⟨r, hr, hit⟩
    · rintro overlaps
      by_contra none
      refine seen ⟨overlaps, fun r hr hit => ?_⟩
      by_contra early
      exact none ⟨r, hr, hit, early⟩

/-- A window that ends with a whole second overlooks nothing. -/
theorem not_overlooks_of_whole (whole : w.stop.wholeSecond = w.stop) : ¬ w.Overlooks rows := by
  rintro ⟨⟨r, hr, hit⟩, late⟩
  have start := late r hr hit
  unfold overlaps at hit
  simp only [Bool.and_eq_true, decide_eq_true_eq] at hit
  rw [start, whole] at hit
  exact Int.lt_irrefl _ hit.1

end Window

/-! ## The rows -/

namespace Tables

/-- The times off that are stored of a provider. -/
def timesOff (t : Tables) (providerId : String) : List Window :=
  (t.providers.filter (·.id == providerId)).flatMap (·.timeOff)

/-- The windows of a provider's blocking assignments, on other jobs than `exclude`. -/
def bookedWindows (t : Tables) (providerId : String) (exclude : Option String) : List Window :=
  (t.assignments.filter fun a =>
    a.providerId == providerId && a.status.isBlocking && exclude != some a.jobId).map (·.window)

/-- The windows of the jobs, other than `exclude`, for which locks that are live and still last hold
a provider. -/
def heldWindows (t : Tables) (providerId : String) (now : Instant) (exclude : Option String) :
    List Window :=
  (t.locks.filter fun l =>
    l.target = .provider providerId && l.isLive && now < l.expiresAt && exclude != some l.jobId
  ).flatMap fun l => (t.jobs.filter (·.id == l.jobId)).map (·.window)

theorem mem_timesOff : r ∈ t.timesOff providerId ↔
    ∃ p ∈ t.providers, p.id = providerId ∧ r ∈ p.timeOff := by
  simp [timesOff, and_assoc]

theorem mem_bookedWindows : r ∈ t.bookedWindows providerId exclude ↔
    ∃ a ∈ t.assignments, a.providerId = providerId ∧ a.status.isBlocking = true ∧
      exclude ≠ some a.jobId ∧ a.window = r := by
  simp [bookedWindows, and_assoc]

theorem mem_heldWindows : r ∈ t.heldWindows providerId now exclude ↔
    ∃ l ∈ t.locks, l.target = .provider providerId ∧ l.isLive = true ∧ now < l.expiresAt ∧
      exclude ≠ some l.jobId ∧ ∃ j ∈ t.jobs, j.id = l.jobId ∧ j.window = r := by
  simp [heldWindows, and_assoc]

/-- The times off of a provider who is read from the tables are those that are stored. -/
theorem KeptInSeconds.timesOff_eq (h : t.KeptInSeconds) (read : t.provider? providerId = some p) :
    t.timesOff providerId = p.timeOff := by
  obtain ⟨hp, own⟩ := (find?_key_eq_some h.keyed).mp read
  have alone : t.providers.filter (·.id == providerId) = [p] :=
    filter_eq_singleton h.keyed hp (by simp [own]) fun q _ hit => by simpa [own] using hit
  rw [Tables.timesOff, alone, List.flatMap_singleton]

/-! ## The questions -/

section Questions

variable (h : t.KeptInSeconds)
include h

theorem hasTimeOff_decides (providerId : String) (w : Window) :
    w.Decides (t.timesOff providerId) (t.hasTimeOff providerId w) := by
  refine .of_rounded (fun r hr => ?_) ?_
  · obtain ⟨p, hp, -, hr⟩ := mem_timesOff.mp hr
    exact h.timesOff p hp r hr
  · simp only [mem_timesOff, hasTimeOff, hasTimeOff.timeOffOf, List.any_eq_true, Bool.and_eq_true,
      beq_iff_eq]
    constructor
    · rintro ⟨p, hp, own, r, hr, hit⟩
      exact ⟨r, ⟨p, hp, own, hr⟩, hit⟩
    · rintro ⟨r, ⟨p, hp, own, hr⟩, hit⟩
      exact ⟨p, hp, own, r, hr, hit⟩

theorem hasConflict_decides (providerId : String) (w : Window) (exclude : Option String) :
    w.Decides (t.bookedWindows providerId exclude) (t.hasConflict providerId w exclude) := by
  refine .of_rounded (fun r hr => ?_) ?_
  · obtain ⟨a, ha, -, -, -, rfl⟩ := mem_bookedWindows.mp hr
    exact h.assignments a ha
  · rw [hasConflict_iff_exists]
    simp only [mem_bookedWindows]
    constructor
    · rintro ⟨a, ha, own, counts, blocking, hit⟩
      exact ⟨_, ⟨a, ha, own, blocking, counts, rfl⟩, hit⟩
    · rintro ⟨_, ⟨a, ha, own, blocking, counts, rfl⟩, hit⟩
      exact ⟨a, ha, own, counts, blocking, hit⟩

theorem providerLocked_decides (providerId : String) (w : Window) (now : Instant)
    (exclude : Option String) :
    w.Decides (t.heldWindows providerId now exclude)
      (t.providerLocked providerId w now exclude) := by
  have lasts_iff {l : Lock} (hl : l ∈ t.locks) : l.lapsed now = false ↔ now < l.expiresAt := by
    rw [Lock.lapsed_eq (h.expiries l hl), decide_eq_false_iff_not, Int.not_le]
  refine .of_rounded (fun r hr => ?_) ?_
  · obtain ⟨l, -, -, -, -, -, j, hj, -, rfl⟩ := mem_heldWindows.mp hr
    exact h.jobs j hj
  · rw [providerLocked_iff]
    simp only [mem_heldWindows]
    constructor
    · rintro ⟨l, hl, ⟨target, live, lasts⟩, counts, j, hj, own, hit⟩
      exact ⟨_, ⟨l, hl, target, live, (lasts_iff hl).mp lasts, counts, j, hj, own, rfl⟩, hit⟩
    · rintro ⟨_, ⟨l, hl, target, live, lasts, counts, j, hj, own, rfl⟩, hit⟩
      exact ⟨l, hl, ⟨target, live, (lasts_iff hl).mpr lasts⟩, counts, j, hj, own, hit⟩

end Questions

end Tables

/-- **The three questions find every clash but those at the end of the window.** Take any tables
that writes of the store have made, and a window. Whether it overlaps a time off, a blocking
assignment or the job of a lock that holds the provider is answered by the rows that overlap it and
do not begin with the second in which it ends. So the answer is right unless there are rows that
overlap the window, and each of them begins with that second; and no such row overlaps a window that
ends with a whole second. The overlap rule, asked of the times off of the provider as he is read
from the tables, gives the same answer as the tables unless these overlook a time off. -/
theorem clashes_found_iff (writes : List Write) (w : Window) (providerId : String) (now : Instant)
    (exclude : Option String) :
    let t := Tables.written writes
    w.Decides (t.timesOff providerId) (t.hasTimeOff providerId w) ∧
    w.Decides (t.bookedWindows providerId exclude) (t.hasConflict providerId w exclude) ∧
    w.Decides (t.heldWindows providerId now exclude) (t.providerLocked providerId w now exclude) ∧
    (∀ p, t.provider? providerId = some p →
      (t.hasTimeOff providerId w = timeOffOverlaps p.timeOff w ↔ ¬ w.Overlooks p.timeOff)) ∧
    (w.stop.wholeSecond = w.stop → ∀ rows, ¬ w.Overlooks rows) := by
  intro t
  have h : t.KeptInSeconds := Tables.written_keptInSeconds writes
  refine ⟨Tables.hasTimeOff_decides h providerId w,
    Tables.hasConflict_decides h providerId w exclude,
    Tables.providerLocked_decides h providerId w now exclude, fun p read => ?_,
    fun whole rows => Window.not_overlooks_of_whole whole⟩
  have decides := (Tables.hasTimeOff_decides h providerId w).right_iff
  rw [h.timesOff_eq read] at decides
  rw [← decides, Bool.eq_iff_iff]
  unfold timeOffOverlaps
  simp only [List.any_eq_true, Window.overlaps_comm w]

/-- Someone with two times off, from half past nine to a quarter to ten and from ten to eleven. -/
def Sample.offTwice : List Write := [
  .insertProvider (provider "ada"),
  .addTimeOff "ada" ⟨Instant.utc 2026 3 2 9 30, Instant.utc 2026 3 2 9 45⟩,
  .addTimeOff "ada" ⟨Instant.utc 2026 3 2 10 0, Instant.utc 2026 3 2 11 0⟩]

/-- From nine to half a second past ten. -/
def Sample.pastTen : Window := ⟨Instant.utc 2026 3 2 9 0, Instant.utc 2026 3 2 10 0 + 500⟩

/-- The window overlaps both times off, and the first one is found. -/
theorem clashes_found_iff_offTwice :
    ∃ p, (Tables.written Sample.offTwice).provider? "ada" = some p ∧
      (Tables.written Sample.offTwice).hasTimeOff "ada" Sample.pastTen
        = timeOffOverlaps p.timeOff Sample.pastTen := by
  obtain ⟨p, read⟩ : ∃ p, (Tables.written Sample.offTwice).provider? "ada" = some p :=
    Option.isSome_iff_exists.mp (by decide +kernel)
  obtain ⟨-, -, -, agrees, -⟩ := clashes_found_iff Sample.offTwice Sample.pastTen "ada" 0 none
  refine ⟨p, read, (agrees p read).mpr ?_⟩
  have early : ((Tables.written Sample.offTwice).provider? "ada").all fun p =>
      p.timeOff.any fun off => off.overlaps Sample.pastTen &&
        off.start != Sample.pastTen.stop.wholeSecond := by
    decide +kernel
  rw [read] at early
  obtain ⟨off, hoff, hit⟩ := List.any_eq_true.mp early
  rw [Bool.and_eq_true, bne_iff_ne] at hit
  exact fun ⟨_, late⟩ => hit.2 (late off hoff hit.1)

/-- A window that ends half a second past ten overlaps a time off from ten on, but the tables do not
see it. -/
theorem not_every_clash_found : ¬ ∀ (writes : List Write) (w : Window) (providerId : String)
    (now : Instant) (exclude : Option String), w.start < w.stop →
    let t := Tables.written writes
    (t.hasTimeOff providerId w = true ↔ ∃ r ∈ t.timesOff providerId, r.overlaps w = true) ∧
    (t.hasConflict providerId w exclude = true ↔
      ∃ r ∈ t.bookedWindows providerId exclude, r.overlaps w = true) ∧
    (t.providerLocked providerId w now exclude = true ↔
      ∃ r ∈ t.heldWindows providerId now exclude, r.overlaps w = true) ∧
    ∀ p, t.provider? providerId = some p →
      t.hasTimeOff providerId w = timeOffOverlaps p.timeOff w := by
  intro allFound
  obtain ⟨found_iff, -⟩ := allFound [.insertProvider (Sample.provider "ada"),
    .addTimeOff "ada" ⟨Instant.utc 2026 3 2 10 0, Instant.utc 2026 3 2 11 0⟩] Sample.pastTen "ada" 0
    none (by decide +kernel)
  have found := found_iff.mpr (by decide +kernel)
  revert found
  decide +kernel

end Staffing
