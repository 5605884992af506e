import Mathlib.Logic.Relation
import Staffing.Engine.Sweeps
import Staffing.Proofs.Work

/-!
# Steps

What transactions do to the tables, written as changes of the tables alone. Every transaction that
succeeds is a sequence of steps, and one that fails is no step at all, so whatever each step keeps
is kept by every run.

Most steps are calm: they neither book units of a team nor settle a lock by which a promotion was
decided. Such a lock is released and its units stay booked for good. The tables do not say which
locks those are, so the steps carry the list of their ids along.

* `Tables.released`, `Tables.staffed`, `Tables.cancelled` — the changes that take several writes
* `Tables.RosterKeyed`, `Tables.MembersKnown`, `Tables.RosterGrows` — what may happen to providers
  and teams
* `Tables.Staffs` — the assignments that staff a job
* `Calm` — the calm steps
* `Ebb` — the steps by which bookings do not rise, with the ids of the locks that decided so far
* `Step` — all steps
* `Calms`, `Ebbs`, `Steps` — sequences of steps at one instant
-/

namespace Staffing

namespace Tables

/-! ## Changes that take several writes -/

/-- The units of a lock given back to its slot. -/
def giveBack (l : Lock) (t : Tables) : Tables :=
  match l.target.slotId?.bind t.slot? with
  | some slot => t.adjustBooking slot (-(min l.count slot.booked : Nat))
  | none => t

/-- A lock released and its units given back. -/
def released (reason : ReleaseReason) (now : Instant) (l : Lock) (t : Tables) : Tables :=
  (t.giveBack l).setLockState l.id .released (some reason) l.expiresAt now

/-- Assignments stored. -/
def assigned (rows : List Assignment) (t : Tables) : Tables :=
  { t with assignments := t.assignments ++ rows.map Assignment.stored }

/-- Assignments stored and their job marked as matched. -/
def staffed (jobId : String) (rows : List Assignment) (now : Instant) (t : Tables) : Tables :=
  (t.assigned rows).markMatched jobId now

/-- A job cancelled with its live assignments. -/
def cancelled (jobId : String) (now : Instant) (t : Tables) : Tables :=
  ((t.assignmentsFor jobId).foldl (fun t a => t.setAssignmentStatus a.id .cancelled) t).setJobStatus
    jobId .cancelled now

/-! ## Providers and teams -/

/-- Keys of providers and teams are unique, and a team lists a provider once. -/
structure RosterKeyed (t : Tables) : Prop where
  providers : (t.providers.map (·.id)).Nodup
  teams : (t.teams.map (·.id)).Nodup
  members : ∀ team ∈ t.teams, (team.members.map (·.providerId)).Nodup

/-- Members of teams are stored providers. -/
def MembersKnown (t : Tables) : Prop :=
  ∀ team ∈ t.teams, ∀ m ∈ team.members, t.hasProvider m.providerId = true

/-- Nothing but providers and teams has changed; none was taken away, teams stayed in their time
zones, keys are still unique, and members still stored providers. -/
structure RosterGrows (t t' : Tables) : Prop where
  others : t' = { t with providers := t'.providers, teams := t'.teams }
  hasProvider : ∀ id, t.hasProvider id = true → t'.hasProvider id = true
  zones : ∀ id team, t.team? id = some team →
    ∃ team', t'.team? id = some team' ∧ team'.timezone = team.timezone
  newZones : (∀ team ∈ t.teams, (Zone.named? team.timezone).isSome) →
    ∀ team ∈ t'.teams, (Zone.named? team.timezone).isSome
  keyed : t.RosterKeyed → t'.RosterKeyed
  known : t.MembersKnown → t'.MembersKnown

/-! ## Staffing a job -/

/-- `rows` are new scheduled assignments to the job `j`, one for each of the providers, none of
whom is busy on another job. -/
structure Staffs (t : Tables) (j : Job) (teamId : Option String) (providerIds : List String)
    (now : Instant) (rows : List Assignment) : Prop where
  providers : rows.map (·.providerId) = providerIds
  distinct : providerIds.Nodup
  enough : providerIds.length = j.requiredMembers
  scheduled : ∀ a ∈ rows, a = Promotion.scheduled j teamId a.providerId now a.id
  ids_nodup : (rows.map (·.id)).Nodup
  ids_fresh : ∀ a ∈ rows, ∀ b ∈ t.assignments, b.id ≠ a.id
  hasProvider : ∀ id ∈ providerIds, t.hasProvider id = true
  free : ∀ id ∈ providerIds, t.hasConflict id j.window (some j.id) = false

end Tables

/-! ## Steps -/

/-- A calm step at the instant `now`: one that neither books units of a team nor settles a lock that
decided. -/
inductive Calm (now : Instant) : Tables → Tables → Prop
  /-- Providers or teams are written. -/
  | roster {t t' : Tables} : t.RosterGrows t' → Calm now t t'
  /-- A new job. -/
  | book {t : Tables} {n : NewJob} {id : String} :
      (∀ j ∈ t.jobs, j.id ≠ id) → n.start.wholeSecond < n.stop.wholeSecond →
      1 ≤ n.requiredMembers → n.requiredMembers ≤ 20 →
      Calm now t { t with jobs := t.jobs ++ [(n.pending id now).stored] }
  /-- A job is cancelled. -/
  | cancel {t : Tables} {jobId : String} :
      t.hasJob jobId = true → Calm now t (t.cancelled jobId now)
  /-- A new plan of a day. -/
  | newPlan {t : Tables} {id teamId : String} {team : Team} {z : Zone} {d : Day} :
      (∀ p ∈ t.plans, p.id ≠ id) → (∀ p ∈ t.plans, Tables.isPlanOf teamId d p = false) →
      t.team? teamId = some team → team.zone = .ok z →
      Calm now t { t with
        plans := t.plans ++ [⟨id, teamId, d, team.dailyCapacity (team.profiles t) d z, 0⟩] }
  /-- The capacity of a day is computed anew. -/
  | resizePlan {t : Tables} {teamId : String} {team : Team} {z : Zone} {d : Day} :
      t.team? teamId = some team → team.zone = .ok z →
      Calm now t { t with
        plans := updateWhere (Tables.isPlanOf teamId d)
          (fun p => { p with capacity := team.dailyCapacity (team.profiles t) d z }) t.plans }
  /-- A new slot on the plan of its day. -/
  | newSlot {t : Tables} {slot : Slot} {plan : Plan} {team : Team} {z : Zone} :
      (∀ s ∈ t.slots, s.id ≠ slot.id) →
      (∀ s ∈ t.slots, Tables.isSlotAt slot.teamId slot.window s = false) →
      t.team? slot.teamId = some team → team.zone = .ok z →
      t.planOn? slot.teamId (z.dayAt slot.start) = some plan → slot.planId = plan.id →
      slot.capacity = team.windowCapacity (team.profiles t) slot.window z → slot.booked = 0 →
      Calm now t { t with slots := t.slots ++ [slot.stored] }
  /-- The capacity of a slot is computed anew. -/
  | resizeSlot {t : Tables} {slot : Slot} {team : Team} {z : Zone} {w : Window} :
      slot ∈ t.slots → t.team? slot.teamId = some team → team.zone = .ok z →
      w.wholeSeconds = slot.window →
      Calm now t (t.setSlotCapacity slot.id (team.windowCapacity (team.profiles t) w z))
  /-- A new lock on a provider who is neither locked nor assigned in the job's window. -/
  | holdProvider {t : Tables} {l : Lock} {j : Job} {providerId : String} :
      (∀ k ∈ t.locks, k.id ≠ l.id) → t.job? l.jobId = some j → j.isClosed = false →
      l.target = .provider providerId → l.status = .held → l.reason = none → l.count = 1 →
      t.hasProvider providerId = true →
      t.providerLocked providerId j.window now none = false →
      t.hasConflict providerId j.window none = false →
      Calm now t { t with locks := t.locks ++ [l.stored] }
  /-- A held lock is confirmed. -/
  | confirm {t : Tables} {l : Lock} :
      l ∈ t.locks → l.status = .held →
      Calm now t (t.setLockState l.id .confirmed none (Locks.confirmed l now).expiresAt now)
  /-- A live lock is released and gives its units back. -/
  | release {t : Tables} {l : Lock} {reason : ReleaseReason} :
      l ∈ t.locks → l.isLive = true → Calm now t (t.released reason now l)
  /-- A choice is committed; `j` is the job as it was read when the choice was made. -/
  | commit {t : Tables} {j stored : Job} {teamId : Option String} {providerIds : List String}
      {rows : List Assignment} :
      t.job? j.id = some stored → stored.isPending = true → t.assignmentsFor j.id = [] →
      t.Staffs j teamId providerIds now rows →
      (∀ id ∈ providerIds, t.providerLocked id j.window now (some j.id) = false) →
      Calm now t (t.staffed j.id rows now)
  /-- A pending job is staffed by its usable locks. -/
  | staff {t : Tables} {j : Job} {choice : PromotionChoice} {rows : List Assignment} :
      t.job? j.id = some j → j.isPending = true → t.assignmentsFor j.id = [] →
      Promotion.choice? t j ((t.locksFor j.id none false).filter (·.isUsable now)) = some choice →
      t.Staffs j choice.teamId choice.providerIds now rows → Calm now t (t.staffed j.id rows now)
  /-- A failed attempt at matching is counted. -/
  | note {t : Tables} {j : Job} {maxRetries : Nat} {fallbackTeam : Option String} :
      t.job? j.id = some j → j.isPending = true →
      Calm now t (t.saveMatchingState (Sweep.afterFailure j maxRetries fallbackTeam now).1 now)
  /-- An entry of the log. -/
  | log {t : Tables} {jobId : Option String} {body : LogBody} :
      Calm now t (t.appendLog jobId body now)

/-- A step by which bookings do not rise, on the tables and the ids of the locks by which promotions
were decided so far. -/
inductive Ebb (now : Instant) : Tables × List String → Tables × List String → Prop
  /-- A calm step. -/
  | calm {t t' : Tables} {decided : List String} :
      Calm now t t' → Ebb now (t, decided) (t', decided)
  /-- A live lock by which a promotion was decided is released, and its units stay booked. -/
  | settle {t : Tables} {decided : List String} {l : Lock} :
      l ∈ t.locks → l.isLive = true →
      Ebb now (t, decided)
        (t.setLockState l.id .released (some .promoted) l.expiresAt now, decided ++ [l.id])

/-- A step at the instant `now`. -/
inductive Step (now : Instant) : Tables × List String → Tables × List String → Prop
  /-- A step by which bookings do not rise. -/
  | ebb {p q : Tables × List String} : Ebb now p q → Step now p q
  /-- A new lock on units of a team, which a slot and its day have left. -/
  | holdTeam {t : Tables} {decided : List String} {l : Lock} {j : Job} {slot : Slot} {plan : Plan} :
      (∀ k ∈ t.locks, k.id ≠ l.id) → t.job? l.jobId = some j → j.isClosed = false →
      slot ∈ t.slots → t.plan? slot.planId = some plan →
      l.target = .team slot.teamId slot.id → l.status = .held → l.reason = none →
      1 ≤ l.count → l.count ≤ 20 → (l.count : Int) ≤ Locks.headroom slot plan →
      Step now (t, decided)
        ({ t with locks := t.locks ++ [l.stored] }.adjustBooking slot l.count, decided)

/-- A sequence of calm steps at one instant. -/
abbrev Calms (now : Instant) : Tables → Tables → Prop := Relation.ReflTransGen (Calm now)

/-- A sequence of steps at one instant by which bookings do not rise. -/
abbrev Ebbs (now : Instant) : Tables × List String → Tables × List String → Prop :=
  Relation.ReflTransGen (Ebb now)

/-- A sequence of steps at one instant. -/
abbrev Steps (now : Instant) : Tables × List String → Tables × List String → Prop :=
  Relation.ReflTransGen (Step now)

variable {now : Instant}

/-- Calm steps leave the locks that decided as they were. -/
theorem Calms.ebbs {t t' : Tables} (h : Calms now t t') (decided : List String) :
    Ebbs now (t, decided) (t', decided) :=
  Relation.ReflTransGen.lift (·, decided) (fun _ _ => Ebb.calm) _ _ h

theorem Ebbs.steps {p q : Tables × List String} (h : Ebbs now p q) : Steps now p q :=
  Relation.ReflTransGen.mono (fun _ _ => Step.ebb) _ _ h

theorem Calms.steps {t t' : Tables} (h : Calms now t t') (decided : List String) :
    Steps now (t, decided) (t', decided) := Ebbs.steps (h.ebbs decided)

end Staffing
