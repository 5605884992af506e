import Staffing.Lock.Promote
import Staffing.Record.Style

/-!
# Bookings as JSON

* `Plan.toJson`, `Slot.toJson` — a team's capacity
* `Lock.toJson`, `Assignment.toJson` — what is reserved, and who goes
* `Promotion.toJson` — what a promotion did
* `LogEntry.toJson` — what the log tells
-/

namespace Staffing

/-- A team's capacity on a day. -/
def Plan.toJson (p : Plan) : Json := .record [
  ("id", .text p.id), ("team_id", .text p.teamId), ("day", .text p.day.text),
  ("capacity_slots", .ofNat p.capacity), ("capacity_booked", .ofNat p.booked)]

/-- A team's capacity in a window. -/
def Slot.toJson (style : Style) (s : Slot) : Json := .record [
  ("id", .text s.id), ("team_id", .text s.teamId), ("plan_id", .text s.planId),
  ("start_at", style.instant s.start), ("end_at", style.instant s.stop),
  ("capacity", .ofNat s.capacity), ("booked", .ofNat s.booked)]

/-- What a lock reserves. -/
def LockTarget.toJson : LockTarget → Json
  | .team teamId slotId =>
    .record [("kind", .text "team"), ("team_id", .text teamId), ("slot_id", .text slotId)]
  | .provider providerId =>
    .record [("kind", .text "provider"), ("provider_id", .text providerId)]

/-- A lock. -/
def Lock.toJson (style : Style) (l : Lock) : Json := .record [
  ("id", .text l.id), ("job_id", .text l.jobId), ("target", l.target.toJson),
  ("locked_count", .ofNat l.count), ("status", .text l.status.text),
  ("release_reason", .optionalText (l.reason.map ReleaseReason.text)),
  ("expires_at", style.instant l.expiresAt), ("created_at", style.instant l.createdAt),
  ("updated_at", style.instant l.updatedAt)]

/-- An assignment. -/
def Assignment.toJson (style : Style) (a : Assignment) : Json := .record [
  ("id", .text a.id), ("job_id", .text a.jobId), ("provider_id", .text a.providerId),
  ("team_id", .optionalText a.teamId), ("start_at", style.instant a.start),
  ("end_at", style.instant a.stop), ("status", .text a.status.text),
  ("created_at", style.instant a.createdAt)]

/-- What a promotion did. -/
def Promotion.toJson (style : Style) (p : Promotion) : Json := .record [
  ("job_id", .text p.jobId), ("team_id", .optionalText p.teamId),
  ("provider_ids", .texts p.providerIds),
  ("assignments", .ofList (Assignment.toJson style) p.assignments),
  ("promoted_lock_ids", .texts p.promotedLockIds),
  ("released_lock_ids", .texts p.releasedLockIds)]

/-- An entry of the log. -/
def LogEntry.toJson (style : Style) (l : LogEntry) : Json := .record [
  ("id", .ofNat l.id), ("job_id", .optionalText l.jobId), ("event_type", .text l.eventType),
  ("payload", .text l.payload), ("created_at", style.instant l.createdAt)]

end Staffing
