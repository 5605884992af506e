import Staffing.Demand.Job
import Staffing.Record.Style
import Staffing.Roster.Provider
import Staffing.Roster.Team

/-!
# Providers, teams and jobs as JSON

* `Provider.toJson`, `Team.toJson`, `Job.toJson` — the profiles
* `WeeklySlot.toJson`, `Window.toJson`, `Member.toJson` — their parts
-/

namespace Staffing

/-- Hours on a day of the week. -/
def WeeklySlot.toJson (s : WeeklySlot) : Json := .record [
  ("weekday", .ofNat s.weekday), ("start_minute", .ofNat s.startMinute),
  ("end_minute", .ofNat s.endMinute), ("timezone", .text s.timezone), ("active", .bool s.active)]

/-- A window. -/
def Window.toJson (style : Style) (w : Window) : Json :=
  .record [("start", style.instant w.start), ("end", style.instant w.stop)]

/-- A provider. -/
def Provider.toJson (style : Style) (p : Provider) : Json := .record [
  ("id", .text p.id), ("display_name", .text p.displayName), ("kind", .text p.kind.text),
  ("active", .bool p.active), ("eco_friendly", .bool p.ecoFriendly),
  ("hourly_rate", style.float p.hourlyRate), ("rating_average", style.float p.ratingAverage),
  ("rating_count", .ofNat p.ratingCount), ("services", .texts p.services),
  ("service_zones", .texts p.serviceZones), ("areas", .texts p.areas),
  ("slots", .ofList WeeklySlot.toJson p.slots),
  ("time_off", .ofList (Window.toJson style) p.timeOff)]

/-- A provider's place in a team. -/
def Member.toJson (m : Member) : Json := .record [
  ("provider_id", .text m.providerId), ("is_lead", .bool m.isLead),
  ("order_index", .int m.orderIndex)]

/-- A team. -/
def Team.toJson (t : Team) : Json := .record [
  ("id", .text t.id), ("name", .text t.name), ("timezone", .text t.timezone),
  ("daily_capacity_cap", .ofOption .ofNat t.dailyCap), ("active", .bool t.active),
  ("services", .texts t.services), ("members", .ofList Member.toJson t.members)]

/-- A job. -/
def Job.toJson (style : Style) (j : Job) : Json := .record [
  ("id", .text j.id), ("client_id", .text j.clientId), ("service", .text j.service),
  ("eco_preference", .bool j.ecoPreference), ("city", .optionalText j.city),
  ("postal_code", .optionalText j.postalCode), ("start_at", style.instant j.start),
  ("end_at", style.instant j.stop), ("required_members", .ofNat j.requiredMembers),
  ("surface_m2", .ofOption style.float j.surface), ("status", .text j.status.text),
  ("assignment_mode", .text j.mode.text), ("matching_retry_count", .ofNat j.retryCount),
  ("fallback_team_candidate", .optionalText j.fallbackTeam),
  ("fallback_requested_at", .ofOption style.instant j.fallbackRequestedAt),
  ("fallback_escalated_at", .ofOption style.instant j.fallbackEscalatedAt),
  ("created_at", style.instant j.createdAt), ("updated_at", style.instant j.updatedAt)]

end Staffing
