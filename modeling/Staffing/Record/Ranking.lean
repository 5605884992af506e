import Staffing.Crew.Selection
import Staffing.Record.Style

/-!
# Rankings as JSON

* `Factors.toJson` — weights, or the components of a score
* `Candidate.toJson` — a provider who was looked at
* `Scored.toJson` — a row of a ranking
* `TeamMatch.toJson`, `Selection.toJson` — who goes
-/

namespace Staffing

/-- The seven numbers. -/
def Factors.toJson (style : Style) (f : Factors) : Json := .record [
  ("distance", style.float f.distance), ("rating", style.float f.rating),
  ("reliability", style.float f.reliability), ("experience", style.float f.experience),
  ("eco", style.float f.eco), ("availability", style.float f.availability),
  ("loyalty", style.float f.loyalty)]

/-- What a provider's assignments tell. -/
def History.toJson (h : History) : Json := .record [
  ("recent_assignments", .ofNat h.recentAssignments),
  ("recent_cancellations", .ofNat h.recentCancellations),
  ("total_assignments", .ofNat h.totalAssignments), ("served_client", .bool h.servedClient),
  ("forward_load", .ofNat h.forwardLoad)]

/-- A provider who was looked at, by id. -/
def Candidate.toJson (style : Style) (c : Candidate) : Json := .record [
  ("provider_id", .text c.provider.id), ("tier", .text c.tier.text),
  ("distance_km", style.float c.distance), ("load", style.float c.load),
  ("stats", c.history.toJson)]

/-- A row of a ranking. -/
def Scored.toJson (style : Style) (s : Scored) : Json := .record [
  ("provider_id", .text s.providerId), ("kind", .text s.kind.text), ("rank", .ofNat s.rank),
  ("score", style.float s.score), ("components", s.components.toJson style),
  ("team_bonus", style.float s.teamBonus), ("tier", .text s.tier.text),
  ("distance_km", style.float s.distance), ("load", style.float s.load),
  ("rating_average", style.float s.ratingAverage),
  ("estimated_price", style.float s.estimatedPrice), ("price_fit", style.float s.priceFit)]

/-- The fields of what a team sends. -/
def TeamMatch.jsonFields (style : Style) (m : TeamMatch) : List (String × Json) := [
  ("team_id", .text m.teamId), ("member_ids", .texts m.memberIds),
  ("total_load", style.float m.totalLoad)]

/-- What a team sends. -/
def TeamMatch.toJson (style : Style) (m : TeamMatch) : Json := .record (m.jsonFields style)

/-- Who goes. -/
def Selection.toJson (style : Style) : Selection → Json
  | .team found => .record (("kind", .text "team") :: found.jsonFields style)
  | .individuals ids => .record [("kind", .text "individuals"), ("provider_ids", .texts ids)]

end Staffing
