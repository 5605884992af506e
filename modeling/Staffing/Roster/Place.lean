import Staffing.Roster.Provider
import Staffing.Text.Lowercase

/-!
# Distance to a place

No map is used: a provider who names the city or the postal code as a service zone is at distance
0, one who serves an area that contains the city's name, or that the name contains, is half way,
and anyone else is at the greatest distance. Where no city is given everyone is local.

* `samePlace` — zones are compared without outer white space and with ASCII letter case ignored
* `areaMatches` — areas are compared in full Unicode lower case
* `Provider.distanceTo` — the distance
-/

namespace Staffing

/-- Are two zone names the same, but for outer white space and ASCII letter case? -/
def samePlace (a b : String) : Bool :=
  Text.asciiLower (Text.trim a) == Text.asciiLower (Text.trim b)

/-- Does the name of one place contain the other's? An area without a name matches nothing. -/
def areaMatches (area city : String) : Bool :=
  let area := Text.lower (Text.trim area)
  let city := Text.lower (Text.trim city)
  !area.isEmpty && (Text.contains area city || Text.contains city area)

/-- The distance of a provider to a city, at most `furthest`. -/
def Provider.distanceTo (p : Provider) (city postalCode : Option String) (furthest : Float) :
    Float :=
  match city.filter fun c => !(Text.trim c).isEmpty with
  | none => 0
  | some city =>
    let zoneHit := p.serviceZones.any fun zone =>
      samePlace zone city || postalCode.any (samePlace zone)
    if zoneHit then 0
    else if p.areas.any (areaMatches · city) then furthest / 2
    else furthest

end Staffing
