import Staffing.Calendar.Window
import Staffing.Json.Value

/-!
# Records as JSON

Every record of the library has a JSON form, an object with the record's fields. How instants and
floats are written is left to a style, so that one form serves readers who want texts and readers
who want exact numbers.

* `Style` — how instants and floats are written
* `Style.plain` — texts and decimals
-/

namespace Staffing

/-- How instants and floats are written. -/
structure Style where
  instant : Instant → Json
  float : Float → Json

/-- Instants as texts, floats as decimals. -/
def Style.plain : Style := ⟨fun t => .text t.rfc3339, .float⟩

end Staffing
