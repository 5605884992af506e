import Staffing.Calendar.ZoneTable
import Staffing.Roster.Provider

/-!
# Availability

How well weekly hours cover a window. Each slot is looked at in its own time zone, the best one
counts, and any time off inside the window overrules them all.

* `Tier` — not at all, nearly, fully
* `WeeklySlot.tier` — of one slot
* `Coverage.resolve` — of all slots, and the share of the weekly time that the window takes
* `coversExactly` — fully, without a buffer
* `availableOnDay` — a slot on a calendar day that no time off touches
-/

namespace Staffing

/-- How well a window is covered. -/
inductive Tier where
  | unavailable
  | buffer
  | exact
  deriving DecidableEq, Repr, Inhabited

namespace Tier

/-- The name of the tier. -/
def text : Tier → String
  | unavailable => "unavailable"
  | buffer => "buffer"
  | exact => "exact"

/-- The tier of a name. -/
def ofText? : String → Option Tier
  | "unavailable" => some unavailable
  | "buffer" => some buffer
  | "exact" => some exact
  | _ => none

/-- The place in the order of quality. -/
def level : Tier → Nat
  | unavailable => 0
  | buffer => 1
  | exact => 2

/-- The better of two tiers. -/
def max (a b : Tier) : Tier := if a.level ≤ b.level then b else a

/-- What the tier is worth in a score. -/
def value : Tier → Float
  | exact => 1.0
  | buffer => 0.7
  | unavailable => 0.0

/-- Is the window covered at all? -/
def isAvailable (t : Tier) : Bool := t ≠ unavailable

end Tier

/-- The minutes of a day. -/
abbrev minutesPerDay : Int := 1440

/-- A window on the clocks of a zone: the weekday of its start, and both its ends in minutes since
the midnight before its start. An end at the next midnight is 1440. -/
structure LocalSpan where
  weekday : Nat
  startMinute : Int
  endMinute : Int
  deriving DecidableEq, Repr

/-- The window on the clocks of a zone. Seconds are cut off, before midnight toward midnight. -/
def Window.localSpan (w : Window) (z : Zone) : LocalSpan where
  weekday := (z.dayAt w.start).weekday
  startMinute := (z.toWall w.start - Zone.midnight (z.dayAt w.start)) / Instant.minute
  endMinute := (z.toWall w.stop - Zone.midnight (z.dayAt w.start)).tdiv Instant.minute

/-- How well one slot covers a window; both ends have to fall on the slot's day. With a buffer, a
window that the slot meets may overstep it by so many minutes at either end. -/
def WeeklySlot.tier (s : WeeklySlot) (w : Window) (buffer : Int) : Tier :=
  if !s.active || s.minutes = 0 then .unavailable
  else
    match Zone.named? s.timezone with
    | none => .unavailable
    | some z =>
      let span := w.localSpan z
      if span.weekday ≠ s.weekday ∨ minutesPerDay < span.endMinute then .unavailable
      else if (s.startMinute : Int) ≤ span.startMinute ∧ span.endMinute ≤ s.endMinute then .exact
      else if 0 < buffer ∧ span.startMinute < s.endMinute ∧ (s.startMinute : Int) < span.endMinute
          ∧ s.startMinute - buffer ≤ span.startMinute
          ∧ span.endMinute ≤ s.endMinute + buffer then
        .buffer
      else .unavailable

/-- Does a time off overlap the window? -/
def timeOffOverlaps (timeOff : List Window) (w : Window) : Bool := timeOff.any w.overlaps

/-- The active minutes of a week. -/
def weeklyMinutes (slots : List WeeklySlot) : Nat :=
  slots.foldr (fun s total => if s.active then s.minutes + total else total) 0

/-- How well a window is covered, and its share of the weekly time, infinite when there is none. -/
structure Coverage where
  tier : Tier
  load : Float
  deriving Repr, Inhabited

/-- How well the slots cover a window, the times off apart. -/
def bestTier (slots : List WeeklySlot) (w : Window) (buffer : Int) : Tier :=
  slots.foldl (fun best s => best.max (s.tier w buffer)) .unavailable

/-- How well weekly slots and times off let a provider take a window. -/
def Coverage.resolve (slots : List WeeklySlot) (timeOff : List Window) (w : Window)
    (buffer : Int) : Coverage :=
  if timeOffOverlaps timeOff w then ⟨.unavailable, 1 / 0⟩
  else
    let weekly := weeklyMinutes slots
    ⟨bestTier slots w buffer,
      if 0 < weekly then Float.ofInt w.minutes / Float.ofNat weekly else 1 / 0⟩

/-- Is the window covered fully? -/
def coversExactly (slots : List WeeklySlot) (timeOff : List Window) (w : Window) : Bool :=
  (Coverage.resolve slots timeOff w 0).tier = .exact

/-- The window of a weekly slot on a calendar day of a zone. -/
def WeeklySlot.windowOn (s : WeeklySlot) (z : Zone) (d : Day) : Window where
  start := z.ofWall (Zone.midnight d + s.startMinute * Instant.minute)
  stop := z.ofWall (Zone.midnight d + s.endMinute * Instant.minute)

/-- Is there an active slot on the day that no time off touches? The day is one of the zone `z`,
and the slot's minutes are read on that zone's clocks. -/
def availableOnDay (slots : List WeeklySlot) (timeOff : List Window) (d : Day) (z : Zone) : Bool :=
  slots.any fun s =>
    s.active && s.weekday = d.weekday && 0 < s.minutes && !timeOffOverlaps timeOff (s.windowOn z d)

end Staffing
