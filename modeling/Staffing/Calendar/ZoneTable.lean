import Staffing.Calendar.Zone

/-!
# The known time zones

The zones that a name can stand for. A name is matched exactly, letter case included. The changes
cover 2025 to 2027, and for `America/Sao_Paulo` and `Pacific/Apia` also the last changes before.

The table has its limits: a name that is not in it stands for no zone, and before the first change
of a zone and after its last one the offset stays as it is there. No fact about all zones rests on
the entries: such facts ask for a regular zone, and every zone of the table is one.

* `Zone.known` — the table
* `Zone.named?` — the zone of a name
* `Zone.Regular`, `Zone.known_regular` — offsets are bounded, and change at whole seconds
-/

namespace Staffing.Zone

open Instant (utc)

/-- The zones that names are looked up in. -/
def known : List Zone := [
  ⟨"UTC", 0, []⟩,
  ⟨"Europe/Berlin", 60, [
    (utc 2025 3 30 1 0, 120), (utc 2025 10 26 1 0, 60), (utc 2026 3 29 1 0, 120),
    (utc 2026 10 25 1 0, 60), (utc 2027 3 28 1 0, 120), (utc 2027 10 31 1 0, 60)]⟩,
  ⟨"Europe/London", 0, [
    (utc 2025 3 30 1 0, 60), (utc 2025 10 26 1 0, 0), (utc 2026 3 29 1 0, 60),
    (utc 2026 10 25 1 0, 0), (utc 2027 3 28 1 0, 60), (utc 2027 10 31 1 0, 0)]⟩,
  ⟨"America/New_York", -300, [
    (utc 2025 3 9 7 0, -240), (utc 2025 11 2 6 0, -300), (utc 2026 3 8 7 0, -240),
    (utc 2026 11 1 6 0, -300), (utc 2027 3 14 7 0, -240), (utc 2027 11 7 6 0, -300)]⟩,
  ⟨"America/St_Johns", -210, [
    (utc 2025 3 9 5 30, -150), (utc 2025 11 2 4 30, -210), (utc 2026 3 8 5 30, -150),
    (utc 2026 11 1 4 30, -210), (utc 2027 3 14 5 30, -150), (utc 2027 11 7 4 30, -210)]⟩,
  ⟨"America/Sao_Paulo", -120, [
    (utc 2018 2 18 2 0, -180), (utc 2018 11 4 3 0, -120), (utc 2019 2 17 2 0, -180)]⟩,
  ⟨"America/Havana", -300, [
    (utc 2025 3 9 5 0, -240), (utc 2025 11 2 5 0, -300), (utc 2026 3 8 5 0, -240),
    (utc 2026 11 1 5 0, -300), (utc 2027 3 14 5 0, -240), (utc 2027 11 7 5 0, -300)]⟩,
  ⟨"America/Santiago", -180, [
    (utc 2025 4 6 3 0, -240), (utc 2025 9 7 4 0, -180), (utc 2026 4 5 3 0, -240),
    (utc 2026 9 6 4 0, -180), (utc 2027 4 4 3 0, -240), (utc 2027 9 5 4 0, -180)]⟩,
  ⟨"Asia/Kolkata", 330, []⟩,
  ⟨"Asia/Kathmandu", 345, []⟩,
  ⟨"Asia/Tokyo", 540, []⟩,
  ⟨"Australia/Sydney", 660, [
    (utc 2025 4 5 16 0, 600), (utc 2025 10 4 16 0, 660), (utc 2026 4 4 16 0, 600),
    (utc 2026 10 3 16 0, 660), (utc 2027 4 3 16 0, 600), (utc 2027 10 2 16 0, 660)]⟩,
  ⟨"Australia/Lord_Howe", 660, [
    (utc 2025 4 5 15 0, 630), (utc 2025 10 4 15 30, 660), (utc 2026 4 4 15 0, 630),
    (utc 2026 10 3 15 30, 660), (utc 2027 4 3 15 0, 630), (utc 2027 10 2 15 30, 660)]⟩,
  ⟨"Pacific/Auckland", 780, [
    (utc 2025 4 5 14 0, 720), (utc 2025 9 27 14 0, 780), (utc 2026 4 4 14 0, 720),
    (utc 2026 9 26 14 0, 780), (utc 2027 4 3 14 0, 720), (utc 2027 9 25 14 0, 780)]⟩,
  ⟨"Pacific/Apia", -600, [
    (utc 2011 12 30 10 0, 840), (utc 2012 3 31 14 0, 780)]⟩,
  ⟨"Pacific/Kiritimati", 840, []⟩,
  ⟨"Pacific/Pago_Pago", -660, []⟩,
  ⟨"Pacific/Chatham", 825, [
    (utc 2025 4 5 14 0, 765), (utc 2025 9 27 14 0, 825), (utc 2026 4 4 14 0, 765),
    (utc 2026 9 26 14 0, 825), (utc 2027 4 3 14 0, 765), (utc 2027 9 25 14 0, 825)]⟩]

/-- The zone of a name, letter case included. -/
def named? (name : String) : Option Zone := known.find? (·.name == name)

/-- Clocks are never more than 12 hours behind universal time or 14 ahead of it, and are changed at
whole seconds only. -/
structure Regular (z : Zone) : Prop where
  offsets : ∀ offset ∈ z.offsets, -720 ≤ offset ∧ offset ≤ 840
  changes : ∀ c ∈ z.changes, c.1.wholeSecond = c.1

instance (z : Zone) : Decidable z.Regular :=
  decidable_of_decidable_of_iff
    (p := (∀ offset ∈ z.offsets, -720 ≤ offset ∧ offset ≤ 840) ∧
      ∀ c ∈ z.changes, c.1.wholeSecond = c.1)
    ⟨fun h => ⟨h.1, h.2⟩, fun h => ⟨h.1, h.2⟩⟩

theorem known_regular : ∀ z ∈ known, z.Regular := by
  decide +kernel

theorem named?_regular {name : String} {z : Zone} (h : named? name = some z) : z.Regular :=
  known_regular z (List.mem_of_find?_eq_some h)

end Staffing.Zone
