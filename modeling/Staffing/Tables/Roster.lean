import Staffing.Tables.Basic

/-!
# Providers and teams in the tables

* `Tables.provider?`, `Tables.findProviders` — a provider by id; the active ones for a service
* `Tables.hasTimeOff` — does a time off of a provider overlap a window?
* `Tables.team?`, `Tables.activeTeams` — a team by id; the active ones, first come first
* the statements that store providers, hours, times off, teams and members
-/

namespace Staffing.Tables

/-! ## Providers -/

/-- The provider of an id. -/
def provider? (t : Tables) (id : String) : Option Provider := t.providers.find? (·.id == id)

/-- Is there a provider of this id? -/
def hasProvider (t : Tables) (id : String) : Bool := t.providers.any (·.id == id)

/-- Changes the provider of an id. -/
def updateProvider (id : String) (f : Provider → Provider) (t : Tables) : Tables :=
  { t with providers := updateWhere (·.id == id) f t.providers }

/-- Stores a provider without hours and times off. A rate or rating that is not a number is
refused. -/
def insertProvider (p : Provider) : Statement := fun t =>
  if t.hasProvider p.id || p.hourlyRate.isNaN || p.ratingAverage.isNaN then .error .database
  else .ok { t with providers := t.providers ++ [p.stored] }

/-- Takes all hours of a provider away. -/
def clearSlots (providerId : String) (t : Tables) : Tables :=
  t.updateProvider providerId fun p => { p with slots := [] }

/-- Gives a provider hours, on one of seven weekdays and within a day of 1440 minutes. -/
def addSlot (providerId : String) (s : WeeklySlot) : Statement := fun t =>
  if s.weekday ≤ 6 && s.startMinute ≤ 1440 && s.endMinute ≤ 1440 && t.hasProvider providerId then
    .ok (t.updateProvider providerId fun p => { p with slots := p.slots ++ [s] })
  else .error .database

/-- Puts a time off behind those that begin before it or with it and end no later. -/
def insertTimeOff (w : Window) : List Window → List Window
  | [] => [w]
  | v :: rest =>
    if v.start < w.start ∨ (v.start = w.start ∧ v.stop ≤ w.stop) then v :: insertTimeOff w rest
    else w :: v :: rest

/-- Gives a provider a time off. -/
def addTimeOff (providerId : String) (w : Window) : Statement := fun t =>
  if t.hasProvider providerId then
    .ok (t.updateProvider providerId fun p =>
      { p with timeOff := insertTimeOff w.wholeSeconds p.timeOff })
  else .error .database

/-- Sets a provider's rating, which has to be a number. -/
def setRating (providerId : String) (average : Float) (count : Nat) : Statement := fun t =>
  if average.isNaN && t.hasProvider providerId then .error .database
  else .ok (t.updateProvider providerId fun p =>
    { p with ratingAverage := storedFloat average, ratingCount := count })

/-- The active providers for a service, by id: those in `ids` if it is given. As for locks, any
number of ids may be given. -/
def findProviders (t : Tables) (service : String) (ecoOnly : Bool)
    (ids : Option (List String)) : List Provider :=
  (t.providers.filter fun p =>
    p.active && p.offers service && (!ecoOnly || p.ecoFriendly) && ids.all (·.contains p.id)
  ).mergeSort fun p q => p.id ≤ q.id

/-- Does a time off of the provider overlap the window? -/
def hasTimeOff (t : Tables) (providerId : String) (w : Window) : Bool :=
  t.providers.any fun p => p.id == providerId && timeOffOf p
where
  /-- Does a time off overlap the window, in whole seconds? -/
  timeOffOf (p : Provider) : Bool := p.timeOff.any fun v => v.wholeSeconds.overlaps w.wholeSeconds

/-! ## Teams -/

/-- The team of an id. -/
def team? (t : Tables) (id : String) : Option Team := t.teams.find? (·.id == id)

/-- Is there a team of this id? -/
def hasTeam (t : Tables) (id : String) : Bool := t.teams.any (·.id == id)

/-- Changes the team of an id. -/
def updateTeam (id : String) (f : Team → Team) (t : Tables) : Tables :=
  { t with teams := updateWhere (·.id == id) f t.teams }

/-- Stores a team without members. -/
def insertTeam (team : Team) : Statement := fun t =>
  if t.hasTeam team.id then .error .database
  else .ok { t with teams := t.teams ++ [team.stored] }

/-- Takes all members out of a team. -/
def clearMembers (teamId : String) (t : Tables) : Tables :=
  t.updateTeam teamId fun team => { team with members := [] }

/-- Takes a stored provider into a team, at most once. -/
def addMember (teamId : String) (m : Member) : Statement := fun t =>
  match t.team? teamId with
  | none => .error .database
  | some team =>
    if t.hasProvider m.providerId && !team.members.any (·.providerId == m.providerId) then
      .ok (t.updateTeam teamId fun team => { team with members := team.members ++ [m] })
    else .error .database

/-- Takes a team into service or out of it. -/
def setTeamActive (teamId : String) (active : Bool) (t : Tables) : Tables :=
  t.updateTeam teamId fun team => { team with active }

/-- The active teams, first come first. -/
def activeTeams (t : Tables) : List Team := t.teams.filter (·.active)

end Staffing.Tables
