import Staffing.Fault
import Staffing.Ranking.Score
import Staffing.Roster.Team

/-!
# Choosing who goes

From a ranking and the teams, the providers of a job. For a job of more than one, a team is
preferred: among the teams that can send enough eligible members the one with the least total
load, and of several such the first. Otherwise the best of the ranking go.

* `rankedLoads` — the load of each eligible provider
* `TeamMatch.of?` — what one team can send
* `pickTeam` — the team that goes
* `Selection.choose` — the team, or else individuals
* `eligibleMembers`, `checkProviderList` — may this team, may these providers go?
-/

namespace Staffing

/-- The members that a team sends. -/
structure TeamMatch where
  teamId : String
  memberIds : List String
  totalLoad : Float
  deriving Repr, Inhabited

/-- Who goes to a job. -/
inductive Selection where
  | team (found : TeamMatch)
  | individuals (providerIds : List String)
  deriving Repr, Inhabited

namespace Selection

/-- The providers who go. -/
def providerIds : Selection → List String
  | team found => found.memberIds
  | individuals providerIds => providerIds

/-- The team that goes. -/
def teamId? : Selection → Option String
  | team found => some found.teamId
  | individuals _ => none

end Selection

/-- The load of each provider of a ranking who is available. -/
def rankedLoads (ranked : List Scored) : List (String × Float) :=
  (ranked.filter (·.tier.isAvailable)).map fun row => (row.providerId, row.load)

/-- The load of a provider; the last entry counts. -/
def loadOf? (loads : List (String × Float)) (providerId : String) : Option Float :=
  (loads.reverse.find? (·.1 == providerId)).map (·.2)

/-- The members of a team who have a load, in member order, with it. -/
def Team.loadedMembers (t : Team) (loads : List (String × Float)) : List (String × Float) :=
  t.orderedMembers.filterMap fun m => (loadOf? loads m.providerId).map (m.providerId, ·)

/-- The first `required` loaded members of an active team that offers the service. -/
def TeamMatch.of? (t : Team) (service : String) (loads : List (String × Float)) (required : Nat) :
    Option TeamMatch :=
  let members := t.loadedMembers loads
  if t.active && t.offers service && required ≤ members.length then
    let sent := members.take required
    some ⟨t.id, sent.map (·.1), (sent.map (·.2)).foldl (· + ·) 0⟩
  else none

/-- The first match whose total load no later one undercuts. -/
def leastLoaded : List TeamMatch → Option TeamMatch
  | [] => none
  | first :: rest =>
    some (rest.foldl (fun best m => if m.totalLoad < best.totalLoad then m else best) first)

/-- The team that goes. -/
def pickTeam (teams : List Team) (service : String) (loads : List (String × Float))
    (required : Nat) : Option TeamMatch :=
  leastLoaded (teams.filterMap fun t => TeamMatch.of? t service loads required)

/-- The team for a job of more than one, or else the best of the ranking. -/
def Selection.choose (teams : List Team) (service : String) (ranked : List Scored)
    (required : Nat) : Selection :=
  let team := if 1 < required then pickTeam teams service (rankedLoads ranked) required else none
  match team with
  | some found => .team found
  | none => .individuals ((ranked.take required).map (·.providerId))

/-! ## Checks of a given choice -/

/-- The first `required` eligible members of a team. -/
def eligibleMembers (t : Team) (eligible : List String) (required : Nat) :
    Except Fault (List String) := do
  checkHeadcount required
  let members := (t.orderedMembers.map (·.providerId)).filter eligible.contains
  if members.length < required then
    .error (.conflict (.insufficientMembers required members.length))
  else .ok (members.take required)

/-- The first of the providers that occurs again or is not eligible; `seen` came before. -/
def providerListFault (eligible : List String) : List String → List String → Except Fault Unit
  | _, [] => .ok ()
  | seen, id :: rest =>
    if seen.contains id then .error (.conflict (.duplicateMember id))
    else if !eligible.contains id then .error (.conflict (.providerNotEligible id))
    else providerListFault eligible (id :: seen) rest

/-- A list of providers that may go: not empty, without repetition, all of them eligible. -/
def checkProviderList (ids eligible : List String) : Except Fault Unit :=
  if ids.isEmpty then .error (.invalid .emptyProviderList)
  else providerListFault eligible [] ids

end Staffing
