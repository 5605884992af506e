import Staffing.Store.Work
import Staffing.Tables.Roster

/-!
# Storing profiles

The writes that take several statements. Each is a transaction of its own, or part of the open
one; there, a statement that is refused leaves those before it done.

* `Store.insertProvider`, `Store.replaceSlots` — a provider with hours and times off; new hours
* `Store.insertTeam`, `Store.replaceMembers` — a team with its members; new members
-/

namespace Staffing.Store

/-- Gives a provider these hours and no others. -/
def replaceSlots (providerId : String) (slots : List WeeklySlot) : Work Unit := Work.atomic do
  Work.write (Tables.clearSlots providerId)
  Work.each (fun s => Work.run (Tables.addSlot providerId s)) slots

/-- Stores a provider. -/
def insertProvider (p : Provider) : Work Unit := Work.atomic do
  Work.run (Tables.insertProvider p)
  replaceSlots p.id p.slots
  Work.each (fun w => Work.run (Tables.addTimeOff p.id w)) p.timeOff

/-- Gives a team these members and no others. -/
def replaceMembers (teamId : String) (members : List Member) : Work Unit := Work.atomic do
  Work.write (Tables.clearMembers teamId)
  Work.each (fun m => Work.run (Tables.addMember teamId m)) members

/-- Stores a team. -/
def insertTeam (t : Team) : Work Unit := Work.atomic do
  Work.run (Tables.insertTeam t)
  replaceMembers t.id t.members

end Staffing.Store
