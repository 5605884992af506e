import Staffing.Event.Parse
import Staffing.Main
import Staffing.Record.Profile
import Staffing.Record.Settings
import Staffing.Proofs.Rows
import Staffing.Proofs.Step
import Staffing.Proofs.Writes
import Staffing.Proofs.Changes
import Staffing.Proofs.Keys
import Staffing.Proofs.Roster
import Staffing.Proofs.Ledger
import Staffing.Proofs.Locking
import Staffing.Proofs.Assigning
import Staffing.Proofs.EngineWork
import Staffing.Proofs.Operations
import Staffing.Proofs.Run
import Staffing.Proofs.DoubleBooking
import Staffing.Proofs.Days
import Staffing.Proofs.Figures
import Staffing.Proofs.Balance
import Staffing.Proofs.Conservation
import Staffing.Proofs.Freshness
import Staffing.Proofs.Capacity
import Staffing.Proofs.Bookings
import Staffing.Proofs.Headroom
import Staffing.Proofs.OneEach
import Staffing.Proofs.Competition
import Staffing.Proofs.Exclusion
import Staffing.Proofs.Sending
import Staffing.Proofs.HeldElsewhere
import Staffing.Proofs.SingleHold
import Staffing.Proofs.Leftovers
import Staffing.Proofs.Frames
import Staffing.Proofs.Demand
import Staffing.Proofs.Turns
import Staffing.Proofs.JobHistory
import Staffing.Proofs.AllOrNothing
import Staffing.Proofs.Failures
import Staffing.Proofs.RetrySweeps
import Staffing.Proofs.DayCeiling
import Staffing.Proofs.LockHistory
import Staffing.Proofs.LockEvents
import Staffing.Proofs.LockAccounts
import Staffing.Proofs.Promotable
import Staffing.Proofs.Narrowing
import Staffing.Proofs.Fixpoint
import Staffing.Proofs.RankOrder
import Staffing.Proofs.TeamEligibility
import Staffing.Proofs.JoinedLocks
import Staffing.Proofs.Cancellation
import Staffing.Proofs.Picking
import Staffing.Proofs.ExactPromotion
import Staffing.Proofs.TeamPromotion
import Staffing.Proofs.FreshCommit
import Staffing.Proofs.SetPlans
import Staffing.Proofs.UpToDate
import Staffing.Proofs.PlanRanges
import Staffing.Proofs.Draining
import Staffing.Proofs.ProviderLocks
import Staffing.Proofs.LightestTeam
import Staffing.Proofs.Candidates
import Staffing.Proofs.Coverage
import Staffing.Proofs.DayAvailability
import Staffing.Proofs.CancelledHistory
import Staffing.Proofs.InactiveTeams
import Staffing.Proofs.Places
import Staffing.Proofs.CachedWeights
import Staffing.Proofs.Clashes
