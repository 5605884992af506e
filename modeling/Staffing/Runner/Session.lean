import Staffing.Record.Booking
import Staffing.Record.Ranking
import Staffing.Runner.Command
import Staffing.Runner.Options
import Staffing.Runner.Reply

/-!
# A run of the program

What the program does between reading its input and writing its output. Reading and writing are
left to the caller.

* `Runner.start` — the engine of a run
* `Runner.heading` — the lines that a run begins with
* `Runner.answer` — the reply to a line of input; none ends the run
* `Runner.previewJob` — the ranking and the team for a stored job
* `Runner.step`, `Runner.batch` — cycles of the sweeps, with totals
* `Runner.summary` — the lines that a run of sweeps ends with
-/

namespace Staffing.Runner

/-- The configuration of a file; the defaults when it cannot be used. -/
def configOf (content : Option String) : Config :=
  match Config.ofText content with
  | .ok c => c
  | .error _ => {}

/-- The engine of a run. The weights are read from the settings of a store that is a file. -/
def start (o : Options) (content : Option String) (store : Store) (now : Instant) : Engine :=
  let config := configOf content
  { store, config, now
    weightSource := if o.isFileBacked then .setting else .none
    priceSource := .ofRates config.rates }

/-- Seconds between two cycles. -/
def interval (o : Options) (config : Config) : Nat :=
  if o.interval = 0 then config.sweeps.interval else o.interval

/-- The lines that a run begins with, unless it reads commands. -/
def heading (o : Options) : List String :=
  if o.interactive then []
  else ["match-runner", "  db:        " ++ o.database, "  data_dir:  " ++ o.dataDirectory, ""]

/-! ## Commands -/

/-- The ranking and the team for a stored job. -/
def previewJob (jobId : String) (limit : Nat) : EngineWork Json := do
  let j ← Engine.onStore (Work.demand .job jobId (Tables.job? · jobId))
  let criteria := Criteria.ofJob j
  let ranked ← Engine.preview criteria limit
  let team ← Engine.matchTeam criteria j.requiredMembers
  pure (.record [
    ("job_id", .text j.id), ("ranked", .ofList (Scored.toJson .plain) ranked),
    ("team", .ofOption (TeamMatch.toJson .plain) team)])

/-- Does what a command asks for. -/
def perform : Command → EngineWork Json
  | .preview jobId limit => previewJob jobId limit
  | .autoAssign jobId => do
    let now ← Engine.clock
    pure (.ofOption (Selection.toJson .plain) (← Engine.autoAssign jobId now))
  | .createLocks actor jobId request => do
    pure (.ofList (Lock.toJson .plain) (← Engine.createLocks actor jobId request))
  | .confirmLocks actor jobId lockIds => do
    pure (.ofList (Lock.toJson .plain) (← Engine.confirmLocks actor jobId lockIds))
  | .releaseLocks actor jobId lockIds => do
    pure (.ofList (Lock.toJson .plain) (← Engine.releaseLocks actor jobId lockIds))
  | .listLocks jobId withReleased => do
    pure (.ofList (Lock.toJson .plain) (← Engine.listLocks jobId withReleased))
  | .promote jobId => do
    let now ← Engine.clock
    pure (.ofOption (Promotion.toJson .plain) (← Engine.promote jobId now))
  | .sweep => do
    let e ← get
    pure (.ofList SweepReport.toJson (← Sweep.cycle (Sweep.standard e.config.sweeps)))
  | .quit => pure .null

/-- The reply to a line of input and the engine afterwards; no reply to the command that ends the
run. -/
def answer (line : String) (e : Engine) : Option Json × Engine :=
  match Command.ofLine? line with
  | none => (some (refusalJson "BAD_COMMAND" "not a command"), e)
  | some .quit => (none, e)
  | some command =>
    match perform command e with
    | .ok v e' => (some (.record [("ok", v)]), e')
    | .error fault e' => (some fault.toJson, e')

/-! ## Sweeps -/

/-- Adds the counts of a report to the total of its sweep. -/
def addReport (totals : List SweepReport) (r : SweepReport) : List SweepReport :=
  if totals.any (·.sweep == r.sweep) then
    updateWhere (·.sweep == r.sweep) (fun t =>
      { t with
        examined := t.examined + r.examined
        succeeded := t.succeeded + r.succeeded
        failed := t.failed + r.failed }) totals
  else totals ++ [r]

/-- One cycle of the sweeps, added to the totals. -/
def step (totals : List SweepReport) : EngineWork (List SweepReport) := do
  let e ← get
  let reports ← Sweep.cycle (Sweep.standard e.config.sweeps)
  pure (reports.foldl addReport totals)

/-- Lets seconds pass. -/
def wait (seconds : Nat) : EngineWork Unit :=
  modify fun e => { e with now := e.now + seconds * Instant.second }

/-- So many cycles with a wait between them. -/
def batch (seconds : Nat) : Nat → List SweepReport → EngineWork (List SweepReport)
  | 0, totals => pure totals
  | 1, totals => step totals
  | n + 2, totals => do
    let totals ← step totals
    wait seconds
    batch seconds (n + 1) totals

/-- The text and blanks behind it up to a width. -/
def padRight (width : Nat) (s : String) : String :=
  s ++ String.ofList (List.replicate (width - s.length) ' ')

/-- Blanks up to a width, and the text. -/
def padLeft (width : Nat) (s : String) : String :=
  String.ofList (List.replicate (width - s.length) ' ') ++ s

/-- A line of the totals. -/
def totalLine (r : SweepReport) : String :=
  "  " ++ padRight 10 r.sweep ++ "  examined: " ++ padLeft 4 (toString r.examined)
    ++ " | ok: " ++ padLeft 4 (toString r.succeeded)
    ++ " | failed: " ++ padLeft 4 (toString r.failed)

/-- The kinds of event that a summary counts. -/
def countedKinds : List String :=
  ["job_matched", "locks_promoted", "locks_released", "fallback_requested", "job_escalated"]

/-- The lines that a run of sweeps ends with. -/
def summary (cycles : Nat) (totals : List SweepReport) (t : Tables) : List String :=
  ["=== SWEEP SUMMARY ===", "  cycles:     " ++ toString cycles]
    ++ totals.map totalLine ++ ["", "=== EVENT LOG ==="]
    ++ countedKinds.map fun kind =>
      "  " ++ padRight 20 kind ++ " " ++ toString (t.countEvents kind)

end Staffing.Runner
