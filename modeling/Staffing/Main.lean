import Staffing.Runner.Session
import Std.Time.DateTime.Timestamp

/-!
# The program

Reads the configuration and the command line, keeps a store for the length of the run, and answers
commands, shows a ranking or runs the sweeps. All decisions are taken in `Staffing.Runner`.
-/

open Staffing

/-- The current instant. -/
def currentInstant : IO Instant := do
  pure (← Std.Time.Timestamp.now).toMillisecondsSinceUnixEpoch.val

/-- Writes a line at once. -/
def writeLine (line : String) : IO Unit := do
  let out ← IO.getStdout
  out.putStrLn line
  out.flush

/-- Answers the lines of standard input until it ends or a command ends the run. -/
partial def answerLines (e : Engine) : IO Unit := do
  let line ← (← IO.getStdin).getLine
  if line.isEmpty then return
  match Runner.answer line { e with now := ← currentInstant } with
  | (none, _) => return
  | (some reply, e) =>
    writeLine reply.sorted.compact
    answerLines e

/-- Runs cycles with a wait between them; `none` runs them for ever. -/
partial def runCycles (seconds : Nat) (left : Option Nat) (first : Bool) (totals : List SweepReport)
    (e : Engine) : IO (List SweepReport × Engine) := do
  if left == some 0 then return (totals, e)
  unless first do IO.sleep (seconds * 1000).toUInt32
  match Runner.step totals { e with now := ← currentInstant } with
  | .ok totals e => runCycles seconds (left.map (· - 1)) false totals e
  | .error _ e => return (totals, e)

/-- The content of a file, if it can be read. -/
def contentOf (path : String) : IO (Option String) := do
  try pure (some (← IO.FS.readFile path)) catch _ => pure none

/-- Runs the program. -/
def main (arguments : List String) : IO UInt32 := do
  let o := Options.ofArguments ("match-runner" :: arguments)
  let content ← contentOf (o.dataDirectory ++ "/matching.json")
  let e := Runner.start o content {} (← currentInstant)
  (Runner.heading o).forM writeLine
  match o.mode with
  | .commands =>
    answerLines e
    return 0
  | .preview jobId =>
    match Runner.previewJob jobId o.limit e with
    | .ok v _ =>
      writeLine v.sorted.pretty
      return 0
    | .error fault _ =>
      (← IO.getStderr).putStrLn ("Error: " ++ fault.message)
      return 1
  | .cycles count =>
    let (totals, e) ← runCycles (Runner.interval o e.config) count true [] e
    (Runner.summary o.sweeps totals e.store.tables).forM writeLine
    return 0
