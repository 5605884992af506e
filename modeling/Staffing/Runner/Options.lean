/-!
# Options of the command line

A flag takes the argument behind its first occurrence. A number that cannot be read counts as not
given, and an unknown flag is passed over.

* `Options` — what the command line asks for
* `Options.ofArguments` — the options of a list of arguments, the program's name first
* `Options.mode` — what the run does
* `naturalBelow?` — a number as the command line writes it
-/

namespace Staffing

/-- What the command line asks for. -/
structure Options where
  sweeps : Nat := 1
  /-- Seconds between two cycles; 0 leaves it to the configuration. -/
  interval : Nat := 0
  limit : Nat := 10
  /-- Read commands from standard input. -/
  interactive : Bool := false
  database : String := ":memory:"
  dataDirectory : String := "./data"
  /-- The job whose ranking is to be shown. -/
  preview : Option String := none
  deriving DecidableEq, Repr, Inhabited

/-- What a run does. -/
inductive Mode where
  /-- Answers commands. -/
  | commands
  /-- Shows the ranking for a job. -/
  | preview (jobId : String)
  /-- Runs so many cycles of the sweeps; without a number, cycles for ever. -/
  | cycles (count : Option Nat)
  deriving DecidableEq, Repr

/-- A natural number below `bound` in decimal digits, with or without a plus sign. -/
def naturalBelow? (bound : Nat) (s : String) : Option Nat :=
  let digits :=
    match s.toList with
    | '+' :: rest => rest
    | cs => cs
  if digits.isEmpty || !digits.all Char.isDigit then none
  else
    let n := digits.foldl (fun n c => n * 10 + (c.toNat - 48)) 0
    if n < bound then some n else none

namespace Options

/-- The argument behind the first occurrence of a flag that has one behind it. -/
def valueOf? (flag : String) : List String → Option String
  | a :: b :: rest => if a == flag then some b else valueOf? flag (b :: rest)
  | _ => none

/-- The number of 64 bits behind a flag. -/
def numberOf (flag : String) (default : Nat) (arguments : List String) : Nat :=
  ((valueOf? flag arguments).bind (naturalBelow? UInt64.size)).getD default

/-- The options of a list of arguments, the program's name first. -/
def ofArguments (arguments : List String) : Options where
  sweeps := numberOf "--sweeps" 1 arguments
  interval := numberOf "--interval" 0 arguments
  limit := numberOf "--limit" 10 arguments
  interactive := arguments.contains "--ipc-mode"
  database := (valueOf? "--db" arguments).getD ":memory:"
  dataDirectory := (valueOf? "--data-dir" arguments).getD "./data"
  preview := valueOf? "--preview" arguments

/-- Commands come before a ranking, and that before the sweeps. -/
def mode (o : Options) : Mode :=
  if o.interactive then .commands
  else
    match o.preview with
    | some jobId => .preview jobId
    | none => .cycles (if o.sweeps = 0 then none else some o.sweeps)

/-- The store is a file, which a second connection can open too. -/
def isFileBacked (o : Options) : Bool := o.database != ":memory:"

end Options

end Staffing
