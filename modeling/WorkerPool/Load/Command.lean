import WorkerPool.Load.Run
import WorkerPool.Log.Filter
import WorkerPool.Log.Line

/-!
# The load program

The program makes a plan of its arguments, announces it, runs the load and reports what was counted.
It ends with code 0 when the load was run or when it was asked only for help or its version, with
code 2 when its arguments are not understood, and with code 1 when they make no plan or the pool did
not shut down in time.
-/

namespace WorkerPool

/-- How the load program ended. -/
structure CommandResult where
  code : Nat
  /-- An answer other than the log. -/
  answer : Option String := none
  /-- The log is written as JSON. -/
  json : Bool := false
  /-- The log records shown. -/
  records : List Log.Record := []
  /-- Why the program failed. -/
  complaint : Option String := none
  deriving DecidableEq, Repr

/-- The end of the program when there is no plan. -/
def StartError.result : StartError → CommandResult
  | usage e =>
    if e.isFailure then { code := 2, complaint := some e.text }
    else { code := 0, answer := some e.text }
  | load e => { code := 1, complaint := some ("Error: " ++ e.message) }

namespace LoadPlan

/-- The record that announces a plan. -/
def announcement (p : LoadPlan) : Log.Record where
  level := .info
  target := "wormpool_load"
  message := "Starting load run with full config: " ++ p.shape.pretty

/-- Runs a load and shows the records that pass the filter. -/
def execute (p : LoadPlan) (filter : Log.Filter) : CommandResult :=
  let result := p.run none
  let records := (p.announcement :: result.records).filter filter.passes
  match result.outcome with
  | .ok _ => { code := 0, json := p.logJson, records }
  | .error e =>
    { code := 1, json := p.logJson, records, complaint := some ("Error: " ++ e.message) }

end LoadPlan

/-- The load program on a machine with so many processors: its result for arguments and an
environment. -/
def loadCommand (processors : Nat) (arguments : List String)
    (environment : String → Option String) : CommandResult :=
  match LoadPlan.read processors arguments environment with
  | .error e => e.result
  | .ok plan => plan.execute (.ofText (environment "RUST_LOG"))

namespace CommandResult

/-- The lines that the program writes to its standard output. -/
def output (r : CommandResult) : List String :=
  r.answer.toList ++ r.records.map fun record => if r.json then record.json else record.line

end CommandResult

end WorkerPool
