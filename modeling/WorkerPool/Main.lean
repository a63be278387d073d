import WorkerPool.Load.Command

/-!
# The load program's entry

Hands the arguments and the environment to the load program, writes what it says and ends with its
code.
-/

open WorkerPool

/-- The processors of this machine, one if they cannot be counted. -/
def countProcessors : IO Nat := do
  try
    let text ← IO.FS.readFile "/proc/cpuinfo"
    return max 1 ((text.splitOn "\n").countP (·.startsWith "processor"))
  catch _ => return 1

/-- The variables that the load program asks for. -/
def loadVariables : List String := "RUST_LOG" :: CommandLine.OptionName.all.map (·.envName)

/-- Runs the load program. -/
def main (arguments : List String) : IO UInt32 := do
  let values ← loadVariables.mapM fun name => do return (name, ← IO.getEnv name)
  let environment := fun name => (values.lookup name).join
  let result := loadCommand (← countProcessors) arguments environment
  for line in result.output do IO.println line
  for line in result.complaint do IO.eprintln line
  return result.code.toUInt32
