import WorkerPool.CommandLine.Numeral

/-!
# The options of the load program

Each option can be given on the command line or by a variable of the environment. All but one take a
number; the last is a flag, which stands alone on the command line and is spelled out in its
variable.
-/

namespace WorkerPool.CommandLine

/-- An option of the load program, in the order in which the environment is asked. -/
inductive OptionName where
  | minWorkers
  | maxTempWorkers
  | primaryQueueCapacity
  | tempQueueCapacity
  | idleTimeoutMs
  | tasks
  | taskMillis
  | panicEvery
  | failEvery
  | shutdownTimeoutSecs
  | runtimeThreads
  | logJson
  deriving DecidableEq, Repr

namespace OptionName

/-- Every option. -/
def all : List OptionName :=
  [minWorkers, maxTempWorkers, primaryQueueCapacity, tempQueueCapacity, idleTimeoutMs, tasks,
    taskMillis, panicEvery, failEvery, shutdownTimeoutSecs, runtimeThreads, logJson]

/-- The variable of an option. -/
def envName : OptionName → String
  | minWorkers => "MIN_WORKERS"
  | maxTempWorkers => "MAX_TEMP_WORKERS"
  | primaryQueueCapacity => "PRIMARY_QUEUE_CAPACITY"
  | tempQueueCapacity => "TEMP_QUEUE_CAPACITY"
  | idleTimeoutMs => "IDLE_TIMEOUT_MS"
  | tasks => "TASKS"
  | taskMillis => "TASK_MILLIS"
  | panicEvery => "PANIC_EVERY"
  | failEvery => "FAIL_EVERY"
  | shutdownTimeoutSecs => "SHUTDOWN_TIMEOUT_SECS"
  | runtimeThreads => "RUNTIME_THREADS"
  | logJson => "LOG_JSON"

/-- The word of an option after its two dashes: that of its variable, in small letters and with
dashes inside. -/
def word (o : OptionName) : String :=
  o.envName.map fun c => if c = '_' then '-' else c.toLower

/-- The numbers that an option takes; the flag takes none. -/
def range? : OptionName → Option Range
  | maxTempWorkers => some .signed64
  | logJson => none
  | _ => some .natural64

/-- The option as messages show it, with the name of its value. -/
def shown (o : OptionName) : String :=
  match o.range? with
  | some _ => "--" ++ o.word ++ " <" ++ o.envName ++ ">"
  | none => "--" ++ o.word

/-- The option of a word. -/
def ofWord? (word : String) : Option OptionName := all.find? (·.word == word)

/-- Every option is listed. -/
theorem mem_all (o : OptionName) : o ∈ all := by
  cases o <;> decide

end OptionName

/-- The value of an option. -/
inductive OptionValue where
  | number (n : Int)
  | flag (b : Bool)
  deriving DecidableEq, Repr

/-- Why the program does not go on with its arguments. -/
inductive UsageError where
  /-- A number is wanted. -/
  | badNumber (option : OptionName) (given : String) (fault : NumeralFault)
  /-- `true` or `false` is wanted. -/
  | badFlag (option : OptionName) (given : String)
  /-- The option stands alone but takes a value. -/
  | missingValue (option : OptionName)
  /-- The option, named by its word, takes no value. -/
  | surplusValue (word given : String)
  /-- The option was given before. -/
  | repeated (option : OptionName)
  | unknown (argument : String)
  /-- The program is asked what it is for, briefly or at length. -/
  | help (long : Bool)
  /-- The program is asked for its version. -/
  | version
  deriving DecidableEq, Repr

/-- The kind of a usage error. -/
inductive UsageError.Kind where
  | valueValidation
  | invalidValue
  | tooManyValues
  | argumentConflict
  | unknownArgument
  | displayHelp
  | displayVersion
  deriving DecidableEq, Repr

namespace UsageError

/-- The kind of an error. A flag without a value counts as an invalid value, like an option without
one. -/
def kind : UsageError → Kind
  | badNumber .. => .valueValidation
  | badFlag .. => .invalidValue
  | missingValue _ => .invalidValue
  | surplusValue .. => .tooManyValues
  | repeated _ => .argumentConflict
  | unknown _ => .unknownArgument
  | help _ => .displayHelp
  | version => .displayVersion

/-- The message that a value is missing. -/
def missingText (option : OptionName) : String :=
  "error: a value is required for '" ++ option.shown ++ "' but none was supplied"

/-- The message of an error; of help, its first line. -/
def text : UsageError → String
  | badNumber option given fault =>
    "error: invalid value '" ++ given ++ "' for '" ++ option.shown ++ "': " ++ fault.text
  | badFlag option given =>
    if given.isEmpty then missingText option
    else "error: invalid value '" ++ given ++ "' for '" ++ option.shown ++ "'"
  | missingValue option => missingText option
  | surplusValue word given =>
    "error: unexpected value '" ++ given ++ "' for '--" ++ word ++
      "' found; no more were expected"
  | repeated option => "error: the argument '" ++ option.shown ++ "' cannot be used multiple times"
  | unknown argument => "error: unexpected argument '" ++ argument ++ "' found"
  | help true => "Runtime configuration for the `wormpool-load` binary."
  | help false => "Drive synthetic load through an elastic worker pool"
  | version => "wormpool-load 0.1.0"

/-- The first line of a text. -/
def firstLine (s : String) : String :=
  String.ofList (s.toList.takeWhile (· != '\n'))

/-- The message of an error, where a line break in an argument cuts it short. -/
def message (e : UsageError) : String := firstLine e.text

/-- Help and version are what was asked for, not failures. -/
def isFailure : UsageError → Bool
  | help _ => false
  | version => false
  | _ => true

end UsageError

end WorkerPool.CommandLine
