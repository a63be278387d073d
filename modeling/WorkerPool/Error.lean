import WorkerPool.Settings

/-!
# What can go wrong

Two layers of failure. A `PoolError` is an answer of the pool itself: to opening it, to a
submission, to a shutdown. A `TaskError` is the outcome of one task that gave no result.
-/

namespace WorkerPool

open Text

/-- What a panic carries: a message, or something that has none. What disposing of it may do is not
part of it, and is nothing unless a definition is told otherwise. -/
inductive Panic where
  | text (message : String)
  | unprintable
  deriving DecidableEq, Repr, Inhabited

/-- The message of a panic; one without a message gets a stand-in. -/
def Panic.message : Panic → String
  | text message => message
  | unprintable => "non-string panic payload"

/-- Why the pool refused or gave up. -/
inductive PoolError where
  /-- The pool is stopped, or was stopped during the call. -/
  | stopped
  /-- The settings are out of range. -/
  | invalidSettings (reason : String)
  /-- There is nothing to run workers on. -/
  | noRuntime (context : String)
  /-- Some worker had not left when the time was over. -/
  | shutdownTimeout (timeout : Duration)
  deriving DecidableEq, Repr

namespace PoolError

/-- The message of a pool error. -/
def message : PoolError → String
  | stopped => "Pool is stopped"
  | invalidSettings reason => "Invalid config: " ++ reason
  | noRuntime context => "No Tokio runtime available: " ++ context
  | shutdownTimeout timeout => "Shutdown timed out after " ++ timeout.text

/-- The shape of a pool error. -/
def shape : PoolError → Shape
  | stopped => .word "PoolStopped"
  | invalidSettings reason => .record "InvalidConfig" [("reason", .text reason)]
  | noRuntime context => .record "NoRuntime" [("context", .text context)]
  | shutdownTimeout timeout => .record "ShutdownTimeout" [("timeout", .word timeout.text)]

/-- The context of a pool opened where nothing can run its workers. -/
def noReactor : PoolError :=
  noRuntime
    "there is no reactor running, must be called from the context of a Tokio 1.x runtime"

end PoolError

/-- Settings that no pool can be opened with give an error that names the fault. -/
def Settings.check (s : Settings) : Except PoolError Unit :=
  match s.fault? with
  | some fault => .error (.invalidSettings fault.reason)
  | none => .ok ()

/-- Opening a pool outside of any runtime: the settings are checked first. -/
def Settings.openWithoutRuntime (s : Settings) : PoolError :=
  match s.check with
  | .error e => e
  | .ok () => .noReactor

/-- The outcome of a task that gave no result. -/
inductive TaskError (ε : Type) where
  /-- The task reported a failure. -/
  | failed (error : ε)
  /-- The task panicked. -/
  | panicked (message : String)
  /-- The pool was stopped before the task ran. -/
  | dropped
  deriving DecidableEq, Repr

namespace TaskError

variable {ε : Type}

/-- The message of a task error, where failures are shown by their shape. -/
def message (describe : ε → Shape) : TaskError ε → String
  | failed error => "Task failed: " ++ (describe error).line
  | panicked message => "Task panicked: " ++ message
  | dropped => "Task dropped: pool stopped before it ran"

/-- The shape of a task error. -/
def shape (describe : ε → Shape) : TaskError ε → Shape
  | failed error => .apply "Failed" [describe error]
  | panicked message => .apply "Panicked" [.text message]
  | dropped => .word "Dropped"

/-- The task panicked. -/
def isPanic : TaskError ε → Bool
  | panicked _ => true
  | _ => false

/-- The task never ran. -/
def isDropped : TaskError ε → Bool
  | dropped => true
  | _ => false

end TaskError

/-- The result of a task, or why there is none. -/
abbrev Outcome (ρ ε : Type) := Except (TaskError ε) ρ

end WorkerPool
