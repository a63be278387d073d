import WorkerPool.CommandLine.Arguments
import WorkerPool.Error

/-!
# The plan of a load run

How large the pool is, how many tasks are pushed through it, how long each takes, and which of them
panic or fail. A plan is made from the options of the load program.
-/

namespace WorkerPool

open Text CommandLine

/-- A synthetic load. -/
structure LoadPlan where
  pool : Settings
  tasks : Nat
  taskDuration : Duration
  /-- Every so many tasks one panics; none if zero. -/
  panicEvery : Nat
  /-- Every so many tasks one fails, unless it panics; none if zero. -/
  failEvery : Nat
  shutdownTimeout : Duration
  runtimeThreads : Nat
  logJson : Bool
  deriving DecidableEq, Repr

/-- Why options make no plan. -/
inductive LoadError where
  | noThreads
  | pool (e : PoolError)
  deriving DecidableEq, Repr

/-- The message of a load error. -/
def LoadError.message : LoadError → String
  | noThreads => "RUNTIME_THREADS must be greater than 0"
  | pool e => e.message

/-- Why the load program makes no plan of its arguments and its environment. -/
inductive StartError where
  /-- Help or the version is asked for, or the arguments are not understood. -/
  | usage (e : UsageError)
  /-- The options make no plan. -/
  | load (e : LoadError)
  deriving DecidableEq, Repr

namespace LoadPlan

/-- The natural number given for an option, or the default. -/
def natural (given : Given) (o : OptionName) (default : Nat) : Nat :=
  match given.number? o with
  | some n => n.toNat
  | none => default

/-- The limit on temporary workers; a negative number means that there is none. -/
def tempLimit (n : Int) : Option Nat := if n < 0 then none else some n.toNat

/-- The plan of the options given, on a machine with so many processors. -/
def ofOptions (processors : Nat) (given : Given) : Except LoadError LoadPlan :=
  let threads := natural given .runtimeThreads processors
  let pool : Settings := {
    minWorkers := natural given .minWorkers 10
    maxTemps := tempLimit ((given.number? .maxTempWorkers).getD (-1))
    primaryCapacity := natural given .primaryQueueCapacity 100
    tempCapacity := natural given .tempQueueCapacity 100
    idleTimeout := .ofMillis (natural given .idleTimeoutMs 60000) }
  if threads = 0 then .error .noThreads
  else
    match pool.check with
    | .error e => .error (.pool e)
    | .ok () => .ok {
        pool
        tasks := natural given .tasks 10000
        taskDuration := .ofMillis (natural given .taskMillis 5)
        panicEvery := natural given .panicEvery 0
        failEvery := natural given .failEvery 0
        shutdownTimeout := .ofSeconds (natural given .shutdownTimeoutSecs 10)
        runtimeThreads := threads
        logJson := given.isSet .logJson }

/-- The plan of arguments and environment, on a machine with so many processors. -/
def read (processors : Nat) (arguments : List String) (environment : String → Option String) :
    Except StartError LoadPlan :=
  match readOptions arguments environment with
  | .error e => .error (.usage e)
  | .ok given => (ofOptions processors given).mapError .load

/-- The shape of a plan. -/
def shape (p : LoadPlan) : Shape :=
  .record "LoadConfig"
    [("pool", p.pool.shape false),
     ("tasks", .nat p.tasks),
     ("task_duration", .word p.taskDuration.text),
     ("panic_every", .nat p.panicEvery),
     ("fail_every", .nat p.failEvery),
     ("shutdown_timeout", .word p.shutdownTimeout.text),
     ("runtime_threads", .nat p.runtimeThreads),
     ("log_json", .bool p.logJson)]

/-- Options make no plan with settings that no pool can be opened with. -/
theorem valid_of_ofOptions {processors : Nat} {given : Given} {p : LoadPlan}
    (h : ofOptions processors given = .ok p) : p.pool.Valid := by
  rw [← Settings.fault?_eq_none_iff]
  simp only [ofOptions] at h
  split at h
  · cases h
  · split at h
    · cases h
    · rename_i hc
      cases h
      simp only [Settings.check] at hc
      split at hc
      · cases hc
      · assumption

end LoadPlan

end WorkerPool
