import WorkerPool.Pool.Job

/-!
# The journal of a pool

Everything that happens in a pool is written down in order and with its time: what its code reports,
what it logs, the calls of its hook, and the way of every job from its submission to its end.
-/

namespace WorkerPool

/-- The number of a task of the pool: a worker, a dispatcher, or a client's call. -/
abbrev TaskId := Nat

/-- The number of an epoch: the time of a pool from a start to the stop that ends it. -/
abbrev EpochId := Nat

/-- The two queues of a pool. -/
inductive Tier where
  /-- Read by permanent workers, first. -/
  | primary
  /-- Read by temporary workers, and by permanent ones that find the primary queue empty. -/
  | temp
  deriving DecidableEq, Repr

/-- Where a worker got the job that it runs. -/
inductive Source where
  /-- The job that a temporary worker was hired for. -/
  | seed
  /-- One of the two queues. -/
  | tier (t : Tier)
  deriving DecidableEq, Repr

/-- A call of the hook that watches the workers of a pool. -/
inductive HookCall where
  /-- A temporary worker began; so many are alive. -/
  | join (live : Nat)
  /-- A temporary worker left; so many remain. -/
  | leave (live : Nat)
  /-- A panic escaped a job. -/
  | panicked (message : String)
  deriving DecidableEq, Repr

/-- What a hook does when it is called for the `n`-th time: it returns or panics. -/
abbrev Hook := (n : Nat) → HookCall → Option Panic

/-- Something that happened in a pool. -/
inductive Occurrence (ν : Type) where
  /-- Code reported something; its author is the job that the code belongs to, if any. -/
  | note (author : Option Nat) (n : ν)
  /-- A record was logged, by the code of a job or by the pool itself. -/
  | log (author : Option Nat) (notice : Notice)
  /-- A worker called the hook, which returned or panicked. -/
  | hook (epoch : EpochId) (worker : TaskId) (call : HookCall) (panic : Option Panic)
  /-- The pool was started. -/
  | opened (epoch : EpochId)
  /-- The epoch was stopped. -/
  | closed (epoch : EpochId)
  /-- A submission drew this ticket for its job. -/
  | submitted (ticket : Nat) (job : Job ν)
  /-- A submission put its job at the end of a queue. -/
  | queued (epoch : EpochId) (ticket : Nat) (tier : Tier)
  /-- A submission hired a temporary worker for its job. -/
  | seeded (epoch : EpochId) (ticket : Nat) (worker : TaskId)
  /-- A submission handed its job to the dispatcher's intake. -/
  | handedOver (epoch : EpochId) (ticket : Nat)
  /-- A submission was refused or given up. -/
  | refused (ticket : Nat)
  /-- The dispatcher took a job from its intake. -/
  | buffered (epoch : EpochId) (ticket : Nat)
  /-- The dispatcher put a job at the end of a queue. -/
  | republished (epoch : EpochId) (ticket : Nat) (tier : Tier)
  /-- A worker began a job. -/
  | started (epoch : EpochId) (ticket : Nat) (worker : TaskId) (source : Source)
  /-- A job ended, or its panic escaped. -/
  | finished (epoch : EpochId) (ticket : Nat) (ending : Except Panic Unit)
  /-- A job was abandoned. -/
  | abandoned (epoch : EpochId) (ticket : Nat)
  /-- The hook ended a temporary worker before it began the job it was hired for. -/
  | lost (epoch : EpochId) (ticket : Nat) (worker : TaskId)
  /-- A task of an epoch is over; `crashed` if a panic ended it. -/
  | exited (task : TaskId) (crashed : Bool)

/-- An occurrence and the millisecond in which it happened. -/
structure Stamped (ν : Type) where
  clock : Nat
  what : Occurrence ν

end WorkerPool
