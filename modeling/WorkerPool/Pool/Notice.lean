import WorkerPool.Duration
import WorkerPool.Log.Record

/-!
# What the pool logs

The notices of the pool and of the layers above it, and the record that each of them is written as.
-/

namespace WorkerPool

open Log

/-- Something worth a log record. -/
inductive Notice where
  /-- A pool was started, with its permanent workers and the limit on temporary ones. -/
  | poolStarted (workers : Nat) (budget : Option Nat)
  /-- Jobs still queued when the pool was stopped were abandoned. -/
  | queuedDropped (count : Nat)
  /-- A shutdown saw every worker leave. -/
  | shutdownComplete
  /-- A shutdown ran out of time. -/
  | shutdownTimedOut (timeout : Duration)
  /-- A permanent worker began. -/
  | permanentStarted (index : Nat)
  /-- A permanent worker left. -/
  | permanentStopped (index : Nat)
  /-- A temporary worker began; so many are alive. -/
  | tempJoined (live : Nat)
  /-- A temporary worker left; so many remain. -/
  | tempLeft (live : Nat)
  /-- A temporary worker found no work for too long. -/
  | tempIdle (timeout : Duration)
  /-- The overflow dispatcher began. -/
  | dispatcherStarted
  /-- The overflow dispatcher left. -/
  | dispatcherStopped
  /-- Jobs that the dispatcher still held were abandoned. -/
  | bufferedDropped (count : Nat)
  /-- A panic escaped a job. -/
  | jobPanicked (message : String)
  /-- A panic escaped the abandonment of a job. -/
  | abandonPanicked (message : String)
  /-- A request without a callback panicked; the text says how. -/
  | detachedPanicked (text : String)
  /-- A request without a callback failed; the text says how. -/
  | detachedFailed (text : String)
  /-- A request without a callback was dropped. -/
  | detachedDropped
  /-- A piece of work was dropped. -/
  | workDropped
  /-- An event is about to be queued. -/
  | queueingEvent (name : String)
  /-- A load run was interrupted. -/
  | loadInterrupted
  deriving DecidableEq, Repr

namespace Notice

/-- The text of an optional limit. -/
def budgetText : Option Nat → String
  | none => "None"
  | some n => "Some(" ++ Nat.repr n ++ ")"

/-- The record of a notice. -/
def record : Notice → Record
  | poolStarted workers budget =>
      { level := .debug, target := "wormpool::pool::generation"
        message := "Pool started with " ++ Nat.repr workers ++
          " permanent workers (temp budget: " ++ budgetText budget ++ ")" }
  | queuedDropped count =>
      { level := .warn, target := "wormpool::pool::generation"
        message := "Pool stopped with " ++ Nat.repr count ++
          " queued jobs; reported as dropped" }
  | shutdownComplete =>
      { level := .debug, target := "wormpool::pool", message := "Pool shutdown complete" }
  | shutdownTimedOut timeout =>
      { level := .warn, target := "wormpool::pool"
        message := "Pool shutdown timed out after " ++ timeout.text }
  | permanentStarted index =>
      { level := .trace, target := "wormpool::pool::worker"
        message := "Permanent worker " ++ Nat.repr index ++ " started" }
  | permanentStopped index =>
      { level := .trace, target := "wormpool::pool::worker"
        message := "Permanent worker " ++ Nat.repr index ++ " stopped" }
  | tempJoined live =>
      { level := .debug, target := "wormpool::pool::worker"
        message := "Temporary worker joined (" ++ Nat.repr live ++ " live)" }
  | tempLeft live =>
      { level := .debug, target := "wormpool::pool::worker"
        message := "Temporary worker left (" ++ Nat.repr live ++ " live)" }
  | tempIdle timeout =>
      { level := .trace, target := "wormpool::pool::worker"
        message := "Temporary worker idle for " ++ timeout.text ++ ", retiring" }
  | dispatcherStarted =>
      { level := .trace, target := "wormpool::pool::overflow"
        message := "Overflow dispatcher started" }
  | dispatcherStopped =>
      { level := .trace, target := "wormpool::pool::overflow"
        message := "Overflow dispatcher stopped" }
  | bufferedDropped count =>
      { level := .warn, target := "wormpool::pool::overflow"
        message := "Overflow dispatcher stopped with " ++ Nat.repr count ++
          " buffered jobs; reported as dropped" }
  | jobPanicked message =>
      { level := .error, target := "wormpool::task"
        message := "Recovered panic in worker: " ++ message }
  | abandonPanicked message =>
      { level := .error, target := "wormpool::task"
        message := "Recovered panic while abandoning job: " ++ message }
  | detachedPanicked text =>
      { level := .error, target := "wormpool::request", message := "Detached request " ++ text }
  | detachedFailed text =>
      { level := .warn, target := "wormpool::request", message := "Detached request " ++ text }
  | detachedDropped =>
      { level := .warn, target := "wormpool::request"
        message := "Detached request dropped before it ran" }
  | workDropped =>
      { level := .warn, target := "wormpool::work"
        message := "Work item dropped before it ran" }
  | queueingEvent name =>
      { level := .trace, target := "wormpool::event", message := "Queueing event " ++ name }
  | loadInterrupted =>
      { level := .info, target := "wormpool_load::load"
        message := "Interrupted, shutting down the pool" }

end Notice

end WorkerPool
