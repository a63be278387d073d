import WorkerPool.Pool.Epoch
import WorkerPool.Pool.Gates

/-!
# The state of a pool

A world holds one pool with all its epochs, the tasks that work for it or call it, a clock, and the
journal. A task is a worker, a dispatcher, or the call of a client. The code of a task runs as a
thread: the body it is in, and above it the drains and callbacks that a stop in the middle of the
body has led to.
-/

namespace WorkerPool

/-- What the body of a thread waits for. -/
inductive Wait where
  /-- Nothing, or a gate that it stands at. -/
  | nothing
  /-- The clock. -/
  | alarm (deadline : Nat)
  /-- The intake of an epoch, with the job of this ticket. -/
  | inLine (epoch : EpochId) (ticket : Nat)
  /-- The end of the drain of an epoch that it shuts down. -/
  | closing (epoch : EpochId)
  /-- The tasks of an epoch to leave, or the clock. -/
  | exits (epoch : EpochId) (deadline : Nat)
  deriving DecidableEq, Repr, Inhabited

/-- What a thread does before it returns to its body. -/
inductive Layer (ν : Type) where
  /-- Abandon what is queued in an epoch; so many jobs were abandoned. -/
  | drain (epoch : EpochId) (count : Nat)
  /-- The callback of an abandoned job. -/
  | callback (ticket : Nat) (code : Script (Deed ν) Unit)

/-- Running code. -/
structure Thread (ν : Type) where
  /-- Drains and callbacks, the innermost first. -/
  layers : List (Layer ν) := []
  /-- What is left of the body. -/
  body : Script (Act ν) Unit
  wait : Wait := .nothing

/-- The two kinds of workers. -/
inductive WorkerKind where
  | permanent (index : Nat)
  | temporary
  deriving DecidableEq, Repr

/-- What a worker is doing. -/
inductive WorkerState (ν : Type) where
  /-- It has not begun. -/
  | hired
  /-- It has not begun and holds the job it was hired for; so many temporary workers were alive. -/
  | seeded (live : Nat) (seed : Entry ν)
  /-- It waits for work, a temporary worker until its alarm. -/
  | idle (alarm : Option Nat)
  /-- It runs a job. -/
  | busy (source : Source) (ticket : Nat) (thread : Thread ν)
  /-- It has left its loop and holds no job. -/
  | leaving
  /-- It is over. -/
  | gone (crashed : Bool)

/-- What a dispatcher is doing. -/
inductive DispatcherState (ν : Type) where
  /-- It has not begun. -/
  | hired
  /-- It is about to offer its backlog to the queues. -/
  | flushing
  /-- It waits for room in the queues, for its intake, or for the end of the epoch. -/
  | parked
  /-- It has shut its intake and is about to look for a job in it. -/
  | collecting
  /-- It found no job, but the place kept for a submitter, and sleeps until a job is put there. -/
  | expecting
  /-- It abandons its backlog. -/
  | discarding (layers : List (Layer ν))
  /-- It is over. -/
  | gone

/-- Something that takes steps. -/
inductive Task (ν : Type) where
  /-- A worker of an epoch. -/
  | worker (home : EpochId) (kind : WorkerKind) (state : WorkerState ν)
  /-- The dispatcher of an epoch. -/
  | dispatcher (home : EpochId) (state : DispatcherState ν)
  /-- A call from outside of the pool. -/
  | client (thread : Thread ν)

/-- A pool, its tasks, the clock and the journal. -/
structure World (ν : Type) where
  settings : Settings
  hook : Option Hook := none
  /-- Milliseconds since the pool was opened. -/
  clock : Nat := 0
  running : Bool := false
  /-- The epoch that submissions go to. -/
  current : Option EpochId := none
  /-- Handles held on the pool; giving up the last one stops it. -/
  handles : Nat := 1
  epochs : Array (Epoch ν) := #[]
  tasks : Array (Task ν) := #[]
  gates : Gates := {}
  /-- Everything that happened, in order. -/
  journal : Array (Stamped ν) := #[]
  /-- The ticket that the next submission draws. -/
  nextTicket : Nat := 0
  /-- How often the hook was called. -/
  hookCalls : Nat := 0

namespace Thread

variable {ν : Type}

/-- The body and everything above it is done. -/
def isOver (th : Thread ν) : Bool := th.layers.isEmpty && th.body.acts.isEmpty

/-- The thread without the act that its body has finished. -/
def next (th : Thread ν) : Thread ν :=
  { th with body := { th.body with acts := th.body.acts.tail }, wait := .nothing }

end Thread

namespace Task

variable {ν : Type}

/-- The epoch that a task works for. -/
def home? : Task ν → Option EpochId
  | worker home _ _ => some home
  | dispatcher home _ => some home
  | client _ => none

/-- The task takes no further step. -/
def isOver : Task ν → Bool
  | worker _ _ (.gone _) => true
  | worker _ _ _ => false
  | dispatcher _ .gone => true
  | dispatcher _ _ => false
  | client thread => thread.isOver

end Task

namespace World

variable {ν : Type}

/-- The state of an epoch; one that never was is blank. -/
def epoch (w : World ν) (e : EpochId) : Epoch ν := w.epochs[e]?.getD {}

/-- Changes the state of an epoch. -/
def modifyEpoch (w : World ν) (e : EpochId) (f : Epoch ν → Epoch ν) : World ν :=
  { w with epochs := w.epochs.modify e f }

/-- Writes an occurrence into the journal. -/
def record (w : World ν) (o : Occurrence ν) : World ν :=
  { w with journal := w.journal.push ⟨w.clock, o⟩ }

/-- Writes a log record of the pool into the journal. -/
def log (w : World ν) (notice : Notice) : World ν := w.record (.log none notice)

/-- Adds a task that has not begun. -/
def spawn (w : World ν) (task : Task ν) : World ν := { w with tasks := w.tasks.push task }

/-- Changes a task. -/
def setTask (w : World ν) (t : TaskId) (task : Task ν) : World ν :=
  { w with tasks := w.tasks.setIfInBounds t task }

/-- Every task of an epoch is over. -/
def deserted (w : World ν) (e : EpochId) : Bool :=
  w.tasks.all fun task => task.home? != some e || task.isOver

/-- The number of temporary workers of the current epoch. -/
def tempWorkers (w : World ν) : Nat :=
  match w.current with
  | none => 0
  | some e => (w.epoch e).temps

/-- The first second that no clock can show: clocks count seconds in 63 bits. -/
def horizon : Nat := 9223372036854775808

/-- The millisecond at which a time from now is over, if the clock can show it. -/
def deadline? (w : World ν) (time : Duration) : Option Nat :=
  if (1000000 * w.clock + time.nanos) / 1000000000 < horizon then some (w.clock + time.ceilMillis)
  else none

/-- Thirty years in milliseconds. -/
def farAway : Nat := 30 * 365 * 86400 * 1000

/-- The millisecond at which a time from now is over; a time beyond the clock is cut to thirty
years. -/
def deadline (w : World ν) (time : Duration) : Nat :=
  (w.deadline? time).getD (w.clock + farAway)

/-- Task `t` of an epoch calls the hook, if there is one; the answer tells whether it panicked. -/
def callHook (w : World ν) (e : EpochId) (t : TaskId) (call : HookCall) : Bool × World ν :=
  match w.hook with
  | none => (false, w)
  | some hook =>
    let panic := hook w.hookCalls call
    (panic.isSome, { w.record (.hook e t call panic) with hookCalls := w.hookCalls + 1 })

end World

end WorkerPool
