import WorkerPool.Pool.Step

/-!
# Running a pool on one thread

A schedule runs the tasks of a world one at a time: each goes on until it has to wait, then it goes
to the end of the queue, and the first task in the queue that can go on is next. So of the workers
that wait for the same thing the one that has waited longest is served. Time passes only when no
task can go on, and then up to the next alarm.
-/

namespace WorkerPool

/-- A world and the order in which its tasks get their turns. -/
structure Schedule (ν : Type) where
  world : World ν
  /-- Tasks that are not over, the one that has waited longest first. -/
  queue : List TaskId := []
  /-- The tasks behind them, the last one first. -/
  behind : List TaskId := []
  /-- How many tasks of the world have been queued. -/
  enlisted : Nat := 0
  /-- More turns, and more steps in a turn, than the code in this world can take. -/
  bound : Nat

/-- The deadline of a wait. -/
def Wait.deadline? : Wait → Option Nat
  | alarm deadline => some deadline
  | exits _ deadline => some deadline
  | _ => none

/-- The time at which a task wakes by itself. -/
def Task.deadline? {ν : Type} : Task ν → Option Nat
  | worker _ _ (.idle alarm) => alarm
  | worker _ _ (.busy _ _ thread) => thread.wait.deadline?
  | client thread => thread.wait.deadline?
  | _ => none

namespace Schedule

variable {ν : Type}

/-- Queues the tasks that are new. -/
def enlist (s : Schedule ν) : Schedule ν :=
  let size := s.world.tasks.size
  { s with
    behind := (List.range' s.enlisted (size - s.enlisted)).reverse ++ s.behind
    enlisted := size }

/-- Lets a task take steps until it has to wait. -/
def runTask (t : TaskId) : Nat → World ν → World ν
  | 0, w => w
  | n + 1, w => if w.ready t then runTask t n (w.step t) else w

/-- The task is over. -/
def isOver (s : Schedule ν) (t : TaskId) : Bool := s.world.tasks[t]?.all Task.isOver

/-- A turn of task `t`, which is not in the queue; afterwards it is the last. -/
def turn (s : Schedule ν) (t : TaskId) : Schedule ν :=
  let s := { s with world := runTask t s.bound s.world }
  let s := s.enlist
  if s.isOver t then s else { s with behind := t :: s.behind }

/-- The first task in the queue that can go on, and the schedule without it in the queue. -/
def next? (s : Schedule ν) : Option (TaskId × Schedule ν) :=
  let waits := fun t => !s.world.ready t
  match s.queue.span waits with
  | (waiting, t :: rest) => some (t, { s with queue := waiting ++ rest })
  | (waiting, []) =>
    match s.behind.reverse.span waits with
    | (later, t :: rest) => some (t, { s with queue := waiting ++ later ++ rest, behind := [] })
    | (_, []) => none

/-- Gives turns until every task has to wait. -/
def settleIn : Nat → Schedule ν → Schedule ν
  | 0, s => s
  | n + 1, s =>
    match s.next? with
    | none => s
    | some (t, s) => settleIn n (s.turn t)

/-- Gives turns until every task has to wait. -/
def settle (s : Schedule ν) : Schedule ν := settleIn s.bound s

/-- The next time at which a task wakes by itself. -/
def nextAlarm? (s : Schedule ν) : Option Nat :=
  (s.queue ++ s.behind).foldl (fun earliest t =>
    match earliest, s.world.tasks[t]?.bind Task.deadline? with
    | some a, some b => some (min a b)
    | none, b => b
    | a, none => a) none

/-- Sets the clock; it never goes back. -/
def setClock (s : Schedule ν) (time : Nat) : Schedule ν :=
  { s with world := { s.world with clock := max s.world.clock time } }

/-- Lets time pass alarm by alarm while the next one is not after `time`. -/
def passAlarms (time : Nat) : Nat → Schedule ν → Schedule ν
  | 0, s => s
  | n + 1, s =>
    let s := s.settle
    match s.nextAlarm? with
    | none => s
    | some alarm => if alarm ≤ time then passAlarms time n (s.setClock alarm) else s

/-- Lets time pass up to `time`. -/
def advanceTo (s : Schedule ν) (time : Nat) : Schedule ν :=
  ((passAlarms time s.bound s).setClock time).settle

/-- Lets time pass alarm by alarm until a task is over. -/
def runUntilOver (t : TaskId) : Nat → Schedule ν → Schedule ν
  | 0, s => s
  | n + 1, s =>
    let s := s.settle
    if s.isOver t then s
    else
      match s.nextAlarm? with
      | none => s
      | some alarm => runUntilOver t n (s.setClock alarm)

/-- A client that runs `code` when its turn comes. -/
def post (s : Schedule ν) (code : Script (Act ν) Unit) : Schedule ν :=
  { s with world := s.world.spawn (.client { body := code }) }.enlist

/-- A client that runs `code` at once, until it has to wait. -/
def call (s : Schedule ν) (code : Script (Act ν) Unit) : TaskId × Schedule ν :=
  let t := s.world.tasks.size
  let s := { s with
    world := s.world.spawn (.client { body := code })
    enlisted := s.enlisted + 1 }
  (t, s.turn t)

/-- Leaves passes at a gate. -/
def release (s : Schedule ν) (gate : Int) (passes : Nat) : Schedule ν :=
  { s with world := { s.world with gates := s.world.gates.add gate passes } }

/-- The schedule of a pool that was just opened. -/
def ofWorld (world : World ν) (bound : Nat) : Schedule ν :=
  { world, bound : Schedule ν }.enlist

end Schedule

end WorkerPool
