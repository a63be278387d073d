import WorkerPool.Pool.Schedule
import WorkerPool.Scenario.Plan

/-!
# Scenarios

A scenario opens a pool and performs operations on it, one after the other. After each of them the
pool settles, and a report tells the answer, what was seen since the report before, whether the pool
runs with how many temporary workers, and the time. Within a burst nothing settles between the
operations.
-/

namespace WorkerPool

namespace Scenario

/-- Who watches the workers of the pool. -/
inductive Watcher where
  | nobody
  /-- Every call of the hook is seen. -/
  | record
  /-- Temporary workers are seen coming and going. -/
  | churn
  /-- Every call is seen, and the hook panics when a temporary worker joins. -/
  | panicJoin
  /-- Every call is seen, and the hook panics when a temporary worker leaves. -/
  | panicLeave
  /-- Every call is seen, and the hook panics when it is told of a panic. -/
  | panicPanic
  deriving DecidableEq, Repr

/-- The hook of a watcher. -/
def Watcher.hook? : Watcher → Option Hook
  | nobody => none
  | record | churn => some fun _ _ => none
  | panicJoin => some fun _ call => match call with
    | .join _ => some (.text "hook join")
    | _ => none
  | panicLeave => some fun _ call => match call with
    | .leave _ => some (.text "hook leave")
    | _ => none
  | panicPanic => some fun _ call => match call with
    | .panicked _ => some (.text "hook on_panic")
    | _ => none

/-- The watcher shows this call. -/
def Watcher.shows : Watcher → HookCall → Bool
  | nobody, _ => false
  | churn, .panicked _ => false
  | _, _ => true

/-- A planned job or event. -/
inductive Planned where
  | job (plan : JobPlan Step)
  | event (plan : EventPlan)

/-- An operation on the pool. -/
inductive Op where
  | submit (task : Planned)
  /-- Submits the task once for each number from `first` up to, not including, `last`. -/
  | submitRange (first last : Int) (task : Planned)
  | release (gate : Int) (passes : Nat)
  | advance (time : Duration)
  | start
  | stop
  /-- A shutdown in the background starts when the pool settles. -/
  | shutdown (timeout : Duration) (background : Bool)
  | burst (ops : List Op)
  /-- Asks for the settings of the pool. -/
  | settings
  | drop

/-- Something that a report shows. -/
inductive Sight where
  | remark (r : Remark)
  | hook (call : HookCall)
  | log (record : Log.Record)

/-- What is told after an operation. -/
structure Report where
  answer : Answer
  sights : List Sight
  /-- Whether the pool runs, and its temporary workers; nothing for event managers and once the pool
  is dropped. -/
  state : Option (Bool × Nat)
  clock : Nat

end Scenario

open Scenario in
/-- What is done with which pool, and what of it is seen. -/
structure Scenario where
  kind : PoolKind
  settings : Settings
  watcher : Watcher := .nobody
  /-- The least severe level of the log records that are seen. -/
  level : Option Log.Level := none
  ops : List Op

namespace Scenario

/-- The task with another number. -/
def Planned.withId (id : Int) : Planned → Planned
  | job plan => .job { plan with id }
  | event plan => .event { plan with id }

/-- The number of a task. -/
def Planned.id : Planned → Int
  | job plan => plan.id
  | event plan => plan.id

/-- What a client does to submit a task. Plain events are announced in the log first. -/
def Planned.submission (kind : PoolKind) (task : Planned) : Body Unit := do
  if let .event plan := task then
    if kind = .event then .act (.deed (.log (.queueingEvent plan.name)))
  let job := match task with
    | .job plan => plan.job kind
    | .event plan => plan.job kind
  .act (.ofJob job (.submitted task.id .ok) (.submitted task.id (.error .stopped))
    (.submitted task.id .noPool))

mutual

/-- The size of a step: what it does, and the job it may submit. -/
def Step.size : Step → Nat
  | .submit ⟨_, steps, _, _, _, _⟩ => 8 + stepsSize steps
  | _ => 2

/-- The size of steps. -/
def stepsSize : List Step → Nat
  | [] => 0
  | s :: rest => s.size + stepsSize rest

end

/-- The size of a task. -/
def Planned.size : Planned → Nat
  | job plan => 8 + stepsSize plan.steps
  | event _ => 16

mutual

/-- The size of an operation. -/
def Op.size : Op → Nat
  | .submit task => task.size
  | .submitRange first last task => (last - first).toNat * task.size
  | .burst ops => opsSize ops
  | _ => 2

/-- The size of operations. -/
def opsSize : List Op → Nat
  | [] => 0
  | op :: rest => op.size + opsSize rest

end

/-- More turns than the tasks of a scenario can take. -/
def bound (s : Scenario) : Nat := 64 * (opsSize s.ops + 2) * (s.settings.minWorkers + 4)

/-- A scenario on its way. -/
structure Stage where
  schedule : Schedule Remark
  /-- The pool was dropped. -/
  dropped : Bool := false
  /-- How much of the journal was looked at. -/
  seen : Nat := 0
  /-- What the next report shows. -/
  sights : Array Sight := #[]

/-- What is seen of an occurrence. -/
def sight? (s : Scenario) : Occurrence Remark → Option Sight
  | .note _ (.reply _) => none
  | .note _ r => some (.remark r)
  | .hook _ _ call _ => if s.watcher.shows call then some (.hook call) else none
  | .log _ notice =>
    if s.level.any notice.record.level.within then some (.log notice.record) else none
  | _ => none

namespace Stage

/-- The part of the journal that was not looked at. -/
def news (st : Stage) : Array (Occurrence Remark) :=
  (st.schedule.world.journal.extract st.seen st.schedule.world.journal.size).map (·.what)

/-- Looks at the rest of the journal. -/
def look (s : Scenario) (st : Stage) : Stage :=
  { st with
    sights := st.sights ++ st.news.filterMap s.sight?
    seen := st.schedule.world.journal.size }

/-- Submits a task. An answer that comes at once is the result of the operation and is not shown. -/
def submit (s : Scenario) (task : Planned) (st : Stage) : Answer × Stage :=
  let st := st.look s
  let (t, schedule) := st.schedule.call (task.submission s.kind)
  let st := { st with schedule }
  if st.schedule.isOver t then
    let answer := st.news.findSome? fun
      | .note _ (.submitted _ answer) => some answer
      | _ => none
    let shown := st.news.filter fun
      | .note _ (.submitted _ _) => false
      | _ => true
    (answer.getD .nothing,
      { st with
        sights := st.sights ++ shown.filterMap s.sight?
        seen := st.schedule.world.journal.size })
  else (.blocked, st)

/-- Submits a task once for each of `count` numbers. -/
def submitRange (s : Scenario) (task : Planned) : Nat → Int → Stage → List Answer × Stage
  | 0, _, st => ([], st)
  | n + 1, id, st =>
    let (answer, st) := st.submit s (task.withId id)
    let (answers, st) := submitRange s task n (id + 1) st
    (answer :: answers, st)

/-- A client does a deed. -/
def perform (d : Deed Remark) (st : Stage) : Stage :=
  { st with schedule := (st.schedule.call (.act (.deed d))).2 }

/-- Shuts the pool down and lets time pass until there is an answer. -/
def shutdown (s : Scenario) (timeout : Duration) (st : Stage) : Answer × Stage :=
  let st := st.look s
  let (t, schedule) := st.schedule.call (.act (.shutdown timeout (.reply .ok)
    (.reply (.error (.shutdownTimeout timeout))) (.reply .noPool)))
  let st := { st with schedule := schedule.runUntilOver t schedule.bound }
  let answer := st.news.findSome? fun
    | .note _ (.reply answer) => some answer
    | _ => none
  (answer.getD .nothing, st)

/-- A shutdown that first runs when the pool settles, and holds the pool from now on. -/
def postShutdown (timeout : Duration) (st : Stage) : Stage :=
  let st := st.perform .hold
  let code : Body Unit := do
    .act (.shutdown timeout (.shutdown .ok) (.shutdown (.error (.shutdownTimeout timeout)))
      (.shutdown .noPool))
    .act (.deed .drop)
  { st with schedule := st.schedule.post code }

mutual

/-- Performs an operation, without settling after it. -/
def operate (s : Scenario) (st : Stage) : Op → Answer × Stage
  | .release gate passes => (.ok, { st with schedule := st.schedule.release gate passes })
  | .advance time =>
    (.ok, { st with
      schedule := st.schedule.advanceTo (st.schedule.world.clock + time.ceilMillis) })
  | .burst ops =>
    let (answers, st) := operateAll s st ops
    (.list answers, st)
  | .drop => (.ok, if st.dropped then st else { st.perform .drop with dropped := true })
  | .submit task => if st.dropped then (.noPool, st) else st.submit s task
  | .submitRange first last task =>
    if st.dropped then (.noPool, st)
    else
      let (answers, st) := st.submitRange s task (last - first).toNat first
      (.list answers, st)
  | .start => if st.dropped then (.noPool, st) else (.ok, st.perform .start)
  | .stop => if st.dropped then (.noPool, st) else (.ok, st.perform .stop)
  | .shutdown timeout background =>
    if st.dropped then (.noPool, st)
    else if background then (.spawned, st.postShutdown timeout)
    else st.shutdown s timeout
  | .settings =>
    if st.dropped then (.noPool, st)
    else if s.kind = .elastic then
      (.text (s.settings.shape s.watcher.hook?.isSome).line, st)
    else (.nothing, st)

/-- Performs operations without settling between them. -/
def operateAll (s : Scenario) (st : Stage) : List Op → List Answer × Stage
  | [] => ([], st)
  | op :: rest =>
    let (answer, st) := operate s st op
    let (answers, st) := operateAll s st rest
    (answer :: answers, st)

end

/-- Lets the pool settle and reports. -/
def report (s : Scenario) (answer : Answer) (st : Stage) : Report × Stage :=
  let st := { st with schedule := st.schedule.settle }
  let st := st.look s
  let w := st.schedule.world
  ({ answer
     sights := st.sights.toList
     state := if st.dropped || s.kind.isEvents then none else some (w.running, w.tempWorkers)
     clock := w.clock },
    { st with sights := #[] })

/-- Performs operations with a report after each. -/
def reports (s : Scenario) (st : Stage) : List Op → List Report
  | [] => []
  | op :: rest =>
    let (answer, st) := st.operate s op
    let (report, st) := st.report s answer
    report :: st.reports s rest

end Stage

/-- The reports of a scenario, the first on opening its pool. -/
def reports (s : Scenario) : Except PoolError (List Report) :=
  (World.opened s.settings s.watcher.hook?).map fun w =>
    let (first, st) := Stage.report s .opened { schedule := .ofWorld w s.bound }
    first :: st.reports s s.ops

end Scenario

end WorkerPool
