import WorkerPool.Load.Plan
import WorkerPool.Load.Tally
import WorkerPool.Pool.Schedule
import WorkerPool.Request

/-!
# A load run

The driver of a load run opens a pool, submits the tasks one after the other, waits until each of
them was answered, and shuts the pool down. An interruption cuts the submitting and the waiting
short; a submission that was waiting then is taken back. Everything the run counts is read off the
journal of the pool.
-/

namespace WorkerPool

/-- What is reported in a load run. -/
inductive LoadNote where
  /-- The pool accepted task `n`. -/
  | accepted (n : Nat)
  /-- The pool refused task `n`. -/
  | refused (n : Nat)
  /-- Task `n` was answered. -/
  | answered (n : Nat) (outcome : Outcome Nat String)
  /-- The shutdown was answered. -/
  | shutdown (answer : Except PoolError Unit)

/-- `n` is a multiple of a period; there are none of the period zero. -/
def isEvery (n period : Nat) : Bool := period != 0 && n % period == 0

namespace LoadPlan

/-- How the tasks of a load are handled. -/
def handler (p : LoadPlan) : Handler LoadNote Nat Nat String where
  copy := .ok
  handle n := do
    unless p.taskDuration.isZero do .act (.sleep p.taskDuration)
    if isEvery n p.panicEvery then
      .panic (.text ("task " ++ Nat.repr n ++ " panicked on purpose"))
    else if isEvery n p.failEvery then
      pure (.error ("task " ++ Nat.repr n ++ " failed on purpose"))
    else pure (.ok n)
  describe := .text

/-- The job of task `n`. -/
def job (p : LoadPlan) (n : Nat) : Job LoadNote :=
  requestJob p.handler n (some fun n outcome => .act (.note (.answered n outcome)))

/-- What a client does to submit task `n`. -/
def submission (p : LoadPlan) (n : Nat) : Script (Act LoadNote) Unit :=
  .act (.ofJob (p.job n) (.accepted n) (.refused n) (.refused n))

/-- What a client does to shut the pool down. -/
def closing (p : LoadPlan) : Script (Act LoadNote) Unit :=
  .act (.shutdown p.shutdownTimeout (.shutdown (.ok ()))
    (.shutdown (.error (.shutdownTimeout p.shutdownTimeout))) (.shutdown (.ok ())))

/-- More turns than the tasks of a run can take. -/
def bound (p : LoadPlan) : Nat := 64 * (p.tasks + 4) * (p.pool.minWorkers + 4)

end LoadPlan

/-- A load run on its way. -/
structure LoadRun where
  plan : LoadPlan
  schedule : Schedule LoadNote
  /-- The next task to submit. -/
  next : Nat := 1
  /-- A submission that had to wait. -/
  held : Option TaskId := none
  /-- The part of the journal in which answers were counted. -/
  seen : Nat := 0
  tally : Tally := {}
  waiting : Tally.Waiting := .pending

namespace LoadRun

/-- Submits tasks until one has to wait or `count` were submitted. -/
def submitUpTo : Nat → LoadRun → LoadRun
  | 0, r => r
  | count + 1, r =>
    let (t, schedule) := r.schedule.call (r.plan.submission r.next)
    let r := { r with schedule, next := r.next + 1 }
    if r.schedule.isOver t then submitUpTo count r else { r with held := some t }

/-- No submission is held up. -/
def canSubmit (r : LoadRun) : Bool := r.held.all r.schedule.isOver

/-- Submits what is left, unless a submission is held up. -/
def submit (r : LoadRun) : LoadRun :=
  if r.canSubmit then submitUpTo (r.plan.tasks + 1 - r.next) { r with held := none } else r

/-- The occurrence is an answer to a task. -/
def isAnswer : Occurrence LoadNote → Bool
  | .note _ (.answered ..) => true
  | _ => false

/-- Counts the answers that have come. -/
def count (r : LoadRun) : LoadRun :=
  let journal := r.schedule.world.journal
  { r with
    seen := journal.size
    tally := (journal.extract r.seen journal.size).foldl
      (fun tally o => if isAnswer o.what then tally.record else tally) r.tally }

/-- Waits for the answers, once every task was submitted. -/
def await (r : LoadRun) : LoadRun :=
  if r.held.isNone && r.plan.tasks < r.next then
    let (waiting, tally) := r.waiting.go r.plan.tasks r.tally
    { r with waiting, tally }
  else r

/-- Every task was submitted and answered. -/
def isDrained (r : LoadRun) : Bool := r.waiting = .finished

/-- Submits and lets time pass until every task was answered or the time of the interruption has
come; tells whether it has. An interruption comes before the tasks that wake at the same time. -/
def drive (interruption : Option Nat) : Nat → LoadRun → Bool × LoadRun
  | 0, r => (false, r)
  | n + 1, r =>
    let r := r.submit.count.await
    if r.isDrained then (false, r)
    else if interruption.any (· ≤ r.schedule.world.clock) then (true, r)
    else
      let r := { r with schedule := r.schedule.settle }.count.await
      if r.isDrained || r.held.isSome && r.canSubmit then drive interruption n r
      else
        match r.schedule.nextAlarm?, interruption with
        | some alarm, some time =>
          if time ≤ alarm then (true, { r with schedule := r.schedule.setClock time })
          else drive interruption n { r with schedule := r.schedule.setClock alarm }
        | some alarm, none => drive interruption n { r with schedule := r.schedule.setClock alarm }
        | none, some time => (true, { r with schedule := r.schedule.setClock time })
        | none, none => (false, r)

/-- Gives up driving: a submission that is held up is taken back, and the log says so. -/
def interrupt (r : LoadRun) : LoadRun :=
  let world := match r.held with
    | none => r.schedule.world
    | some t => r.schedule.world.withdraw t
  { r with schedule := { r.schedule with world := world.log .loadInterrupted }, held := none }

/-- Shuts the pool down. -/
def close (r : LoadRun) : LoadRun :=
  let (t, schedule) := r.schedule.call r.plan.closing
  { r with schedule := schedule.runUntilOver t schedule.bound }

end LoadRun

/-- What a load run counted. -/
structure LoadSummary where
  submitted : Nat := 0
  ok : Nat := 0
  failed : Nat := 0
  panicked : Nat := 0
  dropped : Nat := 0
  /-- The most temporary workers that were alive when one joined. -/
  peakTemps : Nat := 0
  joins : Nat := 0
  leaves : Nat := 0
  /-- The message of the first panic that was answered. -/
  firstPanic : Option String := none
  elapsedMillis : Nat := 0
  interrupted : Bool := false
  deriving DecidableEq, Repr

namespace LoadSummary

/-- Counts the outcome of a task. -/
def answer (s : LoadSummary) : Outcome Nat String → LoadSummary
  | .ok _ => { s with ok := s.ok + 1 }
  | .error (.failed _) => { s with failed := s.failed + 1 }
  | .error (.panicked message) =>
    { s with panicked := s.panicked + 1, firstPanic := s.firstPanic <|> some message }
  | .error .dropped => { s with dropped := s.dropped + 1 }

/-- Counts an occurrence. -/
def observe (s : LoadSummary) : Occurrence LoadNote → LoadSummary
  | .note _ (.accepted _) => { s with submitted := s.submitted + 1 }
  | .note _ (.answered _ outcome) => s.answer outcome
  | .hook _ _ (.join live) _ => { s with joins := s.joins + 1, peakTemps := max s.peakTemps live }
  | .hook _ _ (.leave _) _ => { s with leaves := s.leaves + 1 }
  | _ => s

/-- The records of a summary. -/
def records (s : LoadSummary) : List Log.Record :=
  let finished : Log.Record :=
    { level := .info
      target := "wormpool_load::load"
      message := "load finished"
      fields := [("submitted", .count s.submitted), ("ok", .count s.ok),
        ("failed", .count s.failed), ("panicked", .count s.panicked),
        ("dropped", .count s.dropped), ("peak_temp_workers", .count s.peakTemps),
        ("temp_joins", .count s.joins), ("temp_leaves", .count s.leaves),
        ("elapsed_ms", .count s.elapsedMillis), ("interrupted", .flag s.interrupted)] }
  match s.firstPanic with
  | none => [finished]
  | some message =>
    [finished,
      { level := .info, target := "wormpool_load::load", message := "first panic: " ++ message }]

end LoadSummary

/-- How a load run ended. -/
structure LoadResult where
  journal : Array (Stamped LoadNote)
  /-- What it counted, or why its shutdown failed. -/
  outcome : Except PoolError LoadSummary

namespace LoadResult

/-- The record of an occurrence, as the hook of a load run or the pool writes it. -/
def record? : Occurrence LoadNote → Option Log.Record
  | .log _ notice => some notice.record
  | .hook _ _ (.join live) _ => some {
      level := .debug, target := "wormpool_load::load", message := "temporary worker joined"
      fields := [("count", .count live)] }
  | .hook _ _ (.leave live) _ => some {
      level := .debug, target := "wormpool_load::load", message := "temporary worker left"
      fields := [("count", .count live)] }
  | .hook _ _ (.panicked message) _ => some {
      level := .warn, target := "wormpool_load::load"
      message := "worker absorbed panic: " ++ message }
  | _ => none

/-- Every record of a run, those of its summary last. -/
def records (r : LoadResult) : List Log.Record :=
  r.journal.toList.filterMap (fun o => record? o.what) ++
    match r.outcome with
    | .ok summary => summary.records
    | .error _ => []

end LoadResult

namespace LoadPlan

/-- The answer to the shutdown at the end of a run. -/
def shutdownAnswer (journal : Array (Stamped LoadNote)) : Except PoolError Unit :=
  (journal.findSome? fun o =>
    match o.what with
    | .note _ (.shutdown answer) => some answer
    | _ => none).getD (.ok ())

/-- Runs a load, interrupted after so many milliseconds if at all. -/
def run (p : LoadPlan) (interruption : Option Nat) : LoadResult :=
  match World.opened p.pool (some fun _ _ => none) with
  | .error e => ⟨#[], .error e⟩
  | .ok w =>
    let r : LoadRun := { plan := p, schedule := .ofWorld w p.bound }
    let (interrupted, r) := r.drive interruption p.bound
    let r := (if interrupted then r.interrupt else r).close
    let w := r.schedule.world
    let summary := w.journal.foldl (fun summary o => summary.observe o.what)
      { elapsedMillis := w.clock, interrupted }
    ⟨w.journal, (shutdownAnswer w.journal).map fun _ => summary⟩

end LoadPlan

end WorkerPool
