import WorkerPool.Pool.Admission

/-!
# The steps of tasks

`World.step` lets one task do the next thing it can do without waiting, `World.ready` tells whether
it can. A step of a worker begins it, claims a job, does one act of the job, or lets it go idle or
leave; a step of the dispatcher takes one turn of its loop; a step of a client does one act. Any
order of steps is a run of the pool, and so is any passing of time between them.
-/

namespace WorkerPool.World

variable {ν : Type}

/-- The body of a thread can go on. -/
def bodyReady (w : World ν) (t : TaskId) (th : Thread ν) : Bool :=
  match th.wait with
  | .nothing =>
    match th.body.acts with
    | .pass gate :: _ => 0 < w.gates.count gate
    | _ => true
  | .alarm deadline => deadline ≤ w.clock
  | .inLine e _ =>
    (w.epoch e).closed || (w.epoch e).intake.shut || (w.epoch e).intake.isGrantedTo t
  | .closing _ => true
  | .exits e deadline => w.deserted e || deadline ≤ w.clock

/-- A thread can go on. -/
def threadReady (w : World ν) (t : TaskId) (th : Thread ν) : Bool :=
  !th.layers.isEmpty || w.bodyReady t th

/-- A task can take a step. A dispatcher that expects a job is woken by the job alone: a submitter
that gives up the place kept for it wakes nobody. -/
def ready (w : World ν) (t : TaskId) : Bool :=
  match w.tasks[t]? with
  | none => false
  | some (.worker home kind state) =>
    match state with
    | .hired | .seeded .. | .leaving => true
    | .idle alarm =>
      (w.epoch home).closed || (w.epoch home).hasWork (kind != .temporary) ||
        alarm.any (· ≤ w.clock)
    | .busy _ _ thread => w.threadReady t thread
    | .gone _ => false
  | some (.dispatcher home state) =>
    match state with
    | .hired | .flushing | .collecting | .discarding _ => true
    | .parked =>
      (w.epoch home).closed || (w.epoch home).intake.slot.isSome ||
        (w.epoch home).freed && !(w.epoch home).backlog.isEmpty
    | .expecting => (w.epoch home).intake.slot.isSome
    | .gone => false
  | some (.client thread) => !thread.isOver && w.threadReady t thread

/-- The body of a thread has its answer: it reports it and lets go of the pool. -/
def conclude (w : World ν) (author : Option Nat) (th : Thread ν) (answer : ν) :
    Thread ν × World ν :=
  let (layers, w) := (w.record (.note author answer)).letGo
  ({ th.next with layers }, w)

/-- A thread that shuts an epoch down looks whether it is deserted, then at the clock. -/
def awaitExits (w : World ν) (author : Option Nat) (th : Thread ν) (e : EpochId) (deadline : Nat)
    (timeout : Duration) (done late : ν) : Thread ν × World ν :=
  if w.deserted e then (w.log .shutdownComplete).conclude author th done
  else if deadline ≤ w.clock then (w.log (.shutdownTimedOut timeout)).conclude author th late
  else ({ th with wait := .exits e deadline }, w)

/-- The next act of the body of a thread. -/
def stepAct (w : World ν) (t : TaskId) (author : Option Nat) (th : Thread ν) :
    Act ν → Thread ν × World ν
  | .deed d =>
    let (layers, w) := w.perform author d
    ({ th.next with layers }, w)
  | .pass gate => (th.next, { w with gates := w.gates.take gate })
  | .sleep time =>
    match th.wait with
    | .alarm _ => (th.next, w)
    | _ => ({ th with wait := .alarm (w.deadline time) }, w)
  | .submit run abandon accepted refused gone =>
    match th.wait with
    | .inLine e ticket =>
      match w.submitGranted t e ⟨ticket, ⟨run, abandon⟩⟩ with
      | (.accepted, w) => w.conclude author th accepted
      | (_, w) => w.conclude author th refused
    | _ =>
      if w.handles = 0 then (th.next, w.record (.note author gone))
      else
        let ticket := w.nextTicket
        let w := { w with nextTicket := ticket + 1, handles := w.handles + 1 }
        let w := w.record (.submitted ticket ⟨run, abandon⟩)
        match w.submit t ⟨ticket, ⟨run, abandon⟩⟩ with
        | (.accepted, w) => w.conclude author th accepted
        | (.refused, w) => w.conclude author th refused
        | (.waits e, w) => ({ th with wait := .inLine e ticket }, w)
  | .shutdown timeout done late gone =>
    match th.wait with
    | .closing e => w.awaitExits author th e (w.deadline timeout) timeout done late
    | .exits e deadline => w.awaitExits author th e deadline timeout done late
    | _ =>
      if w.handles = 0 then (th.next, w.record (.note author gone))
      else
        match { w with handles := w.handles + 1 }.retire with
        | (none, w) => w.conclude author th done
        | (some e, w) => ({ th with layers := [.drain e 0], wait := .closing e }, w.close e)

/-- The next step of a thread: of its innermost layer, else of its body. -/
def stepThread (w : World ν) (t : TaskId) (author : Option Nat) (th : Thread ν) :
    Thread ν × World ν :=
  match th.layers with
  | [] =>
    match th.body.acts with
    | [] => (th, w)
    | act :: _ => w.stepAct t author th act
  | layers =>
    let (layers, w) := w.stepLayers layers
    ({ th with layers }, w)

/-- A task is over. -/
def leave (w : World ν) (t : TaskId) (task : Task ν) (crashed : Bool) : World ν :=
  (w.setTask t task).record (.exited t crashed)

/-- A worker's task is over. -/
def dismiss (w : World ν) (t : TaskId) (home : EpochId) (kind : WorkerKind) (crashed : Bool) :
    World ν :=
  w.leave t (.worker home kind (.gone crashed)) crashed

/-- A worker begins a job. -/
def assign (w : World ν) (t : TaskId) (home : EpochId) (kind : WorkerKind) (source : Source)
    (x : Entry ν) : World ν :=
  (w.setTask t (.worker home kind (.busy source x.ticket { body := x.job.run }))).record
    (.started home x.ticket t source)

/-- A worker waits for work. A temporary worker sets its alarm when its first job is over; after
each later job it sets it anew, which fails if the clock cannot show the time. -/
def rest (w : World ν) (t : TaskId) (home : EpochId) (kind : WorkerKind) (source : Source) :
    World ν :=
  match kind, source with
  | .permanent _, _ => w.setTask t (.worker home kind (.idle none))
  | .temporary, .seed =>
    w.setTask t (.worker home kind (.idle (some (w.deadline w.settings.idleTimeout))))
  | .temporary, .tier _ =>
    match w.deadline? w.settings.idleTimeout with
    | some alarm => w.setTask t (.worker home kind (.idle (some alarm)))
    | none => w.dismiss t home kind true

/-- The job of a worker is over. A panic that escaped it is logged and told to the hook; a panic of
the hook ends the worker. -/
def finish (w : World ν) (t : TaskId) (home : EpochId) (kind : WorkerKind) (source : Source)
    (ticket : Nat) (ending : Except Panic Unit) : World ν :=
  let w := w.record (.finished home ticket ending)
  match ending with
  | .ok () => w.rest t home kind source
  | .error p =>
    match (w.log (.jobPanicked p.message)).callHook home t (.panicked p.message) with
    | (true, w) => w.dismiss t home kind true
    | (false, w) => w.rest t home kind source

/-- An idle worker leaves if its epoch is closed, else claims a job, else heeds its alarm. -/
def stepIdle (w : World ν) (t : TaskId) (home : EpochId) (kind : WorkerKind)
    (alarm : Option Nat) : World ν :=
  if (w.epoch home).closed then w.setTask t (.worker home kind .leaving)
  else
    match (w.epoch home).claim? (kind != .temporary) with
    | some (tier, x, ep) => (w.modifyEpoch home fun _ => ep).assign t home kind (.tier tier) x
    | none =>
      if alarm.any (· ≤ w.clock) then
        (w.log (.tempIdle w.settings.idleTimeout)).setTask t (.worker home kind .leaving)
      else w

/-- A worker that has left its loop says so; a temporary worker gives its place back first, and
tells the hook last. -/
def stepLeaving (w : World ν) (t : TaskId) (home : EpochId) (kind : WorkerKind) : World ν :=
  match kind with
  | .permanent index => (w.log (.permanentStopped index)).dismiss t home kind false
  | .temporary =>
    let w := w.modifyEpoch home fun ep => { ep with temps := ep.temps - 1 }
    let remaining := (w.epoch home).temps
    let (crashed, w) := (w.log (.tempLeft remaining)).callHook home t (.leave remaining)
    w.dismiss t home kind crashed

/-- One step of a worker. -/
def stepWorker (w : World ν) (t : TaskId) (home : EpochId) (kind : WorkerKind) :
    WorkerState ν → World ν
  | .hired =>
    match kind with
    | .permanent index =>
      (w.log (.permanentStarted index)).setTask t (.worker home kind (.idle none))
    | .temporary => w.setTask t (.worker home kind .leaving)
  | .seeded live seed =>
    match w.callHook home t (.join live) with
    | (true, w) => (w.record (.lost home seed.ticket t)).dismiss t home kind true
    | (false, w) => (w.log (.tempJoined live)).assign t home kind .seed seed
  | .idle alarm => w.stepIdle t home kind alarm
  | .busy source ticket thread =>
    if thread.isOver then w.finish t home kind source ticket thread.body.ending
    else
      let (thread, w) := w.stepThread t (some ticket) thread
      w.setTask t (.worker home kind (.busy source ticket thread))
  | .leaving => w.stepLeaving t home kind
  | .gone _ => w

/-- The dispatcher of an epoch takes a job from its intake. -/
def takeIn (w : World ν) (home : EpochId) (x : Entry ν) (intake : Intake (Entry ν)) : World ν :=
  (w.modifyEpoch home fun ep => { ep with intake, backlog := ep.backlog ++ [x] }).record
    (.buffered home x.ticket)

/-- The dispatcher stops its loop: its intake is shut. -/
def shutIntake (w : World ν) (t : TaskId) (home : EpochId) : World ν :=
  (w.modifyEpoch home fun ep => { ep with intake := ep.intake.close }).setTask t
    (.dispatcher home .collecting)

/-- The dispatcher offers its backlog to the queues. -/
def stepFlushing (w : World ν) (t : TaskId) (home : EpochId) : World ν :=
  let flush := (w.epoch home).flush w.settings
  let w := w.modifyEpoch home fun _ => flush.epoch
  let w := flush.moved.foldl (fun w (tier, x) => w.record (.republished home x.ticket tier)) w
  if flush.isOpen then w.setTask t (.dispatcher home .parked) else w.shutIntake t home

/-- A parked dispatcher looks whether its epoch is closed, then for room in the queues if it holds
a job, then at its intake. -/
def stepParked (w : World ν) (t : TaskId) (home : EpochId) : World ν :=
  if (w.epoch home).closed then w.shutIntake t home
  else if (w.epoch home).freed && !(w.epoch home).backlog.isEmpty then
    (w.modifyEpoch home fun ep => { ep with freed := false }).setTask t
      (.dispatcher home .flushing)
  else
    match (w.epoch home).intake.take? with
    | some (x, intake) => (w.takeIn home x intake).setTask t (.dispatcher home .flushing)
    | none => w

/-- A dispatcher with its intake shut takes the job in it. If there is none it stops looking, unless
the place is kept for a submitter: then it expects a job of that one. -/
def stepCollecting (w : World ν) (t : TaskId) (home : EpochId) : World ν :=
  match (w.epoch home).intake.take? with
  | some (x, intake) => (w.takeIn home x intake).setTask t (.dispatcher home .collecting)
  | none =>
    if (w.epoch home).intake.isFree then
      let held := (w.epoch home).backlog.length
      let w := if held = 0 then w else w.log (.bufferedDropped held)
      w.setTask t (.dispatcher home (.discarding []))
    else w.setTask t (.dispatcher home .expecting)

/-- One step of a dispatcher. -/
def stepDispatcher (w : World ν) (t : TaskId) (home : EpochId) : DispatcherState ν → World ν
  | .hired => (w.log .dispatcherStarted).setTask t (.dispatcher home .flushing)
  | .flushing => w.stepFlushing t home
  | .parked => w.stepParked t home
  | .collecting | .expecting => w.stepCollecting t home
  | .discarding [] =>
    match (w.epoch home).backlog with
    | [] => (w.log .dispatcherStopped).leave t (.dispatcher home .gone) false
    | x :: rest =>
      ((w.modifyEpoch home fun ep => { ep with backlog := rest }).record
        (.abandoned home x.ticket)).setTask t
          (.dispatcher home (.discarding [.callback x.ticket x.job.abandon]))
  | .discarding layers =>
    let (layers, w) := w.stepLayers layers
    w.setTask t (.dispatcher home (.discarding layers))
  | .gone => w

/-- One step of a task; a task that has to wait stays as it is. -/
def step (w : World ν) (t : TaskId) : World ν :=
  if w.ready t then
    match w.tasks[t]? with
    | none => w
    | some (.worker home kind state) => w.stepWorker t home kind state
    | some (.dispatcher home state) => w.stepDispatcher t home state
    | some (.client thread) =>
      let (thread, w) := w.stepThread t none thread
      w.setTask t (.client thread)
  else w

/-- The call of a client is broken off where it waits: a submission gives up its place, and a call
that holds the pool lets it go. A call that does not wait cannot be broken off. -/
def withdraw (w : World ν) (t : TaskId) : World ν :=
  match w.tasks[t]? with
  | some (.client ⟨[], _, wait⟩) =>
    let (layers, w) := match wait with
      | .nothing | .alarm _ => ([], w)
      | .inLine e ticket => (w.giveUp t e ticket).letGo
      | .closing _ | .exits .. => w.letGo
    w.setTask t (.client { layers, body := ⟨[], .ok ()⟩ })
  | _ => w

/-- A task that has to wait takes no step. -/
theorem step_of_not_ready (w : World ν) (t : TaskId) (h : w.ready t = false) : w.step t = w := by
  simp [step, h]

end WorkerPool.World
