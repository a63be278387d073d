import WorkerPool.Event
import WorkerPool.Work

/-!
# Planned jobs

A scenario drives a pool with jobs that are planned in advance: each reports what it does, step by
step, and so do its callback and the phases of an event. The functions here turn plans into the jobs
of the six kinds of pools.
-/

namespace WorkerPool.Scenario

/-- The kinds of pools that a scenario may drive. -/
inductive PoolKind where
  /-- Requests answered with a number. -/
  | request
  /-- Requests answered without a value. -/
  | run
  /-- Pieces of work. -/
  | work
  /-- Bare jobs. -/
  | elastic
  | event
  | resultEvent
  deriving DecidableEq, Repr

/-- An event manager, of either kind. -/
def PoolKind.isEvents : PoolKind → Bool
  | event => true
  | resultEvent => true
  | _ => false

/-- The answer to an operation. -/
inductive Answer where
  /-- The pool was just opened. -/
  | opened
  | ok
  | error (e : PoolError)
  /-- The submission has to wait. -/
  | blocked
  /-- The shutdown goes on in the background. -/
  | spawned
  /-- The pool was dropped. -/
  | noPool
  /-- There is nothing to say. -/
  | nothing
  | text (s : String)
  | list (answers : List Answer)
  deriving Repr, Inhabited

/-- What the outcome of a planned job carries: a number, or nothing. -/
abbrev PlannedOutcome := Outcome (Option Int) String

/-- Something that planned code reports. -/
inductive Remark where
  /-- A body began. -/
  | started (id : Int)
  /-- A body took a pass of its gate. -/
  | passed (id : Int)
  /-- The callback of a request was called. -/
  | answered (id : Int) (outcome : PlannedOutcome)
  /-- A body came to its end, and succeeded or not. -/
  | ended (id : Int) (success : Bool)
  /-- A bare job was abandoned. -/
  | abandoned (id : Int)
  /-- A phase of an event began. -/
  | phase (id : Int) (name : String)
  /-- The callback of a manager was called. -/
  | event (name : String) (outcome : PlannedOutcome)
  /-- A submission was answered. -/
  | submitted (id : Int) (answer : Answer)
  /-- A shutdown in the background was answered. -/
  | shutdown (answer : Answer)
  /-- An operation was answered; this is not shown but is its result. -/
  | reply (answer : Answer)
  deriving Repr

/-- What a callback does after its report. -/
inductive Reaction where
  | nothing
  | start
  | stop
  | panic (p : Panic)
  deriving DecidableEq, Repr

/-- How a body ends. -/
inductive Ending where
  /-- With a number, by default the one of the job. -/
  | ok (value : Option Int)
  | fail (text : String)
  | panic (p : Panic)
  deriving DecidableEq, Repr

/-- The plan of a job whose body is made of steps of type `σ`. -/
structure JobPlan (σ : Type) where
  id : Int := 0
  steps : List σ := []
  ending : Ending := .ok none
  /-- Without a reaction the job has no callback. -/
  callback : Option Reaction := some .nothing
  /-- A panic while the request is copied. -/
  copyPanic : Option Panic := none
  /-- A panic before there is a body. -/
  callPanic : Option Panic := none
  deriving Repr

/-- A step of a body. -/
inductive Step where
  /-- Take a pass of the gate of the job. -/
  | gate
  | sleep (time : Duration)
  | start
  | stop
  | panic (p : Panic)
  /-- Submit another job to the same pool. -/
  | submit (plan : JobPlan Step)

/-- What a phase of an event does after its report. -/
inductive PhasePlan where
  /-- Succeed, with a number if one is called for. -/
  | succeed (value : Option Int)
  | fail (text : String)
  | panic (p : Panic)
  | start
  | stop
  deriving DecidableEq, Repr

/-- The plan of an event. -/
structure EventPlan where
  id : Int := 0
  name : String := "unnamed"
  before : Option PhasePlan := none
  /-- The action, or the phase that handles the event. -/
  main : PhasePlan := .succeed none
  after : Option PhasePlan := none
  deriving DecidableEq, Repr

/-- Bodies of planned jobs. -/
abbrev Body := Script (Act Remark)

/-- Callbacks of planned jobs. -/
abbrev Reply := Script (Deed Remark)

/-- Reports something without waiting. -/
def say (r : Remark) : Reply Unit := .act (.note r)

/-- The deeds of a reaction. -/
def Reaction.code : Reaction → Reply Unit
  | nothing => pure ()
  | start => .act .start
  | stop => .act .stop
  | panic p => .panic p

/-- The value of a planned number in a pool of this kind. -/
def PoolKind.value (kind : PoolKind) (id : Int) (value : Option Int) : Option Int :=
  match kind with
  | run | event => none
  | _ => some (value.getD id)

/-- The callback of a planned request. -/
def respond (id : Int) (reaction : Reaction) : Callback Remark Int (Option Int) String :=
  fun _ outcome => do
    say (.answered id outcome)
    reaction.code

/-- How the planned request with this body is handled. -/
def plannedHandler {σ : Type} (kind : PoolKind) (plan : JobPlan σ) (body : Body Unit) :
    Handler Remark Int (Option Int) String where
  copy n := match plan.copyPanic with
    | some p => .error p
    | none => .ok n
  handle _ := do
    if let some p := plan.callPanic then .panic p
    body
    match plan.ending with
    | .ok value => pure (.ok (kind.value plan.id value))
    | .fail text => pure (.error text)
    | .panic p => .panic p
  describe := .text

/-- A body that reports whether it succeeds when it is over. -/
def endedBody {σ : Type} (plan : JobPlan σ) (body : Body Unit) : Body Unit := do
  body
  match plan.ending with
  | .ok _ => .act (.note (.ended plan.id true))
  | .fail _ => .act (.note (.ended plan.id false))
  | .panic p => .panic p

/-- The job of a plan in a pool of some kind, with the code of its steps. -/
def plannedJob {σ : Type} (kind : PoolKind) (plan : JobPlan σ) (steps : Body Unit) : Job Remark :=
  let body : Body Unit := do
    .act (.note (.started plan.id))
    steps
  match kind with
  | .work => workJob (endedBody plan body)
  | .elastic =>
    { run := do
        if let some p := plan.callPanic then .panic p
        endedBody plan body
      abandon := do
        say (.abandoned plan.id)
        (plan.callback.getD .nothing).code }
  | _ => requestJob (plannedHandler kind plan body) plan.id (plan.callback.map (respond plan.id))

mutual

/-- The code of a step of the job with number `id`. -/
def Step.code (kind : PoolKind) (id : Int) : Step → Body Unit
  | .gate => do
    .act (.pass id)
    .act (.note (.passed id))
  | .sleep time => .act (.sleep time)
  | .start => .act (.deed .start)
  | .stop => .act (.deed .stop)
  | .panic p => .panic p
  | .submit ⟨inner, steps, ending, callback, copyPanic, callPanic⟩ =>
    .act (.ofJob
      (plannedJob kind (⟨inner, [], ending, callback, copyPanic, callPanic⟩ : JobPlan Step)
        (stepsCode kind inner steps))
      (.submitted inner .ok) (.submitted inner (.error .stopped)) (.submitted inner .noPool))

/-- The code of steps, one after the other. -/
def stepsCode (kind : PoolKind) (id : Int) : List Step → Body Unit
  | [] => pure ()
  | s :: rest => do
    s.code kind id
    stepsCode kind id rest

end

/-- The job of a plan. -/
def JobPlan.job (kind : PoolKind) (plan : JobPlan Step) : Job Remark :=
  plannedJob kind plan (stepsCode kind plan.id plan.steps)

/-- The code of a phase. -/
def PhasePlan.code (plan : PhasePlan) (id : Int) (name : String) :
    Phase Remark String (Option Int) :=
  .mk do
    say (.phase id name)
    match plan with
    | succeed value => pure (.ok (some (value.getD id)))
    | fail text => pure (.error text)
    | panic p => .panic p
    | start => do
      Script.act .start
      pure (.ok (some id))
    | stop => do
      Script.act .stop
      pure (.ok (some id))

/-- A phase beside the main one: without a plan it succeeds, and reports itself only if the event
has a plan for the other one. -/
def EventPlan.side (plan : EventPlan) (phase : Option PhasePlan) (name : String) :
    Phase Remark String Unit :=
  if plan.before.isNone && plan.after.isNone then .skip
  else discard ((phase.getD (.succeed none)).code plan.id name)

/-- The job of a planned event. -/
def EventPlan.job (kind : PoolKind) (plan : EventPlan) : Job Remark :=
  match kind with
  | .event =>
    eventJob .text (fun e outcome => say (.event e.name (outcome.map fun _ => none)))
      { name := plan.name
        before := plan.side plan.before "before"
        action := discard (plan.main.code plan.id "action")
        after := plan.side plan.after "after" }
  | _ =>
    resultEventJob .text (fun e outcome => say (.event e.name outcome))
      { name := plan.name
        before := plan.side plan.before "before"
        handle := plan.main.code plan.id "handle"
        after := plan.side plan.after "after" }

end WorkerPool.Scenario
