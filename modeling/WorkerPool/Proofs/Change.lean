import Mathlib.Logic.Relation
import WorkerPool.Proofs.Frame

/-!
# Elementary changes

A move of a pool is a sequence of elementary changes, each of which does one thing: one job goes
from one place to another, one deed is done, one task goes from one state to the next. A `Shift` is
such a change by the code that a task runs, a `Change` one of the world as a whole. Whatever
survives every change holds in every state that a pool may come to.
-/

namespace WorkerPool

variable {ν : Type}

/-- The epoch and the ticket of a submission that waits in line. -/
def Wait.line? : Wait → Option (EpochId × Nat)
  | inLine e ticket => some (e, ticket)
  | _ => none

/-- What a deed of this author writes into the journal. -/
def Deed.traces (author : Option Nat) : Deed ν → List (Occurrence ν)
  | note n => [.note author n]
  | log notice => [.log author notice]
  | _ => []

/-- What a deed reports. -/
def Deed.note? : Deed ν → Option ν
  | note n => some n
  | _ => none

/-- What a deed logs. -/
def Deed.notice? : Deed ν → Option Notice
  | log notice => some notice
  | _ => none

/-- What is picked from the traces of a deed. -/
@[simp] theorem Deed.filterMap_traces {α : Type} (f : Occurrence ν → Option α) (a : Option Nat)
    (d : Deed ν) : (d.traces a).filterMap f = (d.note?.bind fun n => f (.note a n)).toList ++
      (d.notice?.bind fun notice => f (.log a notice)).toList := by
  cases d with
  | note n => cases h : f (.note a n) <;> simp [traces, note?, notice?, h]
  | log notice => cases h : f (.log a notice) <;> simp [traces, note?, notice?, h]
  | _ => rfl

/-- The reports that may come of an act when it is answered. -/
def Act.answers : Act ν → List ν
  | submit _ _ accepted refused gone => [accepted, refused, gone]
  | shutdown _ done late gone => [done, late, gone]
  | _ => []

/-- An act that leaves no trace: taking a pass, or waiting for some time. -/
def Act.isPause : Act ν → Bool
  | pass _ => true
  | sleep _ => true
  | _ => false

namespace Task

/-- The code that a task runs. -/
def thread? : Task ν → Option (Thread ν)
  | worker _ _ (.busy _ _ thread) => some thread
  | dispatcher _ (.discarding layers) => some { layers, body := ⟨[], .ok ()⟩ }
  | client thread => some thread
  | _ => none

/-- The task with other code in place of what it runs. -/
def withThread (th : Thread ν) : Task ν → Task ν
  | worker home kind (.busy source ticket _) => worker home kind (.busy source ticket th)
  | dispatcher home (.discarding _) => dispatcher home (.discarding th.layers)
  | client _ => client th
  | task => task

/-- The job that the body of a task belongs to. -/
def author? : Task ν → Option Nat
  | worker _ _ (.busy _ ticket _) => some ticket
  | _ => none

/-- Code runs in a worker inside of a job, in a dispatcher that abandons its backlog, or in a
client. -/
theorem thread?_eq_some {task : Task ν} {th : Thread ν} (h : task.thread? = some th) :
    (∃ home kind source ticket, task = .worker home kind (.busy source ticket th)) ∨
      (∃ home layers, task = .dispatcher home (.discarding layers) ∧
        th = { layers, body := ⟨[], .ok ()⟩ }) ∨ task = .client th := by
  rcases task with ⟨home, kind, _ | _ | _ | _ | _ | _⟩ | ⟨home, _ | _ | _ | _ | _ | _⟩ | _ <;>
    simp only [thread?, reduceCtorEq, Option.some.injEq] at h <;> subst h
  · exact .inl ⟨_, _, _, _, rfl⟩
  · exact .inr (.inl ⟨_, _, rfl, rfl⟩)
  · exact .inr (.inr rfl)

/-- A body belongs to a job in a worker that runs the job. -/
theorem author?_eq_some {task : Task ν} {k : Nat} (h : task.author? = some k) :
    ∃ home kind source th, task = .worker home kind (.busy source k th) := by
  rcases task with ⟨home, kind, _ | _ | _ | _ | _ | _⟩ | _ | _ <;>
    simp only [author?, reduceCtorEq, Option.some.injEq] at h
  subst h
  exact ⟨_, _, _, _, rfl⟩

end Task

/-- A log record of the pool itself, or the news that a task is over. -/
def Occurrence.isAside : Occurrence ν → Bool
  | log none _ => true
  | exited .. => true
  | _ => false

namespace World

/-- Nothing happens to any job, task or epoch: time passes, passes come and go, a handle of the pool
is taken or let go, and some of this is written down. -/
structure Aside (w u : World ν) : Prop where
  settings : u.settings = w.settings
  hook : u.hook = w.hook
  clock : w.clock ≤ u.clock
  running : u.running = w.running
  current : u.current = w.current
  /-- A handle is taken only while there is one; the last one is let go of a stopped pool. -/
  handles : u.handles = w.handles ∨ w.handles ≠ 0 ∧ u.handles = w.handles + 1 ∨
    w.handles = u.handles + 1 ∧ (u.handles = 0 → w.running = false)
  epochs : u.epochs = w.epochs
  tasks : u.tasks = w.tasks
  nextTicket : u.nextTicket = w.nextTicket
  occurrences : ∃ os, u.occurrences = w.occurrences ++ os ∧ ∀ o ∈ os, o.isAside = true

/-- Nothing else was written down. -/
theorem Aside.mem {w u : World ν} (h : Aside w u) {o : Occurrence ν} (ho : o ∈ u.occurrences)
    (hn : o.isAside = false) : o ∈ w.occurrences := by
  obtain ⟨os, hos, hall⟩ := h.occurrences
  rw [hos, List.mem_append] at ho
  rcases ho with ho | ho
  · exact ho
  · rw [hall o ho] at hn
    cases hn

/-- What is picked from the journal is the same if nothing is picked from what happens aside. -/
theorem Aside.picked {w u : World ν} {α : Type} (h : Aside w u) {f : Occurrence ν → Option α}
    (hl : ∀ notice, f (.log none notice) = none) (he : ∀ t crashed, f (.exited t crashed) = none) :
    u.picked f = w.picked f := by
  obtain ⟨os, hos, hall⟩ := h.occurrences
  have hnil : os.filterMap f = [] := by
    refine List.filterMap_eq_nil_iff.2 fun o ho => ?_
    have aside := hall o ho
    cases o with
    | log author =>
      cases author with
      | none => exact hl _
      | some => cases aside
    | exited => exact he _ _
    | _ => cases aside
  rw [World.picked, hos, List.filterMap_append, hnil, List.append_nil, World.picked]

/-- A submission draws a ticket for its job. -/
def draw (w : World ν) (job : Job ν) : World ν :=
  { w with nextTicket := w.nextTicket + 1 }.record (.submitted w.nextTicket job)

section Draw

variable (w : World ν) (job : Job ν)

@[simp] theorem occurrences_draw :
    (w.draw job).occurrences = w.occurrences ++ [.submitted w.nextTicket job] := by
  rw [draw, occurrences_record]
  rfl

@[simp] theorem picked_draw {α : Type} (f : Occurrence ν → Option α) :
    (w.draw job).picked f = w.picked f ++ (f (.submitted w.nextTicket job)).toList := by
  rw [draw, picked_record]
  rfl

@[simp] theorem settings_draw : (w.draw job).settings = w.settings := rfl
@[simp] theorem hook_draw : (w.draw job).hook = w.hook := rfl
@[simp] theorem running_draw : (w.draw job).running = w.running := rfl
@[simp] theorem current_draw : (w.draw job).current = w.current := rfl
@[simp] theorem epochs_draw : (w.draw job).epochs = w.epochs := rfl
@[simp] theorem epoch_draw (e : EpochId) : (w.draw job).epoch e = w.epoch e := rfl
@[simp] theorem tasks_draw : (w.draw job).tasks = w.tasks := rfl
@[simp] theorem nextTicket_draw : (w.draw job).nextTicket = w.nextTicket + 1 := rfl

end Draw

/-- The pool is stopped and its epoch is closed. -/
def stop (w : World ν) (e : EpochId) : World ν :=
  { w with running := false, current := none }.close e

section Stop

variable (w : World ν) (e : EpochId)

@[simp] theorem occurrences_stop : (w.stop e).occurrences = w.occurrences ++ [.closed e] := by
  rw [stop, occurrences_close]
  rfl

@[simp] theorem picked_stop {α : Type} (f : Occurrence ν → Option α) :
    (w.stop e).picked f = w.picked f ++ (f (.closed e)).toList := by
  rw [stop, close, picked_record]
  rfl

@[simp] theorem settings_stop : (w.stop e).settings = w.settings := rfl
@[simp] theorem hook_stop : (w.stop e).hook = w.hook := rfl
@[simp] theorem running_stop : (w.stop e).running = false := rfl
@[simp] theorem current_stop : (w.stop e).current = none := rfl
@[simp] theorem tasks_stop : (w.stop e).tasks = w.tasks := rfl
@[simp] theorem nextTicket_stop : (w.stop e).nextTicket = w.nextTicket := rfl
@[simp] theorem size_stop : (w.stop e).epochs.size = w.epochs.size := by simp [stop]

/-- The epoch that is stopped keeps all that it had. -/
theorem epoch_stop_self (h : e < w.epochs.size) :
    (w.stop e).epoch e = { w.epoch e with closed := true } :=
  epoch_close_self _ e h

/-- A stop leaves the other epochs alone. -/
theorem epoch_stop_of_ne {i : EpochId} (h : i ≠ e) : (w.stop e).epoch i = w.epoch i :=
  epoch_close_of_ne _ e h

end Stop

/-- An elementary change by the code of task `t`, whose body belongs to the job `a` if to any: the
thread and the world before it, then both after it. The place of `t` among the tasks of the two
worlds is not looked at. -/
inductive Shift (t : TaskId) (a : Option Nat) :
    Thread ν → World ν → Thread ν → World ν → Prop
  /-- The body does a deed; what comes of it beyond its trace follows as a change of its own. -/
  | deed {th : Thread ν} {w : World ν} {d : Deed ν} {rest : List (Act ν)} (hl : th.layers = [])
      (ha : th.body.acts = .deed d :: rest) (hw : th.wait.line? = none) :
      Shift t a th w th.next (w.recordAll (d.traces a))
  /-- A callback does a deed. -/
  | callbackDeed {th : Thread ν} {w : World ν} {k : Nat} {d : Deed ν} {ds : List (Deed ν)}
      {ending : Except Panic Unit} {rest : List (Layer ν)}
      (hl : th.layers = .callback k ⟨d :: ds, ending⟩ :: rest) :
      Shift t a th w { th with layers := .callback k ⟨ds, ending⟩ :: rest }
        (w.recordAll (d.traces (some k)))
  /-- A pause of the body is over. -/
  | paused {th : Thread ν} {w : World ν} {act : Act ν} {rest : List (Act ν)} (hl : th.layers = [])
      (ha : th.body.acts = act :: rest) (hp : act.isPause = true) (hw : th.wait.line? = none) :
      Shift t a th w th.next w
  /-- The body sets its alarm. -/
  | asleep {th : Thread ν} {w : World ν} {time : Duration} {rest : List (Act ν)}
      (deadline : Nat) (ha : th.body.acts = .sleep time :: rest) (hw : th.wait.line? = none) :
      Shift t a th w { th with wait := .alarm deadline } w
  /-- A shutdown whose drain is over waits for the tasks to leave. -/
  | awaiting {th : Thread ν} {w : World ν} {e : EpochId} (deadline : Nat)
      (hw : th.wait = .closing e ∨ ∃ d, th.wait = .exits e d) :
      Shift t a th w { th with wait := .exits e deadline } w
  /-- A submission or a shutdown of the body is answered. -/
  | answered {th : Thread ν} {w : World ν} {act : Act ν} {rest : List (Act ν)} {n : ν}
      (hl : th.layers = []) (ha : th.body.acts = act :: rest) (hn : n ∈ act.answers)
      (hw : th.wait.line? = none) : Shift t a th w th.next (w.record (.note a n))
  /-- A callback is over. -/
  | returned {th : Thread ν} {w : World ν} {k : Nat} {ending : Except Panic Unit}
      {rest : List (Layer ν)} (hl : th.layers = .callback k ⟨[], ending⟩ :: rest) :
      Shift t a th w { th with layers := rest } w
  /-- A drain takes a job out of its epoch and abandons it. -/
  | abandoned {th : Thread ν} {w : World ν} {e : EpochId} {n : Nat} {rest : List (Layer ν)}
      {x : Entry ν} {ep : Epoch ν} (hl : th.layers = .drain e n :: rest)
      (hd : (w.epoch e).drain? = some (x, ep)) :
      Shift t a th w
        { th with layers := .callback x.ticket x.job.abandon :: .drain e (n + 1) :: rest }
        ((w.modifyEpoch e fun _ => ep).record (.abandoned e x.ticket))
  /-- A drain finds nothing left. -/
  | drained {th : Thread ν} {w : World ν} {e : EpochId} {n : Nat} {rest : List (Layer ν)}
      (hl : th.layers = .drain e n :: rest) (hd : (w.epoch e).drain? = none) :
      Shift t a th w { th with layers := rest } w
  /-- The pool is stopped and the thread has to drain the epoch; a shutdown waits for that. -/
  | halted {th : Thread ν} {w : World ν} {e : EpochId} {wait : Wait} (hr : w.running = true)
      (hc : w.current = some e)
      (hw : wait = th.wait ∨ wait = .closing e ∧ th.wait.line? = none ∧
        ∃ timeout done late gone rest,
          th.body.acts = .shutdown timeout done late gone :: rest) :
      Shift t a th w { th with layers := .drain e 0 :: th.layers, wait } (w.stop e)
  /-- The pool is started. -/
  | launched {th : Thread ν} {w : World ν} (hr : w.running = false) (hh : w.handles ≠ 0) :
      Shift t a th w th w.launch
  /-- Nothing happens to any job, task or epoch. -/
  | aside {th : Thread ν} {w w' : World ν} (h : Aside w w') : Shift t a th w th w'
  /-- A submission puts its job at the end of a queue. -/
  | queued {th : Thread ν} {w : World ν} (job : Job ν) {accepted refused gone : ν}
      {rest : List (Act ν)} {e : EpochId} {tier : Tier} {ep : Epoch ν} (hl : th.layers = [])
      (ha : th.body.acts = .submit job.run job.abandon accepted refused gone :: rest)
      (hw : th.wait.line? = none) (hc : w.current = some e)
      (ho : (w.epoch e).offer w.settings ⟨w.nextTicket, job⟩ = .placed tier ep) :
      Shift t a th w th (((w.draw job).modifyEpoch e fun _ => ep).record
        (.queued e w.nextTicket tier))
  /-- A submission hires a temporary worker for its job. -/
  | hired {th : Thread ν} {w : World ν} (job : Job ν) {accepted refused gone : ν}
      {rest : List (Act ν)} {e : EpochId} (hl : th.layers = [])
      (ha : th.body.acts = .submit job.run job.abandon accepted refused gone :: rest)
      (hw : th.wait.line? = none) (hc : w.current = some e)
      (ho : (w.epoch e).offer w.settings ⟨w.nextTicket, job⟩ = .full)
      (hb : ∀ limit, w.settings.maxTemps = some limit → (w.epoch e).temps < limit) :
      Shift t a th w th ((w.draw job).hire e ⟨w.nextTicket, job⟩)
  /-- A submission hands its job to the dispatcher. -/
  | handedOver {th : Thread ν} {w : World ν} (job : Job ν) {accepted refused gone : ν}
      {rest : List (Act ν)} {e : EpochId} {limit : Nat} (hl : th.layers = [])
      (ha : th.body.acts = .submit job.run job.abandon accepted refused gone :: rest)
      (hw : th.wait.line? = none) (hc : w.current = some e)
      (ho : (w.epoch e).offer w.settings ⟨w.nextTicket, job⟩ = .full)
      (hb : w.settings.maxTemps = some limit) (ht : limit ≤ (w.epoch e).temps)
      (hf : (w.epoch e).intake.isFree = true) :
      Shift t a th w th ((w.draw job).handOver e ⟨w.nextTicket, job⟩)
  /-- A submission is refused at once. -/
  | refused {th : Thread ν} {w : World ν} (job : Job ν) {accepted refused gone : ν}
      {rest : List (Act ν)} (hl : th.layers = [])
      (ha : th.body.acts = .submit job.run job.abandon accepted refused gone :: rest)
      (hw : th.wait.line? = none)
      (ho : ∀ e, w.current = some e →
        (w.epoch e).offer w.settings ⟨w.nextTicket, job⟩ = .closed) :
      Shift t a th w th ((w.draw job).record (.refused w.nextTicket))
  /-- A submission joins the line at the intake. -/
  | joined {th : Thread ν} {w : World ν} (job : Job ν) {accepted refused gone : ν}
      {rest : List (Act ν)} {e : EpochId} {limit : Nat} (hl : th.layers = [])
      (ha : th.body.acts = .submit job.run job.abandon accepted refused gone :: rest)
      (hw : th.wait.line? = none) (hc : w.current = some e)
      (ho : (w.epoch e).offer w.settings ⟨w.nextTicket, job⟩ = .full)
      (hb : w.settings.maxTemps = some limit) (ht : limit ≤ (w.epoch e).temps)
      (hf : (w.epoch e).intake.isFree = false) :
      Shift t a th w { th with wait := .inLine e w.nextTicket }
        ((w.draw job).modifyEpoch e fun ep => { ep with intake := ep.intake.join t })
  /-- A submission that waited hands its job to the dispatcher. -/
  | granted {th : Thread ν} {w : World ν} (job : Job ν) {accepted refused gone : ν}
      {rest : List (Act ν)} {e : EpochId} {k : Nat} (hl : th.layers = [])
      (ha : th.body.acts = .submit job.run job.abandon accepted refused gone :: rest)
      (hw : th.wait = .inLine e k) (hc : (w.epoch e).closed = false)
      (hs : (w.epoch e).intake.shut = false) (hg : (w.epoch e).intake.granted = some t) :
      Shift t a th w { th with wait := .nothing } (w.handOver e ⟨k, job⟩)
  /-- A submission that waited gives up. -/
  | gaveUp {th : Thread ν} {w : World ν} {e : EpochId} {k : Nat} (hl : th.layers = [])
      (hw : th.wait = .inLine e k) :
      Shift t a th w { th with wait := .nothing } (w.giveUp t e k)

/-- An elementary change of a world. -/
inductive Change : World ν → World ν → Prop
  /-- Nothing happens to any job, task or epoch. -/
  | aside {w u : World ν} (h : Aside w u) : Change w u
  /-- A client makes a call. -/
  | posted {w : World ν} (code : Script (Act ν) Unit) :
      Change w (w.spawn (.client { body := code }))
  /-- The code of a task brings a change about. -/
  | code {w w' : World ν} {t : TaskId} {task : Task ν} {th th' : Thread ν}
      (ht : w.tasks[t]? = some task) (hth : task.thread? = some th)
      (h : Shift t task.author? th w th' w') : Change w (w'.setTask t (task.withThread th'))
  /-- What is left of the code of a client is broken off. -/
  | brokenOff {w : World ν} {t : TaskId} {th : Thread ν}
      (ht : w.tasks[t]? = some (.client th)) (hl : th.layers = []) (hw : th.wait.line? = none) :
      Change w (w.setTask t (.client { body := ⟨[], .ok ()⟩ }))
  /-- A permanent worker begins. -/
  | began {w : World ν} {t : TaskId} {e : EpochId} {i : Nat}
      (ht : w.tasks[t]? = some (.worker e (.permanent i) .hired)) :
      Change w (w.setTask t (.worker e (.permanent i) (.idle none)))
  /-- A temporary worker begins the job it was hired for. -/
  | welcomed {w : World ν} {t : TaskId} {e : EpochId} {kind : WorkerKind} {live : Nat}
      {x : Entry ν} (ht : w.tasks[t]? = some (.worker e kind (.seeded live x)))
      (hh : (w.callHook e t (.join live)).1 = false) :
      Change w ((w.recordAll (w.hookTrace e t (.join live) ++
        [.log none (.tempJoined live)])).assign t e kind .seed x)
  /-- The hook ends a temporary worker, and the job it was hired for is lost. -/
  | lost {w : World ν} {t : TaskId} {e : EpochId} {kind : WorkerKind} {live : Nat} {x : Entry ν}
      (ht : w.tasks[t]? = some (.worker e kind (.seeded live x)))
      (hh : (w.callHook e t (.join live)).1 = true) :
      Change w ((w.recordAll (w.hookTrace e t (.join live) ++ [.lost e x.ticket t])).setTask t
        (.worker e kind (.gone true)))
  /-- A worker claims a job. -/
  | claimed {w : World ν} {t : TaskId} {e : EpochId} {kind : WorkerKind} {alarm : Option Nat}
      {tier : Tier} {x : Entry ν} {ep : Epoch ν}
      (ht : w.tasks[t]? = some (.worker e kind (.idle alarm)))
      (ho : (w.epoch e).closed = false)
      (hc : (w.epoch e).claim? (kind != .temporary) = some (tier, x, ep)) :
      Change w ((w.modifyEpoch e fun _ => ep).assign t e kind (.tier tier) x)
  /-- The job of a worker is over; the worker rests, or is ended by its hook or by an alarm that the
  clock cannot show. -/
  | finished {w : World ν} {t : TaskId} {e : EpochId} {kind : WorkerKind} {source : Source}
      {k : Nat} {th : Thread ν} {os : List (Occurrence ν)} {state : WorkerState ν}
      (ht : w.tasks[t]? = some (.worker e kind (.busy source k th))) (ho : th.isOver = true)
      (hos : th.body.ending = .ok () ∧ os = [] ∨ ∃ p, th.body.ending = .error p ∧
        os = .log none (.jobPanicked p.message) :: w.hookTrace e t (.panicked p.message))
      (hs : state = .idle none ∧ kind ≠ .temporary ∨
        (∃ deadline, state = .idle (some deadline) ∧ kind = .temporary) ∨
        state = .gone true ∧
          ((∃ p, th.body.ending = .error p ∧
              (w.callHook e t (.panicked p.message)).1 = true) ∨
            kind = .temporary ∧ source ≠ .seed ∧
              w.deadline? w.settings.idleTimeout = none))
      (hr : ∀ p, th.body.ending = .error p →
        (w.callHook e t (.panicked p.message)).1 = true → state = .gone true) :
      Change w ((w.recordAll (.finished e k th.body.ending :: os)).setTask t
        (.worker e kind state))
  /-- A worker leaves its loop: its epoch is closed, or its alarm has gone off. -/
  | quit {w : World ν} {t : TaskId} {e : EpochId} {kind : WorkerKind} {state : WorkerState ν}
      (ht : w.tasks[t]? = some (.worker e kind state))
      (hq : (∃ alarm, state = .idle alarm ∧ ((w.epoch e).closed = true ∨
          (∃ deadline, alarm = some deadline ∧ deadline ≤ w.clock) ∧
            (w.epoch e).claim? (kind != .temporary) = none)) ∨
        state = .hired ∧ kind = .temporary) :
      Change w (w.setTask t (.worker e kind .leaving))
  /-- A permanent worker that has left its loop is over. -/
  | left {w : World ν} {t : TaskId} {e : EpochId} {i : Nat}
      (ht : w.tasks[t]? = some (.worker e (.permanent i) .leaving)) :
      Change w (w.setTask t (.worker e (.permanent i) (.gone false)))
  /-- A temporary worker that has left its loop gives its place back, tells the hook, and is over.
  -/
  | retired {w : World ν} {t : TaskId} {e : EpochId}
      (ht : w.tasks[t]? = some (.worker e .temporary .leaving)) :
      Change w (((w.modifyEpoch e fun ep => { ep with temps := ep.temps - 1 }).recordAll
        (.log none (.tempLeft ((w.epoch e).temps - 1)) ::
          w.hookTrace e t (.leave ((w.epoch e).temps - 1)))).setTask t
            (.worker e .temporary (.gone (w.callHook e t (.leave ((w.epoch e).temps - 1))).1)))
  /-- A dispatcher begins. -/
  | dispatching {w : World ν} {t : TaskId} {e : EpochId}
      (ht : w.tasks[t]? = some (.dispatcher e .hired)) :
      Change w (w.setTask t (.dispatcher e .flushing))
  /-- A dispatcher has offered its backlog to the queues. -/
  | flushed {w : World ν} {t : TaskId} {e : EpochId}
      (ht : w.tasks[t]? = some (.dispatcher e .flushing))
      (ho : ((w.epoch e).flush w.settings).isOpen = true) :
      Change w (((w.modifyEpoch e fun _ => ((w.epoch e).flush w.settings).epoch).recordAll
        (((w.epoch e).flush w.settings).moved.map fun (tier, x) =>
          .republished e x.ticket tier)).setTask t (.dispatcher e .parked))
  /-- A dispatcher takes notice of room in the queues. -/
  | woken {w : World ν} {t : TaskId} {e : EpochId}
      (ht : w.tasks[t]? = some (.dispatcher e .parked)) (ho : (w.epoch e).closed = false) :
      Change w ((w.modifyEpoch e fun ep => { ep with freed := false }).setTask t
        (.dispatcher e .flushing))
  /-- A dispatcher takes a job from its intake. -/
  | tookIn {w : World ν} {t : TaskId} {e : EpochId} {x : Entry ν} {intake : Intake (Entry ν)}
      (ht : w.tasks[t]? = some (.dispatcher e .parked)) (ho : (w.epoch e).closed = false)
      (hi : (w.epoch e).intake.take? = some (x, intake)) :
      Change w ((w.takeIn e x intake).setTask t (.dispatcher e .flushing))
  /-- A dispatcher stops its loop. -/
  | shut {w : World ν} {t : TaskId} {e : EpochId} {state : DispatcherState ν}
      (ht : w.tasks[t]? = some (.dispatcher e state)) (hs : state = .flushing ∨ state = .parked)
      (hc : (w.epoch e).closed = true) : Change w (w.shutIntake t e)
  /-- A dispatcher takes a job that was under way when it stopped its loop. -/
  | collected {w : World ν} {t : TaskId} {e : EpochId} {state : DispatcherState ν} {x : Entry ν}
      {intake : Intake (Entry ν)} (ht : w.tasks[t]? = some (.dispatcher e state))
      (hs : state = .collecting ∨ state = .expecting)
      (hi : (w.epoch e).intake.take? = some (x, intake)) :
      Change w ((w.takeIn e x intake).setTask t (.dispatcher e .collecting))
  /-- A dispatcher finds no job, but the place kept for a submitter. -/
  | expecting {w : World ν} {t : TaskId} {e : EpochId}
      (ht : w.tasks[t]? = some (.dispatcher e .collecting))
      (hi : (w.epoch e).intake.slot = none) (hf : (w.epoch e).intake.isFree = false) :
      Change w (w.setTask t (.dispatcher e .expecting))
  /-- A dispatcher has taken all that was under way. -/
  | discarding {w : World ν} {t : TaskId} {e : EpochId}
      (ht : w.tasks[t]? = some (.dispatcher e .collecting))
      (hf : (w.epoch e).intake.isFree = true) :
      Change w (w.setTask t (.dispatcher e (.discarding [])))
  /-- A dispatcher abandons a job. -/
  | discarded {w : World ν} {t : TaskId} {e : EpochId} {x : Entry ν} {rest : List (Entry ν)}
      (ht : w.tasks[t]? = some (.dispatcher e (.discarding [])))
      (hb : (w.epoch e).backlog = x :: rest) :
      Change w (((w.modifyEpoch e fun ep => { ep with backlog := rest }).record
        (.abandoned e x.ticket)).setTask t
          (.dispatcher e (.discarding [.callback x.ticket x.job.abandon])))
  /-- A dispatcher is over. -/
  | dispersed {w : World ν} {t : TaskId} {e : EpochId}
      (ht : w.tasks[t]? = some (.dispatcher e (.discarding [])))
      (hb : (w.epoch e).backlog = []) :
      Change w (w.setTask t (.dispatcher e .gone))

/-- A state that a pool with these settings and this hook comes to by elementary changes. -/
inductive Evolved (settings : Settings) (hook : Option Hook) : World ν → Prop
  | opened (h : settings.Valid) : Evolved settings hook { settings, hook : World ν }.launch
  | next {w u : World ν} (h : Evolved settings hook w) (c : Change w u) : Evolved settings hook u

end World

end WorkerPool
