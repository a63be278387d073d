import WorkerPool.Proofs.Stops

/-!
# Starts and stops inside of each other

Clients, jobs and the callbacks of abandoned jobs may start and stop the pool, and the callbacks do
so in the middle of a drain that another stop has left behind. However these calls nest, starts and
stops take turns: each epoch is opened after the one before it was closed, the pool runs exactly
while the last one is open, and nobody else is offered a job.
-/

namespace WorkerPool

variable {ν : Type}

/-- The beginning or the end of an epoch. -/
inductive Milestone where
  | opened (epoch : EpochId)
  | closed (epoch : EpochId)
  deriving DecidableEq, Repr

namespace Milestone

/-- The epoch that begins or ends. -/
def epoch : Milestone → Nat
  | opened e => e
  | closed e => e

/-- The milestones of `n` epochs that are all over: each was opened and closed before the next. -/
def rounds (n : Nat) : List Milestone :=
  (List.range n).flatMap fun e => [opened e, closed e]

theorem rounds_succ (n : Nat) : rounds (n + 1) = rounds n ++ [opened n, closed n] := by
  simp [rounds, List.range_succ, List.flatMap_append]

/-- Each of these epochs was opened once and closed once. -/
theorem count_rounds (n : Nat) (m : Milestone) :
    (rounds n).count m = if m.epoch < n then 1 else 0 := by
  induction n with
  | zero => rfl
  | succ n ih =>
    have hlast : [opened n, closed n].count m = if m.epoch = n then 1 else 0 := by
      rcases m with e | e <;> obtain rfl | he := eq_or_ne e n
      · simp [epoch]
      · simp [epoch, he, he.symm]
      · simp [epoch]
      · simp [epoch, he, he.symm]
    rw [rounds_succ, List.count_append, ih, hlast]
    split_ifs <;> omega

end Milestone

/-- The milestone that an occurrence is, if it is one. -/
def Occurrence.milestone? : Occurrence ν → Option Milestone
  | opened e => some (.opened e)
  | closed e => some (.closed e)
  | _ => none

namespace Thread

/-- The next act of a thread: a deed of its innermost callback, else the act that its body has come
to. -/
def act? (th : Thread ν) : Option (Act ν) :=
  match th.layers with
  | [] => th.body.acts.head?
  | .callback _ ⟨d :: _, _⟩ :: _ => some (.deed d)
  | _ => none

/-- The thread once its next act is done and has left it nothing else to do. -/
def past (th : Thread ν) : Thread ν :=
  match th.layers with
  | [] => th.next
  | .callback k ⟨_ :: ds, ending⟩ :: rest => { th with layers := .callback k ⟨ds, ending⟩ :: rest }
  | _ => th

variable {th : Thread ν} {act : Act ν}

/-- The next act of a thread is one of its body, or a deed of a callback. -/
theorem act?_eq_some (h : th.act? = some act) :
    (th.layers = [] ∧ ∃ rest, th.body.acts = act :: rest) ∨
      ∃ k d ds ending rest, th.layers = .callback k ⟨d :: ds, ending⟩ :: rest ∧ act = .deed d := by
  unfold act? at h
  split at h
  · rename_i hl
    exact .inl ⟨hl, List.head?_eq_some_iff.1 h⟩
  · rename_i k d ds ending rest hl
    exact .inr ⟨k, d, ds, ending, rest, hl, (Option.some.inj h).symm⟩
  · cases h

/-- A thread calls a shutdown by its body, while it has nothing else to do first. -/
theorem acts_of_shutdown {timeout : Duration} {done late gone : ν}
    (h : th.act? = some (.shutdown timeout done late gone)) :
    th.layers = [] ∧ ∃ rest, th.body.acts = .shutdown timeout done late gone :: rest := by
  obtain hbody | ⟨_, _, _, _, _, _, hact⟩ := act?_eq_some h
  · exact hbody
  · cases hact

/-- A thread with an act to do is not over. -/
theorem isOver_of_act? (h : th.act? = some act) : th.isOver = false := by
  obtain ⟨hl, rest, ha⟩ | ⟨k, d, ds, ending, rest, hl, _⟩ := act?_eq_some h
  · simp [isOver, ha]
  · simp [isOver, hl]

/-- A body that has come to a deed waits for nothing. -/
theorem Fits.wait_eq_nothing (h : th.Fits) {d : Deed ν} {rest : List (Act ν)}
    (ha : th.body.acts = .deed d :: rest) : th.wait = .nothing := by
  unfold Fits at h
  rw [ha] at h
  cases hw : th.wait with
  | nothing => rfl
  | _ => simp [hw] at h

end Thread

namespace World

variable {w u v : World ν} {e : EpochId} {t i : TaskId} {k : Nat} {settings : Settings}
  {hook : Option Hook}

/-- The milestones of a pool, in order. -/
abbrev milestones (w : World ν) : List Milestone := w.picked Occurrence.milestone?

/-- What passes beside the jobs is no milestone. -/
theorem Aside.milestones (h : Aside w u) : u.milestones = w.milestones :=
  h.picked (fun _ => rfl) fun _ _ => rfl

/-- What a change does to the pool as a whole: nothing, or it closes the current epoch, or it opens
the next one. -/
inductive Turnover (w u : World ν) : Prop
  | keeps (hc : u.current = w.current) (hs : u.epochs.size = w.epochs.size)
      (hm : u.milestones = w.milestones) (hh : u.handles = 0 → w.handles = 0 ∨ w.running = false)
  | stops (e : EpochId) (hc : w.current = some e) (hu : u.current = none)
      (hs : u.epochs.size = w.epochs.size) (hm : u.milestones = w.milestones ++ [.closed e])
  | starts (hh : u.handles ≠ 0) (hc : w.current = none) (hu : u.current = some w.epochs.size)
      (hs : u.epochs.size = w.epochs.size + 1)
      (hm : u.milestones = w.milestones ++ [.opened w.epochs.size])

@[simp] theorem handles_recordAll (w : World ν) (os : List (Occurrence ν)) :
    (w.recordAll os).handles = w.handles := by
  obtain ⟨_, h⟩ := w.recordAll_eq os
  rw [h]

/-- What happens to no epoch is no milestone; the last handle is let go of a stopped pool. -/
theorem Aside.turnover (h : Aside w u) : Turnover w u := by
  refine .keeps h.current (by rw [h.epochs]) h.milestones fun hz => ?_
  obtain hn | ⟨_, hn⟩ | ⟨_, hn⟩ := h.handles
  · exact .inl (hn ▸ hz)
  · omega
  · exact .inr (hn hz)

/-- Setting a task is no milestone. -/
theorem Turnover.setTask (h : Turnover w u) (t : TaskId) (task : Task ν) :
    Turnover w (u.setTask t task) := by
  cases h with
  | keeps hc hs hm hh => exact .keeps hc hs hm hh
  | stops e hc hu hs hm => exact .stops e hc hu hs hm
  | starts hh hc hu hs hm => exact .starts hh hc hu hs hm

/-- Code closes an epoch by a stop and opens one by a start, and in no other way. -/
theorem Shift.turnover {a : Option Nat} {th th' : Thread ν} {w' : World ν}
    (h : Shift t a th w th' w') (hw : w.Sound) : Turnover w w' := by
  cases h with
  | halted _ hc => exact .stops _ hc rfl (by simp) (by simp [Occurrence.milestone?])
  | launched hr hh =>
    have hc : w.current = none := by simpa [hr] using hw.running_eq
    exact .starts (by simpa [launch_eq] using hh) hc (by simp) (by simp)
      (by simp [Occurrence.milestone?])
  | aside h => exact h.turnover
  | _ =>
    refine .keeps (by simp [hire, handOver, giveUp]) (by simp [hire, handOver, giveUp])
      (by simp [hire, handOver, giveUp, Occurrence.milestone?]) fun hz => .inl ?_
    first | exact hz | simpa using hz

/-- Epochs begin and end by code alone. -/
theorem Change.turnover (c : Change w u) (hw : w.Sound) : Turnover w u := by
  cases c with
  | aside h => exact h.turnover
  | code _ _ h => exact (h.turnover hw).setTask _ _
  | finished _ _ hos =>
    refine .keeps (by simp) (by simp) ?_ fun hz => .inl (by simpa [World.setTask] using hz)
    obtain ⟨_, rfl⟩ | ⟨p, _, rfl⟩ := hos <;> simp [Occurrence.milestone?]
  | _ =>
    refine .keeps (by simp [World.assign, takeIn, shutIntake])
      (by simp [World.assign, takeIn, shutIntake])
      (by simp [World.assign, takeIn, shutIntake, Occurrence.milestone?]) fun hz => .inl ?_
    first | exact hz | simpa [World.setTask, World.assign, World.modifyEpoch] using hz

/-- Starts and stops take turns: every epoch was opened when the one before it had been closed, and
all were closed but the last one while it is current. -/
def Alternates (w : World ν) : Prop :=
  match w.current with
  | none => w.milestones = Milestone.rounds w.epochs.size
  | some e => w.epochs.size = e + 1 ∧ w.milestones = Milestone.rounds e ++ [.opened e]

/-- Every change lets starts and stops take turns. -/
theorem Change.alternates (c : Change w u) (hw : w.Sound) (h : w.Alternates) : u.Alternates := by
  unfold Alternates at h ⊢
  cases c.turnover hw with
  | keeps hc hs hm => rwa [hc, hs, hm]
  | stops e hc hu hs hm =>
    rw [hc] at h
    rw [hu, hs, hm, h.1, h.2, Milestone.rounds_succ, List.append_assoc]
    rfl
  | starts _ hc hu hs hm =>
    rw [hc] at h
    rw [hu, hs, hm, h]
    exact ⟨rfl, rfl⟩

/-- Starts and stops take turns, however they nest. -/
theorem Evolved.alternates (h : Evolved settings hook w) : w.Alternates := by
  induction h with
  | opened =>
    rw [Alternates, current_launch, milestones, picked_launch, size_epochs_launch]
    exact ⟨rfl, rfl⟩
  | next h c ih => exact c.alternates h.sound ih

/-- A pool that nobody holds is stopped. -/
theorem Evolved.stopped_of_released (h : Evolved settings hook w) (hz : w.handles = 0) :
    w.running = false := by
  induction h with
  | opened => simp [launch_eq] at hz
  | @next w u h c ih =>
    have hw := h.sound
    have hu := (h.next c).sound
    cases c.turnover hw with
    | keeps hc _ _ hh =>
      have hr := (hh hz).elim ih id
      rw [hu.running_eq, hc, ← hw.running_eq, hr]
    | stops _ _ hc => rw [hu.running_eq, hc]; rfl
    | starts hh => exact absurd hz hh

/-- Every epoch was opened once. -/
theorem Alternates.count_opened (h : w.Alternates) (e : Nat) :
    w.milestones.count (.opened e) = if e < w.epochs.size then 1 else 0 := by
  have rounds : ∀ n, (Milestone.rounds n).count (.opened e) = if e < n then 1 else 0 :=
    fun n => Milestone.count_rounds n (.opened e)
  unfold Alternates at h
  cases hc : w.current with
  | none =>
    rw [hc] at h
    rw [h, rounds]
  | some i =>
    rw [hc] at h
    obtain ⟨hs, hm⟩ := h
    rw [hm, List.count_append, rounds, hs]
    by_cases he : e = i
    · subst he
      simp
    · have hlt : e < i + 1 ↔ e < i := by omega
      simp [hlt, Ne.symm he]

/-- Every epoch but the current one was closed once. -/
theorem Alternates.count_closed (h : w.Alternates) (e : Nat) :
    w.milestones.count (.closed e) =
      if e < w.epochs.size ∧ w.current ≠ some e then 1 else 0 := by
  have rounds : ∀ n, (Milestone.rounds n).count (.closed e) = if e < n then 1 else 0 :=
    fun n => Milestone.count_rounds n (.closed e)
  unfold Alternates at h
  cases hc : w.current with
  | none =>
    rw [hc] at h
    rw [h, rounds]
    simp
  | some i =>
    rw [hc] at h
    obtain ⟨hs, hm⟩ := h
    rw [hm, List.count_append, rounds, hs]
    by_cases he : e = i
    · subst he
      simp
    · have hlt : e < i + 1 ↔ e < i := by omega
      simp [hlt, Ne.symm he]

section Idle

variable {task : Task ν} {th : Thread ν}

/-- A start of a running pool does nothing. -/
theorem perform_start_of_running (hr : w.running = true) (b : Option Nat) :
    w.perform b .start = ([], w) := by
  simp [perform, start, hr]

/-- A start of a stopped pool that somebody holds opens an epoch. -/
theorem perform_start_of_stopped (hr : w.running = false) (hh : w.handles ≠ 0) (b : Option Nat) :
    w.perform b .start = ([], w.launch) := by
  simp [perform, start, hr, hh]

/-- A stop of a stopped pool does nothing. -/
theorem perform_stop_of_stopped (hr : w.running = false) (b : Option Nat) :
    w.perform b .stop = ([], w) := by
  simp [perform, halt_of_stopped hr]

/-- A handle that was taken is let go again while there are others. -/
theorem letGo_of_held (w : World ν) (hh : w.handles ≠ 0) :
    ({ w with handles := w.handles + 1 } : World ν).letGo = ([], w) := by
  obtain ⟨n, hn⟩ := Nat.exists_eq_succ_of_ne_zero hh
  simp only [letGo, hn, Nat.succ_eq_add_one]
  rw [← Nat.succ_eq_add_one, ← hn]

/-- An answer that is given while there are other handles is reported, and nothing else happens. -/
theorem conclude_of_held (w : World ν) (hh : w.handles ≠ 0) (a : Option Nat) (hl : th.layers = [])
    (answer : ν) : ({ w with handles := w.handles + 1 } : World ν).conclude a th answer =
      (th.next, w.record (.note a answer)) := by
  have hgo : (({ w with handles := w.handles + 1 } : World ν).record (.note a answer)).letGo =
      ([], w.record (.note a answer)) := letGo_of_held (w.record (.note a answer)) hh
  rw [conclude, hgo]
  simp only [Thread.next, hl]

/-- A deed that leaves nothing else to do is left behind. -/
theorem stepThread_of_deed {d : Deed ν} (h : th.act? = some (.deed d))
    (hd : ∀ b, w.perform b d = ([], u)) (a : Option Nat) :
    w.stepThread t a th = (th.past, u) := by
  obtain ⟨hl, rest, ha⟩ | ⟨k, d', ds, ending, rest, hl, hact⟩ := Thread.act?_eq_some h
  · have hnext : { th.next with layers := [] } = th.next := by rw [← hl]; rfl
    simp only [stepThread, hl, ha, stepAct, hd, Thread.past, hnext]
  · obtain rfl := Act.deed.inj hact
    simp only [stepThread, hl, stepLayers, hd, Thread.past, List.nil_append]

/-- A task takes the step of a deed that leaves nothing else to do. -/
theorem step_of_deed (hw : w.Sound) (ht : w.tasks[t]? = some task) (hth : task.thread? = some th)
    {d : Deed ν} (h : th.act? = some (.deed d)) (hd : ∀ b, w.perform b d = ([], u)) :
    w.step t = u.setTask t (task.withThread th.past) := by
  have hready : w.threadReady t th = true := by
    obtain ⟨hl, rest, ha⟩ | ⟨k, d', ds, ending, rest, hl, _⟩ := Thread.act?_eq_some h
    · have hwait := ((hw.tasks t task ht).thread th hth).fits.wait_eq_nothing ha
      simp [threadReady, bodyReady, hwait, ha]
    · simp [threadReady, hl]
  rw [(step_of_thread ht hth hready (Thread.isOver_of_act? h)).2, stepThread_of_deed h hd]

/-- A shutdown of a stopped pool is answered at once. -/
theorem step_of_shutdown (ht : w.tasks[t]? = some task) (hth : task.thread? = some th)
    {timeout : Duration} {done late gone : ν}
    (h : th.act? = some (.shutdown timeout done late gone)) (hwait : th.wait = .nothing)
    (hr : w.running = false) (hh : w.handles ≠ 0) :
    w.step t = (w.record (.note task.author? done)).setTask t (task.withThread th.past) := by
  obtain ⟨hl, rest, ha⟩ := Thread.acts_of_shutdown h
  have hready : w.threadReady t th = true := by simp [threadReady, bodyReady, hwait, ha]
  have hretire : ({ w with handles := w.handles + 1 } : World ν).retire =
      (none, { w with handles := w.handles + 1 }) := retire_of_stopped hr
  have hstep : w.stepThread t task.author? th =
      (th.past, w.record (.note task.author? done)) := by
    simp only [stepThread, hl, ha, stepAct, hwait]
    rw [if_neg hh, hretire]
    simp only [conclude_of_held w hh task.author? hl, Thread.past, hl]
  rw [(step_of_thread ht hth hready (Thread.isOver_of_act? h)).2, hstep]

end Idle

section Offers

variable (w) (a : Option Nat) (th : Thread ν)

@[simp] theorem size_retire : w.retire.2.epochs.size = w.epochs.size := by
  unfold retire
  split <;> rfl

/-- A stop opens no epoch. -/
@[simp] theorem size_halt : w.halt.2.epochs.size = w.epochs.size := by
  have hs := w.size_retire
  unfold halt
  rcases hr : w.retire with ⟨_ | i, u⟩
  · rw [hr] at hs
    exact hs
  · rw [hr] at hs
    exact (size_close u i).trans hs

@[simp] theorem size_letGo : w.letGo.2.epochs.size = w.epochs.size := by
  unfold letGo
  split
  · rfl
  · exact size_halt _
  · rfl

@[simp] theorem size_conclude (answer : ν) :
    (w.conclude a th answer).2.epochs.size = w.epochs.size := size_letGo _

@[simp] theorem size_submit (x : Entry ν) : (w.submit t x).2.epochs.size = w.epochs.size := by
  unfold submit
  split
  · rfl
  · split
    · simp
    · rfl
    · split
      · simp [hire]
      · split_ifs <;> simp [hire, handOver]

@[simp] theorem size_submitGranted (x : Entry ν) :
    (w.submitGranted t e x).2.epochs.size = w.epochs.size := by
  unfold submitGranted
  split <;> simp [giveUp, handOver]

@[simp] theorem size_awaitExits (deadline : Nat) (timeout : Duration) (done late : ν) :
    (w.awaitExits a th e deadline timeout done late).2.epochs.size = w.epochs.size := by
  unfold awaitExits
  split_ifs
  · exact size_conclude _ _ _ _
  · exact size_conclude _ _ _ _
  · rfl

/-- A deed opens no epoch unless it starts the pool, and then it does nothing else. -/
theorem size_perform (d : Deed ν) : (w.perform a d).2.epochs.size = w.epochs.size ∨
    (w.perform a d).2 = w.launch := by
  cases d with
  | start =>
    simp only [perform, start]
    split_ifs
    · exact .inl rfl
    · exact .inl rfl
    · exact .inr rfl
  | stop =>
    left
    simp only [perform]
    split_ifs
    · rfl
    · exact size_halt w
  | hold =>
    left
    simp only [perform]
    split_ifs <;> rfl
  | drop => exact .inl (size_letGo w)
  | _ => exact .inl rfl

/-- An act opens no epoch unless it starts the pool, and then it does nothing else. -/
theorem size_stepAct (act : Act ν) :
    (w.stepAct t a th act).2.epochs.size = w.epochs.size ∨
      (w.stepAct t a th act).2 = w.launch ∧ (w.stepAct t a th act).1.wait = .nothing := by
  cases act with
  | deed d => exact (w.size_perform a d).imp id fun h => ⟨h, rfl⟩
  | pass gate => exact .inl rfl
  | sleep time =>
    left
    simp only [stepAct]
    split <;> rfl
  | submit run abandon accepted refused gone =>
    left
    simp only [stepAct]
    split
    · rename_i i k _
      have hs := size_submitGranted (t := t) (e := i) w ⟨k, ⟨run, abandon⟩⟩
      rcases hr : w.submitGranted t i ⟨k, ⟨run, abandon⟩⟩ with ⟨answer, u⟩
      rw [hr] at hs
      cases answer <;> exact (size_conclude u a th _).trans hs
    · split
      · rfl
      · have hs := size_submit (t := t)
          (({ w with handles := w.handles + 1 } : World ν).draw ⟨run, abandon⟩)
          ⟨w.nextTicket, ⟨run, abandon⟩⟩
        rcases hr : (({ w with handles := w.handles + 1 } : World ν).draw ⟨run, abandon⟩).submit t
          ⟨w.nextTicket, ⟨run, abandon⟩⟩ with ⟨answer, u⟩
        rw [hr] at hs
        have drawn : (({ w with nextTicket := w.nextTicket + 1, handles := w.handles + 1 } :
          World ν).record (.submitted w.nextTicket ⟨run, abandon⟩)).submit t
            ⟨w.nextTicket, ⟨run, abandon⟩⟩ = (answer, u) := hr
        simp only [drawn]
        cases answer with
        | waits => exact hs
        | _ => exact (size_conclude u a th _).trans hs
  | shutdown timeout done late gone =>
    left
    simp only [stepAct]
    split
    · exact size_awaitExits _ _ _ _ _ _ _
    · exact size_awaitExits _ _ _ _ _ _ _
    · split
      · rfl
      · have hs := ({ w with handles := w.handles + 1 } : World ν).size_retire
        rcases hr : ({ w with handles := w.handles + 1 } : World ν).retire with ⟨_ | i, u⟩
        · rw [hr] at hs
          exact (size_conclude u a th _).trans hs
        · rw [hr] at hs
          exact (size_close u i).trans hs

/-- A callback opens no epoch unless it starts the pool, and then it does nothing else. -/
theorem size_stepLayers (layers : List (Layer ν)) :
    (w.stepLayers layers).2.epochs.size = w.epochs.size ∨ (w.stepLayers layers).2 = w.launch := by
  rcases layers with _ | ⟨_ | ⟨k, _ | ⟨d, ds⟩, ending⟩, rest⟩
  · exact .inl rfl
  · rename_i i n
    left
    simp only [stepLayers]
    cases (w.epoch i).drain? with
    | some taken => simp
    | none => simp only; split <;> rfl
  · cases ending <;> exact .inl rfl
  · exact w.size_perform (some k) d

/-- Code opens no epoch unless it starts the pool, and then it does nothing else. -/
theorem size_stepThread : (w.stepThread t a th).2.epochs.size = w.epochs.size ∨
    (w.stepThread t a th).2 = w.launch ∧ ((w.stepThread t a th).1.wait = .nothing ∨
      (w.stepThread t a th).1.wait = th.wait) := by
  unfold stepThread
  split
  · split
    · exact .inl rfl
    · exact (w.size_stepAct a th _).imp id fun h => ⟨h.1, .inl h.2⟩
  · exact (w.size_stepLayers th.layers).imp id fun h => ⟨h, .inr rfl⟩

/-- Whoever breaks off a call opens no epoch. -/
theorem size_withdraw (t : TaskId) : (w.withdraw t).epochs.size = w.epochs.size := by
  unfold withdraw
  split
  · rename_i body wait _
    cases wait with
    | inLine i k => exact (size_letGo (w.giveUp t i k)).trans (size_modifyEpoch _ _ _)
    | closing i => exact size_letGo w
    | exits i deadline => exact size_letGo w
    | _ => rfl
  · rfl

variable {w}

/-- A move that opens an epoch starts the pool and does nothing else: no job is accepted by it, and
nobody joins a line. -/
theorem Move.opens (m : Move w u) (hw : w.Sound) : u.epochs.size = w.epochs.size ∨
    u.books = w.books ∧ ∀ i e k, u.line? i = some (e, k) → w.line? i = some (e, k) := by
  cases m with
  | step t =>
    obtain still | ⟨_, _, _, _, own⟩ | ⟨task, th, ht, hth, hr, hstep⟩ := w.step_own t
    · exact .inl (by rw [still])
    · exact .inl own.size
    · rw [hstep]
      refine (size_stepThread w task.author? th).imp id fun ⟨hlaunch, hwait⟩ => ?_
      have shifts := shifts_stepThread (a := task.author?) hw
        ((hw.tasks t task ht).thread th hth) hr
      have hlt : t < w.launch.tasks.size :=
        Nat.lt_of_lt_of_le (Array.getElem?_eq_some_iff.1 ht).1 (Grows.launch w).tasks
      rw [hlaunch]
      refine ⟨by simp, fun i e k hi => ?_⟩
      by_cases hit : i = t
      · subst hit
        have hline : w.line? i = th.wait.line? := by simp [line?, ht, Task.line?, hth]
        rw [line?_setTask_self _ _ _ hlt, Task.line?, shifts.thread?_withThread hth] at hi
        obtain hwait | hwait := hwait
        · simp [hwait, Wait.line?] at hi
        · rw [hline, ← hwait]
          exact hi
      · rwa [line?_setTask_of_ne _ _ _ hit, line?_launch] at hi
  | withdraw t => exact .inl (size_withdraw w t)
  | _ => exact .inl rfl

/-- Code offers jobs to the current epoch only. -/
theorem Shift.accepted_mem {a : Option Nat} {th th' : Thread ν} {w' : World ν}
    (h : Shift t a th w th' w') (hw : w.Sound) (hth : th.Sound w) (ha : w'.AcceptedBy e k) :
    w.AcceptedBy e k ∨ w.current = some e := by
  unfold AcceptedBy at ha ⊢
  cases h with
  | aside h => exact .inl (h.books ▸ ha)
  | queued _ _ _ _ hc =>
    simp only [books_record, books_modifyEpoch, books_draw, Occurrence.booking?, Option.toList_some,
      List.mem_append, List.mem_singleton, reduceCtorEq, or_false, Booking.accepted.injEq] at ha
    obtain ha | ⟨rfl, _⟩ := ha
    · exact .inl ha
    · exact .inr hc
  | hired _ _ _ _ hc =>
    simp only [hire, books_spawn, books_record, books_modifyEpoch, books_draw, Occurrence.booking?,
      Option.toList_some, List.mem_append, List.mem_singleton, reduceCtorEq, or_false,
      Booking.accepted.injEq] at ha
    obtain ha | ⟨rfl, _⟩ := ha
    · exact .inl ha
    · exact .inr hc
  | handedOver _ _ _ _ hc =>
    simp only [handOver, books_record, books_modifyEpoch, books_draw, Occurrence.booking?,
      Option.toList_some, List.mem_append, List.mem_singleton, reduceCtorEq, or_false,
      Booking.accepted.injEq] at ha
    obtain ha | ⟨rfl, _⟩ := ha
    · exact .inl ha
    · exact .inr hc
  | granted _ _ _ hwait hc =>
    simp only [handOver, books_record, books_modifyEpoch, Occurrence.booking?, Option.toList_some,
      List.mem_append, List.mem_singleton, Booking.accepted.injEq] at ha
    obtain ha | ⟨rfl, _⟩ := ha
    · exact .inl ha
    · exact .inr (hw.open_current _ (hth.line_lt _ _ (by rw [hwait]; rfl)) hc)
  | _ => exact .inl (by simpa [giveUp, Occurrence.booking?] using ha)

/-- Jobs are offered to the current epoch only. -/
theorem Change.accepted_mem (c : Change w u) (hw : w.Sound) (ha : u.AcceptedBy e k) :
    w.AcceptedBy e k ∨ w.current = some e := by
  cases c with
  | aside h => exact .inl (by rwa [AcceptedBy, h.books] at ha)
  | code ht hth h => exact h.accepted_mem hw ((hw.tasks _ _ ht).thread _ hth) ha
  | finished _ _ hos =>
    left
    unfold AcceptedBy at ha ⊢
    obtain ⟨_, rfl⟩ | ⟨p, _, rfl⟩ := hos <;>
      simpa [Occurrence.booking?, List.filterMap_cons] using ha
  | flushed =>
    left
    unfold AcceptedBy at ha ⊢
    simpa [List.filterMap_map, Function.comp_def, Occurrence.booking?] using ha
  | _ =>
    left
    unfold AcceptedBy at ha ⊢
    simpa [World.assign, takeIn, shutIntake, Occurrence.booking?, List.filterMap_cons] using ha

/-- Only an epoch that was opened accepts jobs. -/
theorem Evolved.lt_of_acceptedBy (hw : Evolved settings hook w) (ha : w.AcceptedBy e k) :
    e < w.epochs.size := by
  induction hw with
  | opened =>
    rw [AcceptedBy, books_launch] at ha
    cases ha
  | next hv c ih =>
    obtain ha | hc := c.accepted_mem hv.sound ha
    · exact (ih ha).trans_le c.grows.epochs
    · exact (hv.sound.current_lt e hc).trans_le c.grows.epochs

/-- A task that is set anew stands where its code waits, and the others where they stood. -/
theorem line?_setTask_cases {task : Task ν} {p : EpochId × Nat}
    (h : (w.setTask t task).line? i = some p) : i = t ∧ task.line? = some p ∨
      w.line? i = some p := by
  by_cases hi : i = t
  · subst hi
    unfold line? at h
    obtain ⟨other, ho, hp⟩ := Option.bind_eq_some_iff.1 h
    obtain ⟨_, rfl⟩ | ⟨hne, _⟩ := getElem?_setTask_cases ho
    · exact .inl ⟨rfl, hp⟩
    · exact absurd rfl hne
  · exact .inr (by rwa [line?_setTask_of_ne _ _ _ hi] at h)

/-- Submitters join the line of the current epoch only. -/
theorem Change.line_mem (c : Change w u) (hl : u.line? i = some (e, k)) :
    w.line? i = some (e, k) ∨ w.current = some e := by
  cases c with
  | aside h => exact .inl (by rwa [line?, h.tasks, ← line?] at hl)
  | posted code => exact .inl (by rwa [line?_spawn w rfl] at hl)
  | @code w' t task th th' ht hth h =>
    by_cases hi : i = t
    · subst hi
      have hline : w.line? i = th.wait.line? := by simp [line?, ht, Task.line?, hth]
      rw [h.line?_self ht hth] at hl
      rw [hline]
      cases h with
      | joined _ _ _ _ hc =>
        simp only [Wait.line?, Option.some.injEq, Prod.mk.injEq] at hl
        exact .inr (hl.1 ▸ hc)
      | halted _ _ hwait =>
        obtain rfl | ⟨rfl, _⟩ := hwait
        · exact .inl hl
        · cases hl
      | _ => first | exact .inl hl | cases hl
    · exact .inl (by rwa [h.line?_of_ne hi] at hl)
  | finished _ _ _ hs =>
    left
    obtain ⟨_, htask⟩ | h := line?_setTask_cases hl
    · obtain ⟨rfl, _⟩ | ⟨_, rfl, _⟩ | ⟨rfl, _⟩ := hs <;> simp [Task.line?, Task.thread?] at htask
    · simpa using h
  | _ =>
    left
    obtain ⟨_, htask⟩ | h := line?_setTask_cases hl
    · simp [Task.line?, Task.thread?, Wait.line?] at htask
    · simpa [World.assign, takeIn, shutIntake] using h

/-- While no epoch is opened, the one that is current later is current already. -/
theorem Changes.current_of_current (h : Changes w v) (hw : Evolved settings hook w)
    (hs : v.epochs.size = w.epochs.size) (hc : v.current = some e) : w.current = some e := by
  have hv := (hw.changes h).sound
  have hlt : e < w.epochs.size := hs ▸ hv.current_lt e hc
  refine hw.sound.open_current e hlt (Bool.eq_false_iff.2 fun hclosed => ?_)
  have hclosed' := (Changes.grows h).closed e hlt hclosed
  exact absurd ((hv.current_open e hc).symm.trans hclosed') (by decide)

/-- What a change brings about only for the current epoch, changes that open no epoch bring about
only for the one that is current before them. -/
theorem Changes.offered {P : World ν → Prop} (h : Changes w v) (hw : Evolved settings hook w)
    (one : ∀ {x y : World ν}, Change x y → x.Sound → P y → P x ∨ x.current = some e)
    (hs : v.epochs.size = w.epochs.size) (hp : P v) : P w ∨ w.current = some e := by
  induction h with
  | refl => exact .inl hp
  | @tail x v before c ih =>
    have hx : x.epochs.size = w.epochs.size :=
      Nat.le_antisymm (hs ▸ c.grows.epochs) (Changes.grows before).epochs
    obtain hp | hc := one c (hw.changes before).sound hp
    · exact ih hx hp
    · exact .inr (Changes.current_of_current before hw hx hc)

/-- A move lets a job be accepted by the current epoch only. -/
theorem Move.accepted_mem (m : Move w u) (hw : Evolved settings hook w) (ha : u.AcceptedBy e k) :
    w.AcceptedBy e k ∨ w.current = some e := by
  obtain hs | ⟨hbooks, _⟩ := m.opens hw.sound
  · exact (m.changes hw.sound).offered (P := fun w => w.AcceptedBy e k) hw
      (fun c hx => c.accepted_mem hx) hs ha
  · exact .inl (by rwa [AcceptedBy, hbooks] at ha)

/-- A move lets a submitter join the line of the current epoch only. -/
theorem Move.line_mem (m : Move w u) (hw : Evolved settings hook w)
    (hl : u.line? i = some (e, k)) : w.line? i = some (e, k) ∨ w.current = some e := by
  obtain hs | ⟨_, hline⟩ := m.opens hw.sound
  · exact (m.changes hw.sound).offered (P := fun w => w.line? i = some (e, k)) hw
      (fun c _ => c.line_mem) hs hl
  · exact .inl (hline i e k hl)

end Offers

/-- What holds of a pool at every moment, also in the middle of a drain whose callbacks start and
stop it. -/
structure Lifecycle (w : World ν) : Prop where
  /-- The pool runs exactly while an epoch is current. -/
  running : w.running = true ↔ ∃ e, w.current = some e
  /-- The current epoch is the only one that is open. -/
  isOpen : ∀ e, e < w.epochs.size ∧ (w.epoch e).closed = false ↔ w.current = some e
  /-- Every epoch was opened once. -/
  opened : ∀ e, w.milestones.count (.opened e) = if e < w.epochs.size then 1 else 0
  /-- Every epoch but the current one was closed once, and the current one was not. -/
  closed : ∀ e, w.milestones.count (.closed e) =
    if e < w.epochs.size ∧ w.current ≠ some e then 1 else 0
  /-- An epoch was opened only when the one before it had been closed. -/
  alternates : w.Alternates
  /-- A pool that nobody holds is stopped. -/
  released : w.handles = 0 → w.running = false
  /-- What is drained is not current. -/
  drains : ∀ (t : TaskId) (th : Thread ν) (e : EpochId) (n : Nat), w.thread? t = some th →
    .drain e n ∈ th.layers → w.current ≠ some e
  /-- A start of a running pool and a stop of a stopped one do nothing, wherever they are made. -/
  idle : ∀ (t : TaskId) (task : Task ν) (th : Thread ν), w.tasks[t]? = some task →
    task.thread? = some th → (th.act? = some (.deed .start) ∧ w.running = true ∨
      th.act? = some (.deed .stop) ∧ w.running = false) →
        w.step t = w.setTask t (task.withThread th.past)
  /-- A shutdown of a stopped pool is answered at once and does nothing else. -/
  shutdown : ∀ (t : TaskId) (task : Task ν) (th : Thread ν) (timeout : Duration)
    (done late gone : ν), w.tasks[t]? = some task → task.thread? = some th →
      th.act? = some (.shutdown timeout done late gone) → th.wait = .nothing →
        w.running = false → w.handles ≠ 0 →
          w.step t = (w.record (.note task.author? done)).setTask t (task.withThread th.past)
  /-- Whatever happens next, no job is accepted but by the current epoch, and nobody joins another
  line than that of the current epoch. -/
  offers : ∀ (u : World ν) (e : EpochId) (k : Nat), Move w u →
    (u.AcceptedBy e k → w.AcceptedBy e k ∨ w.current = some e) ∧
      ∀ i, u.line? i = some (e, k) → w.line? i = some (e, k) ∨ w.current = some e

/-- Whatever starts, stops, shutdowns and drops are made by whom, and however they nest: a pool runs
exactly while an epoch is current, this is the only one that is open, all others were closed once,
calls that come too late do nothing, and jobs are offered to the current epoch only. -/
theorem lifecycle_of_reachable (h : Reachable settings hook w) : w.Lifecycle := by
  have hw := h.evolved
  have sound := hw.sound
  have alternates := hw.alternates
  refine ⟨?_, fun e => ⟨fun h => sound.open_current e h.1 h.2,
    fun hc => ⟨sound.current_lt e hc, sound.current_open e hc⟩⟩, alternates.count_opened,
    alternates.count_closed, alternates, hw.stopped_of_released, ?_, ?_,
    fun t task th _ _ _ _ ht hth => step_of_shutdown ht hth,
    fun u e k m => ⟨m.accepted_mem hw, fun i => m.line_mem hw⟩⟩
  · rw [sound.running_eq]
    exact Option.isSome_iff_exists
  · intro t th e n ht hd hc
    obtain ⟨task, htask, hth⟩ := thread?_eq_some.1 ht
    have hclosed := (((sound.tasks t task htask).thread th hth).drains e n hd).2
    exact absurd ((sound.current_open e hc).symm.trans hclosed) (by decide)
  · rintro t task th ht hth (⟨hact, hr⟩ | ⟨hact, hr⟩)
    · exact step_of_deed sound ht hth hact (perform_start_of_running hr)
    · exact step_of_deed sound ht hth hact (perform_stop_of_stopped hr)

/-- A pool in the middle of two drains: a client stopped it, and the callback of the first job that
was abandoned then has started it and stopped it again. -/
def nested : World Nat := (List.replicate 3 1).foldl step (crammed.step 1)

/-- In the middle of these drains the two epochs were opened and closed in turn. -/
theorem lifecycle_of_reachable_nested :
    Reachable narrow (some hostile) nested ∧ nested.running = false ∧
      (nested.thread? 1).map (·.layers.length) = some 3 ∧
      nested.milestones = [.opened 0, .closed 0, .opened 1, .closed 1] ∧ nested.Lifecycle := by
  have reachable : Reachable narrow (some hostile) nested :=
    (((Reachable.launch _ narrow_valid).call _ [1, 1, 1]).move (.step _ 1)).run (run_steps _ _)
  exact ⟨reachable, by decide, by decide, by decide, lifecycle_of_reachable reachable⟩

end World

end WorkerPool
