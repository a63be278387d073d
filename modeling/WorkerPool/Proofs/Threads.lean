import WorkerPool.Proofs.Soundness

/-!
# Threads move by elementary shifts

Whatever the code of a task does in one step is a sequence of shifts: its deeds, its answers, its
submissions and shutdowns, and what its drains and callbacks do. Such a sequence is one of changes
of the world, since a shift does not look at the place of its own task.
-/

namespace WorkerPool.World

variable {ν : Type}

/-- Shifts of one thread, one after the other. -/
inductive Shifts (t : TaskId) (a : Option Nat) :
    Thread ν → World ν → Thread ν → World ν → Prop
  | refl (th : Thread ν) (w : World ν) : Shifts t a th w th w
  | head {th th' th'' : Thread ν} {w w' w'' : World ν} (h : Shift t a th w th' w')
      (rest : Shifts t a th' w' th'' w'') : Shifts t a th w th'' w''

/-- Changes of a world, one after the other. -/
abbrev Changes : World ν → World ν → Prop := Relation.ReflTransGen Change

section Commute

variable (w : World ν) (t : TaskId) (task : Task ν)

/-- A task that is set is not touched by what is recorded. -/
theorem recordAll_setTask (os : List (Occurrence ν)) :
    (w.setTask t task).recordAll os = (w.recordAll os).setTask t task := by
  induction os generalizing w with
  | nil => rfl
  | cons o os ih => exact ih (w.record o)

/-- Tasks are added behind the one that is set. -/
theorem spawn_setTask (h : t < w.tasks.size) (other : Task ν) :
    (w.setTask t task).spawn other = (w.spawn other).setTask t task := by
  simp only [spawn, setTask, Array.push_eq_append, Array.setIfInBounds_append_left h]

/-- The crew of a new epoch is added behind the task that is set. -/
theorem launch_setTask (h : t < w.tasks.size) :
    (w.setTask t task).launch = w.launch.setTask t task := by
  simp [launch_eq, setTask, h]

/-- A worker is hired behind the task that is set. -/
theorem hire_setTask (h : t < w.tasks.size) (e : EpochId) (x : Entry ν) :
    (w.setTask t task).hire e x = (w.hire e x).setTask t task := by
  simp only [hire, tasks_modifyEpoch, size_setTask]
  exact spawn_setTask ((w.modifyEpoch e fun ep => { ep with temps := ep.temps + 1 }).record _) t
    task h _

end Commute

theorem Aside.setTask {w u : World ν} (h : Aside w u) (t : TaskId) (task : Task ν) :
    Aside (w.setTask t task) (u.setTask t task) :=
  { h with
    tasks := by rw [World.setTask, h.tasks, World.setTask] }

/-- A change by the code of a task does not look at the place of the task in the world. -/
theorem Shift.setTask {t : TaskId} {a : Option Nat} {th th' : Thread ν} {w w' : World ν}
    (h : Shift t a th w th' w') (ht : t < w.tasks.size) (task : Task ν) :
    Shift t a th (w.setTask t task) th' (w'.setTask t task) := by
  cases h with
  | deed hl ha hw =>
    rw [← recordAll_setTask]
    exact .deed hl ha hw
  | callbackDeed hl =>
    rw [← recordAll_setTask]
    exact .callbackDeed hl
  | paused hl ha hp hw => exact .paused hl ha hp hw
  | asleep deadline ha hw => exact .asleep deadline ha hw
  | awaiting deadline hw => exact .awaiting deadline hw
  | answered hl ha hn hw => exact .answered hl ha hn hw
  | returned hl => exact .returned hl
  | abandoned hl hd => exact .abandoned hl hd
  | drained hl hd => exact .drained hl hd
  | halted hr hc hw => exact .halted hr hc hw
  | launched hr hh =>
    rw [← launch_setTask w t task ht]
    exact .launched hr hh
  | aside h => exact .aside (h.setTask t task)
  | queued job hl ha hw hc ho => exact .queued job hl ha hw hc ho
  | hired job hl ha hw hc ho hb =>
    rw [← hire_setTask (w.draw job) t task ht]
    exact .hired job hl ha hw hc ho hb
  | handedOver job hl ha hw hc ho hb hi hf => exact .handedOver job hl ha hw hc ho hb hi hf
  | refused job hl ha hw ho => exact .refused job hl ha hw ho
  | joined job hl ha hw hc ho hb hi hf => exact .joined job hl ha hw hc ho hb hi hf
  | granted job hl ha hw hc hs hg => exact .granted job hl ha hw hc hs hg
  | gaveUp hl hw => exact .gaveUp hl hw

/-- Code that belongs to no body stays so: it only works off its layers. -/
theorem Shift.keeps_body {t : TaskId} {a : Option Nat} {th th' : Thread ν} {w w' : World ν}
    (h : Shift t a th w th' w') (hb : th.body.acts = []) (hn : th.wait = .nothing) :
    th'.body = th.body ∧ th'.wait = .nothing := by
  cases h with
  | halted _ _ hw =>
    refine ⟨rfl, ?_⟩
    obtain rfl | ⟨_, _, _, _, _, _, _, ha⟩ := hw
    · exact hn
    · simp [hb] at ha
  | awaiting _ hw => simp [hn] at hw
  | granted _ _ _ hw => simp [hn] at hw
  | gaveUp _ hw => simp [hn] at hw
  | _ => simp_all

/-- A task runs the code that was put into it. -/
theorem Shift.thread?_withThread {t : TaskId} {a : Option Nat} {th th' : Thread ν}
    {w w' : World ν} (h : Shift t a th w th' w') {task : Task ν} (ht : task.thread? = some th) :
    (task.withThread th').thread? = some th' := by
  obtain ⟨_, _, _, _, rfl⟩ | ⟨_, _, rfl, rfl⟩ | rfl := Task.thread?_eq_some ht
  · rfl
  · obtain ⟨hb, hw⟩ := h.keeps_body rfl rfl
    cases th'
    simp_all [Task.thread?, Task.withThread]
  · rfl

@[simp] theorem author?_withThread (th : Thread ν) (task : Task ν) :
    (task.withThread th).author? = task.author? := by
  rcases task with ⟨home, kind, _ | _ | _ | _ | _ | _⟩ | ⟨home, _ | _ | _ | _ | _ | _⟩ | _ <;> rfl

@[simp] theorem withThread_withThread (th th' : Thread ν) (task : Task ν) :
    (task.withThread th).withThread th' = task.withThread th' := by
  rcases task with ⟨home, kind, _ | _ | _ | _ | _ | _⟩ | ⟨home, _ | _ | _ | _ | _ | _⟩ | _ <;> rfl

theorem withThread_self {th : Thread ν} {task : Task ν} (h : task.thread? = some th) :
    task.withThread th = task := by
  obtain ⟨_, _, _, _, rfl⟩ | ⟨_, _, rfl, rfl⟩ | rfl := Task.thread?_eq_some h <;> rfl

namespace Shifts

variable {t : TaskId} {a : Option Nat} {th th' th'' : Thread ν} {w w' w'' : World ν}

theorem single (h : Shift t a th w th' w') : Shifts t a th w th' w' := .head h (.refl _ _)

theorem trans (h : Shifts t a th w th' w') (h' : Shifts t a th' w' th'' w'') :
    Shifts t a th w th'' w'' := by
  induction h with
  | refl => exact h'
  | head s _ ih => exact .head s (ih h')

theorem tail (h : Shifts t a th w th' w') (h' : Shift t a th' w' th'' w'') :
    Shifts t a th w th'' w'' :=
  h.trans (.single h')

/-- Shifts keep a world sound, and their thread. -/
theorem sound (h : Shifts t a th w th' w') (hw : w.Sound) (hth : th.Sound w) :
    w'.Sound ∧ th'.Sound w' := by
  induction h with
  | refl => exact ⟨hw, hth⟩
  | head s _ ih =>
    obtain ⟨hw', hth'⟩ := s.sound hw hth
    exact ih hw' hth'

/-- Shifts of the thread of a task are changes of the world. -/
theorem changes (h : Shifts t a th w th' w') {task : Task ν} (ht : t < w.tasks.size)
    (hth : task.thread? = some th) (ha : task.author? = a) :
    Changes (w.setTask t task) (w'.setTask t (task.withThread th')) := by
  induction h generalizing task with
  | refl th w => rw [withThread_self hth]
  | @head th th' th'' w w' w'' s _ ih =>
    have first : Change (w.setTask t task)
        ((w'.setTask t task).setTask t (task.withThread th')) :=
      .code (w.getElem?_setTask_self t task ht) hth (by rw [ha]; exact s.setTask ht task)
    rw [setTask_setTask] at first
    have later := ih (Nat.lt_of_lt_of_le ht s.grows.tasks) (s.thread?_withThread hth)
      (by rw [author?_withThread, ha])
    rw [withThread_withThread] at later
    exact .head first later

end Shifts

section Aside

variable (w : World ν)

/-- Handles, gates and the clock are no part of what jobs, tasks and epochs are. -/
theorem Aside.log (notice : Notice) : Aside w (w.log notice) :=
  ⟨rfl, rfl, le_rfl, rfl, rfl, .inl rfl, rfl, rfl, rfl, [.log none notice], by simp [World.log],
    by simp [Occurrence.isAside]⟩

theorem Aside.exited (t : TaskId) (crashed : Bool) : Aside w (w.record (.exited t crashed)) :=
  ⟨rfl, rfl, le_rfl, rfl, rfl, .inl rfl, rfl, rfl, rfl, [.exited t crashed], by simp,
    by simp [Occurrence.isAside]⟩

theorem Aside.hookCalls (n : Nat) : Aside w { w with hookCalls := n } :=
  ⟨rfl, rfl, le_rfl, rfl, rfl, .inl rfl, rfl, rfl, rfl, [], (List.append_nil _).symm, by simp⟩

/-- The count of calls of the hook is no part of it either. -/
theorem Aside.hookCalls_setTask (n : Nat) (t : TaskId) (task : Task ν) :
    Aside (w.setTask t task) (({ w with hookCalls := n } : World ν).setTask t task) :=
  .hookCalls (w.setTask t task) n

theorem Aside.gates (gates : Gates) : Aside w { w with gates } :=
  ⟨rfl, rfl, le_rfl, rfl, rfl, .inl rfl, rfl, rfl, rfl, [], (List.append_nil _).symm, by simp⟩

theorem Aside.passing {time : Nat} (h : w.clock ≤ time) : Aside w { w with clock := time } :=
  ⟨rfl, rfl, h, rfl, rfl, .inl rfl, rfl, rfl, rfl, [], (List.append_nil _).symm, by simp⟩

/-- A handle is taken while there is one. -/
theorem Aside.hold (h : w.handles ≠ 0) : Aside w { w with handles := w.handles + 1 } :=
  ⟨rfl, rfl, le_rfl, rfl, rfl, .inr (.inl ⟨h, rfl⟩), rfl, rfl, rfl, [],
    (List.append_nil _).symm, by simp⟩

/-- A handle is let go, the last one of a stopped pool. -/
theorem Aside.drop {n : Nat} (h : w.handles = n + 1) (hr : n = 0 → w.running = false) :
    Aside w { w with handles := n } :=
  ⟨rfl, rfl, le_rfl, rfl, rfl, .inr (.inr ⟨h, hr⟩), rfl, rfl, rfl, [],
    (List.append_nil _).symm, by simp⟩

end Aside

section Code

variable {w : World ν} {t : TaskId} {a : Option Nat}

/-- A running pool has a current epoch. -/
theorem Sound.exists_current (hw : w.Sound) (hr : w.running = true) : ∃ e, w.current = some e := by
  rw [hw.running_eq] at hr
  exact Option.isSome_iff_exists.1 hr

theorem retire_of_stopped (hr : w.running = false) : w.retire = (none, w) := by
  simp [retire, hr]

theorem retire_of_running {e : EpochId} (hr : w.running = true) (hc : w.current = some e) :
    w.retire = (some e, { w with running := false, current := none }) := by
  simp [retire, hr, hc]

/-- A stop of a stopped pool does nothing. -/
theorem halt_of_stopped (hr : w.running = false) : w.halt = ([], w) := by
  rw [halt, retire_of_stopped hr]

/-- A stop of a running pool closes its epoch and leaves it to be drained. -/
theorem halt_of_running {e : EpochId} (hr : w.running = true) (hc : w.current = some e) :
    w.halt = ([.drain e 0], w.stop e) := by
  rw [halt, retire_of_running hr hc]
  rfl

/-- Stopping the pool is a shift. -/
theorem shifts_halt (th : Thread ν) (hw : w.Sound) :
    Shifts t a th w { th with layers := w.halt.1 ++ th.layers } w.halt.2 := by
  cases hr : w.running with
  | false =>
    rw [halt_of_stopped hr]
    exact .refl _ _
  | true =>
    obtain ⟨e, hc⟩ := hw.exists_current hr
    rw [halt_of_running hr hc]
    exact .single (.halted hr hc (.inl rfl))

/-- Letting go of a handle is a shift. -/
theorem shifts_letGo (th : Thread ν) (hw : w.Sound) :
    Shifts t a th w { th with layers := w.letGo.1 ++ th.layers } w.letGo.2 := by
  unfold letGo
  split
  · exact .refl _ _
  · rename_i h
    obtain hr | hr := Bool.eq_false_or_eq_true w.running
    · obtain ⟨e, hc⟩ := hw.exists_current hr
      rw [halt_of_running (w := { w with handles := 0 }) hr hc]
      exact (Shifts.single (.halted hr hc (.inl rfl))).tail
        (.aside (.drop (w.stop e) (n := 0) h fun _ => rfl))
    · rw [halt_of_stopped (w := { w with handles := 0 }) hr]
      exact .single (.aside (.drop w h fun _ => hr))
  · rename_i n h
    exact .single (.aside (.drop w h (by simp)))

/-- What a deed does beyond its trace is a shift. -/
theorem shifts_perform (th : Thread ν) (hw : w.Sound) (b : Option Nat) (d : Deed ν) :
    Shifts t a th (w.recordAll (d.traces b))
      { th with layers := (w.perform b d).1 ++ th.layers } (w.perform b d).2 := by
  cases d with
  | note n => exact .refl _ _
  | log notice => exact .refl _ _
  | start =>
    simp only [perform, Deed.traces, recordAll_nil, List.nil_append]
    split
    · exact .refl _ _
    · rename_i hh
      unfold start
      split
      · exact .refl _ _
      · rename_i hr
        exact .single (.launched (Bool.eq_false_iff.2 hr) hh)
  | stop =>
    simp only [perform, Deed.traces, recordAll_nil]
    split
    · exact .refl _ _
    · exact shifts_halt th hw
  | hold =>
    simp only [perform, Deed.traces, recordAll_nil, List.nil_append]
    split
    · exact .refl _ _
    · rename_i hh
      exact .single (.aside (.hold w hh))
  | drop => exact shifts_letGo th hw

/-- A step of the drains and callbacks of a thread is made of shifts. -/
theorem shifts_stepLayers (th : Thread ν) (hw : w.Sound) :
    Shifts t a th w { th with layers := (w.stepLayers th.layers).1 }
      (w.stepLayers th.layers).2 := by
  obtain ⟨layers, body, wait⟩ := th
  rcases layers with _ | ⟨_ | ⟨k, _ | ⟨d, ds⟩, ending⟩, rest⟩
  · exact .refl _ _
  · rename_i e n
    simp only [stepLayers]
    cases hd : (w.epoch e).drain? with
    | some taken => exact .single (.abandoned rfl hd)
    | none =>
      refine .head (.drained rfl hd) ?_
      simp only
      split
      · exact .refl _ _
      · exact .single (.aside (.log w _))
  · cases ending with
    | ok => exact .single (.returned rfl)
    | error p => exact .head (.returned rfl) (.single (.aside (.log w _)))
  · exact .head (.callbackDeed rfl)
      (shifts_perform ⟨.callback k ⟨ds, ending⟩ :: rest, body, wait⟩ hw (some k) d)

/-- An answer is reported, and the thread lets go of the pool. -/
theorem shifts_conclude (th : Thread ν) (hw : w.Sound) {act : Act ν} {rest : List (Act ν)} {n : ν}
    (hl : th.layers = []) (ha : th.body.acts = act :: rest) (hn : n ∈ act.answers)
    (hwait : th.wait.line? = none) :
    Shifts t a th w (w.conclude a th n).1 (w.conclude a th n).2 := by
  have first : Shift t a th w th.next (w.record (.note a n)) := .answered hl ha hn hwait
  have later := shifts_letGo (t := t) (a := a) th.next (hw.record (.note a n))
  rw [show th.next.layers = [] from hl, List.append_nil] at later
  exact .head first later

/-- A shutdown that waits for the tasks of its epoch makes shifts. -/
theorem shifts_awaitExits {th : Thread ν} (hw : w.Sound) {timeout : Duration} {done late gone : ν}
    {rest : List (Act ν)} {e : EpochId} (deadline : Nat) (hl : th.layers = [])
    (ha : th.body.acts = .shutdown timeout done late gone :: rest)
    (hwait : th.wait = .closing e ∨ ∃ d, th.wait = .exits e d) :
    Shifts t a th w (w.awaitExits a th e deadline timeout done late).1
      (w.awaitExits a th e deadline timeout done late).2 := by
  have hline : th.wait.line? = none := by
    obtain h | ⟨_, h⟩ := hwait <;> rw [h] <;> rfl
  unfold awaitExits
  split
  · exact .head (.aside (.log w _))
      (shifts_conclude th (hw.record _) hl ha (by simp [Act.answers]) hline)
  · split
    · exact .head (.aside (.log w _))
        (shifts_conclude th (hw.record _) hl ha (by simp [Act.answers]) hline)
    · exact .single (.awaiting deadline hwait)

/-- A submission that draws a ticket makes a shift. -/
theorem shifts_submit {th : Thread ν} {job : Job ν} {accepted refused gone : ν}
    {rest : List (Act ν)} {answer : Admission} {u : World ν} (hl : th.layers = [])
    (ha : th.body.acts = .submit job.run job.abandon accepted refused gone :: rest)
    (hwait : th.wait.line? = none)
    (h : (w.draw job).submit t ⟨w.nextTicket, job⟩ = (answer, u)) :
    (answer = .accepted ∨ answer = .refused) ∧ Shift t a th w th u ∨
      ∃ e, answer = .waits e ∧ Shift t a th w { th with wait := .inLine e w.nextTicket } u := by
  unfold submit at h
  cases hc : w.current with
  | none =>
    simp only [current_draw, hc, Prod.mk.injEq] at h
    obtain ⟨rfl, rfl⟩ := h
    exact .inl ⟨.inr rfl, .refused job hl ha hwait (by simp [hc])⟩
  | some e =>
    simp only [current_draw, hc] at h
    cases ho : ((w.draw job).epoch e).offer (w.draw job).settings ⟨w.nextTicket, job⟩ with
    | placed tier ep =>
      simp only [ho, Prod.mk.injEq] at h
      obtain ⟨rfl, rfl⟩ := h
      exact .inl ⟨.inl rfl, .queued job hl ha hwait hc ho⟩
    | closed =>
      simp only [ho, Prod.mk.injEq] at h
      obtain ⟨rfl, rfl⟩ := h
      exact .inl ⟨.inr rfl, .refused job hl ha hwait (by simpa [hc] using ho)⟩
    | full =>
      cases hb : (w.draw job).settings.maxTemps with
      | none =>
        simp only [ho, hb, Prod.mk.injEq] at h
        obtain ⟨rfl, rfl⟩ := h
        exact .inl ⟨.inl rfl, .hired job hl ha hwait hc ho (by simp_all)⟩
      | some limit =>
        simp only [ho, hb] at h
        split at h
        · rename_i ht
          obtain ⟨rfl, rfl⟩ := Prod.mk.inj h
          exact .inl ⟨.inl rfl, .hired job hl ha hwait hc ho (by simp_all)⟩
        · rename_i ht
          split at h
          · rename_i hf
            obtain ⟨rfl, rfl⟩ := Prod.mk.inj h
            exact .inl ⟨.inl rfl, .handedOver job hl ha hwait hc ho hb (Nat.not_lt.1 ht) hf⟩
          · rename_i hf
            obtain ⟨rfl, rfl⟩ := Prod.mk.inj h
            exact .inr ⟨e, rfl, .joined job hl ha hwait hc ho hb (Nat.not_lt.1 ht)
              (Bool.eq_false_iff.2 hf)⟩

/-- A submission that does not wait yet does what the pool answers. -/
theorem stepAct_submit {th : Thread ν} {run : Script (Act ν) Unit} {abandon : Script (Deed ν) Unit}
    (accepted refused gone : ν) {answer : Admission} {u : World ν} (hwait : th.wait.line? = none)
    (hh : w.handles ≠ 0)
    (hr : (({ w with handles := w.handles + 1 } : World ν).draw ⟨run, abandon⟩).submit t
      ⟨w.nextTicket, ⟨run, abandon⟩⟩ = (answer, u)) {r : Thread ν × World ν}
    (h : answer = .accepted ∧ r = u.conclude a th accepted ∨
      answer = .refused ∧ r = u.conclude a th refused ∨
        ∃ e, answer = .waits e ∧ r = ({ th with wait := .inLine e w.nextTicket }, u)) :
    w.stepAct t a th (.submit run abandon accepted refused gone) = r := by
  have drawn : (({ w with nextTicket := w.nextTicket + 1, handles := w.handles + 1 } :
      World ν).record (.submitted w.nextTicket ⟨run, abandon⟩)).submit t
        ⟨w.nextTicket, ⟨run, abandon⟩⟩ = (answer, u) := hr
  cases hw' : th.wait with
  | inLine => simp [hw', Wait.line?] at hwait
  | _ =>
    simp only [stepAct, hw', if_neg hh, drawn]
    obtain ⟨rfl, rfl⟩ | ⟨rfl, rfl⟩ | ⟨e, rfl, rfl⟩ := h <;> rfl

/-- A submission that begins makes shifts. -/
theorem shifts_submission {th : Thread ν} (hw : w.Sound) (hth : th.Sound w)
    {run : Script (Act ν) Unit} {abandon : Script (Deed ν) Unit} {accepted refused gone : ν}
    {rest : List (Act ν)} (hl : th.layers = [])
    (ha : th.body.acts = .submit run abandon accepted refused gone :: rest)
    (hwait : th.wait.line? = none) :
    Shifts t a th w (w.stepAct t a th (.submit run abandon accepted refused gone)).1
      (w.stepAct t a th (.submit run abandon accepted refused gone)).2 := by
  by_cases hh : w.handles = 0
  · have hstep : w.stepAct t a th (.submit run abandon accepted refused gone) =
        (th.next, w.record (.note a gone)) := by
      cases hw' : th.wait with
      | inLine => simp [hw', Wait.line?] at hwait
      | _ => simp only [stepAct, hw', if_pos hh]
    rw [hstep]
    exact .single (.answered hl ha (by simp [Act.answers]) hwait)
  · have hold : Shift t a th w th { w with handles := w.handles + 1 } := .aside (.hold w hh)
    rcases hr : (({ w with handles := w.handles + 1 } : World ν).draw ⟨run, abandon⟩).submit t
      ⟨w.nextTicket, ⟨run, abandon⟩⟩ with ⟨answer, u⟩
    have hstep := @stepAct_submit _ w t a th run abandon accepted refused gone answer u hwait hh hr
    obtain ⟨hk, later⟩ | ⟨e, rfl, later⟩ := shifts_submit (a := a) hl ha hwait hr
    · have before := Shifts.head hold (.single later)
      have hu := (before.sound hw hth).1
      obtain rfl | rfl := hk
      · rw [hstep (.inl ⟨rfl, rfl⟩)]
        exact before.trans (shifts_conclude th hu hl ha (by simp [Act.answers]) hwait)
      · rw [hstep (.inr (.inl ⟨rfl, rfl⟩))]
        exact before.trans (shifts_conclude th hu hl ha (by simp [Act.answers]) hwait)
    · rw [hstep (.inr (.inr ⟨e, rfl, rfl⟩))]
      exact .head hold (.single later)

/-- A shutdown takes the pool out of use and waits, or is done at once. -/
theorem shifts_retire {th : Thread ν} (hw : w.Sound) {timeout : Duration} {done late gone : ν}
    {rest : List (Act ν)} (hl : th.layers = [])
    (ha : th.body.acts = .shutdown timeout done late gone :: rest) (hline : th.wait.line? = none)
    {r : Thread ν × World ν} (h : r = match w.retire with
      | (none, u) => u.conclude a th done
      | (some e, u) => ({ th with layers := [.drain e 0], wait := .closing e }, u.close e)) :
    Shifts t a th w r.1 r.2 := by
  obtain hr | hr := Bool.eq_false_or_eq_true w.running
  · obtain ⟨e, hc⟩ := hw.exists_current hr
    rw [retire_of_running hr hc] at h
    subst h
    have stopped : Shift t a th w
        { th with layers := .drain e 0 :: th.layers, wait := .closing e } (w.stop e) :=
      .halted hr hc (.inr ⟨rfl, hline, timeout, done, late, gone, rest, ha⟩)
    rw [hl] at stopped
    exact .single stopped
  · rw [retire_of_stopped hr] at h
    subst h
    exact shifts_conclude th hw hl ha (by simp [Act.answers]) hline

/-- A shutdown that begins makes shifts. -/
theorem shifts_shutdown {th : Thread ν} (hw : w.Sound) {timeout : Duration} {done late gone : ν}
    {rest : List (Act ν)} (hl : th.layers = [])
    (ha : th.body.acts = .shutdown timeout done late gone :: rest)
    (hwait : th.wait = .nothing ∨ ∃ deadline, th.wait = .alarm deadline) :
    Shifts t a th w (w.stepAct t a th (.shutdown timeout done late gone)).1
      (w.stepAct t a th (.shutdown timeout done late gone)).2 := by
  have hline : th.wait.line? = none := by
    obtain h | ⟨_, h⟩ := hwait <;> rw [h] <;> rfl
  by_cases hh : w.handles = 0
  · have hstep : w.stepAct t a th (.shutdown timeout done late gone) =
        (th.next, w.record (.note a gone)) := by
      obtain h | ⟨_, h⟩ := hwait <;> simp only [stepAct, h, hh, if_true]
    rw [hstep]
    exact .single (.answered hl ha (by simp [Act.answers]) hline)
  · have hold := Aside.hold w hh
    refine .head (.aside hold) (shifts_retire (hw.aside hold) hl ha hline ?_)
    obtain h | ⟨_, h⟩ := hwait <;> rw [stepAct, h] <;> exact if_neg hh

/-- The act that a body has come to makes shifts. -/
theorem shifts_stepAct {th : Thread ν} (hw : w.Sound) (hth : th.Sound w)
    (hr : w.bodyReady t th = true) {act : Act ν} {rest : List (Act ν)} (hl : th.layers = [])
    (ha : th.body.acts = act :: rest) :
    Shifts t a th w (w.stepAct t a th act).1 (w.stepAct t a th act).2 := by
  have hf := hth.fits
  cases act with
  | deed d =>
    have hwait : th.wait.line? = none := hf.line?_eq_none ha (by simp)
    have later := shifts_perform (t := t) (a := a) th.next hw a d
    rw [show th.next.layers = [] from hl, List.append_nil] at later
    exact .head (.deed hl ha hwait) later
  | pass gate =>
    have hwait : th.wait.line? = none := hf.line?_eq_none ha (by simp)
    exact .head (.paused hl ha rfl hwait) (.single (.aside (.gates w _)))
  | sleep time =>
    have hwait : th.wait.line? = none := hf.line?_eq_none ha (by simp)
    simp only [stepAct]
    split
    · exact .single (.paused hl ha rfl hwait)
    · exact .single (.asleep _ ha hwait)
  | submit run abandon accepted refused gone =>
    cases hwait : th.wait with
    | inLine e k =>
      have hline : ({ th with wait := .nothing } : Thread ν).wait.line? = none := rfl
      simp only [stepAct, hwait]
      unfold submitGranted
      by_cases hc : ((w.epoch e).closed || (w.epoch e).intake.shut) = true
      · rw [if_pos hc]
        exact .head (.gaveUp hl hwait) (shifts_conclude { th with wait := .nothing }
          ((hw.modifyEpoch e rfl).record _) hl ha (by simp [Act.answers]) hline)
      · rw [if_neg hc]
        obtain ⟨hopen, hshut⟩ : (w.epoch e).closed = false ∧ (w.epoch e).intake.shut = false := by
          simpa using hc
        have hg : (w.epoch e).intake.granted = some t := by
          simpa [bodyReady, hwait, hopen, hshut, Intake.isGrantedTo] using hr
        exact .head (.granted ⟨run, abandon⟩ hl ha hwait hopen hshut hg)
          (shifts_conclude { th with wait := .nothing }
            ((hw.modifyEpoch e rfl).record _) hl ha (by simp [Act.answers]) hline)
    | _ => exact shifts_submission hw hth hl ha (by simp [hwait, Wait.line?])
  | shutdown timeout done late gone =>
    cases hwait : th.wait with
    | closing e =>
      simp only [stepAct, hwait]
      exact shifts_awaitExits hw _ hl ha (.inl hwait)
    | exits e deadline =>
      simp only [stepAct, hwait]
      exact shifts_awaitExits hw _ hl ha (.inr ⟨deadline, hwait⟩)
    | inLine e k =>
      have := hf.line?_eq_none ha (by simp)
      simp [hwait, Wait.line?] at this
    | _ => exact shifts_shutdown hw hl ha (by simp [hwait])

/-- A step of a thread is made of shifts. -/
theorem shifts_stepThread {th : Thread ν} (hw : w.Sound) (hth : th.Sound w)
    (hr : w.threadReady t th = true) :
    Shifts t a th w (w.stepThread t a th).1 (w.stepThread t a th).2 := by
  unfold stepThread
  cases hl : th.layers with
  | nil =>
    cases ha : th.body.acts with
    | nil => exact .refl _ _
    | cons act rest => exact shifts_stepAct hw hth (by simpa [threadReady, hl] using hr) hl ha
  | cons layer rest =>
    have h := shifts_stepLayers (t := t) (a := a) th hw
    rwa [hl] at h

end Code

end WorkerPool.World
