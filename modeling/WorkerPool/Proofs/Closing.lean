import WorkerPool.Proofs.Drains
import WorkerPool.Proofs.Hooks

/-!
# The move that closes an epoch

A step of a task runs its code or does one thing that is its own, and in either case leaves all
other tasks in their places. An epoch is closed by code alone: the move that does so leaves the
queues as they were and puts the drain of the epoch on top of what the code has to do.
-/

namespace WorkerPool

variable {ν : Type}

/-- What the dispatcher of a closed epoch has still to abandon, in order: its backlog, then what is
in its intake. -/
def Epoch.held (ep : Epoch ν) : List (Entry ν) := ep.backlog ++ ep.intake.slot.toList

namespace World

variable {w v u : World ν} {t : TaskId} {e : EpochId}

/-- The code that task `t` runs. -/
def thread? (w : World ν) (t : TaskId) : Option (Thread ν) := w.tasks[t]?.bind Task.thread?

/-- A task with this code is there. -/
theorem thread?_eq_some {th : Thread ν} :
    w.thread? t = some th ↔ ∃ task, w.tasks[t]? = some task ∧ task.thread? = some th :=
  Option.bind_eq_some_iff

/-- Something that task `t` does by itself: it closes no epoch and touches no other task. -/
structure Plain (t : TaskId) (w u : World ν) : Prop where
  closed : ∀ e, (u.epoch e).closed = (w.epoch e).closed
  tasks : ∀ i, i ≠ t → u.tasks[i]? = w.tasks[i]?

namespace Plain

protected theorem refl (t : TaskId) (w : World ν) : Plain t w w := ⟨fun _ => rfl, fun _ _ => rfl⟩

protected theorem trans (h : Plain t w v) (h' : Plain t v u) : Plain t w u :=
  ⟨fun e => (h'.closed e).trans (h.closed e), fun i hi => (h'.tasks i hi).trans (h.tasks i hi)⟩

theorem of_same (he : ∀ e, u.epoch e = w.epoch e) (ht : u.tasks = w.tasks) : Plain t w u :=
  ⟨fun e => by rw [he], fun i _ => by rw [ht]⟩

theorem setTask (h : Plain t w u) (task : Task ν) : Plain t w (u.setTask t task) :=
  h.trans ⟨fun _ => rfl, fun _ hi => getElem?_setTask_of_ne _ _ _ hi⟩

theorem record (h : Plain t w u) (o : Occurrence ν) : Plain t w (u.record o) :=
  h.trans (.of_same (fun _ => rfl) rfl)

theorem recordAll (h : Plain t w u) (os : List (Occurrence ν)) : Plain t w (u.recordAll os) :=
  h.trans (.of_same (fun i => epoch_recordAll u os i) (tasks_recordAll u os))

theorem modifyEpoch (h : Plain t w u) (e : EpochId) {f : Epoch ν → Epoch ν}
    (hf : (f (u.epoch e)).closed = (u.epoch e).closed) : Plain t w (u.modifyEpoch e f) :=
  h.trans ⟨u.modifyEpoch_keeps e f Epoch.closed hf, fun _ _ => rfl⟩

end Plain

/-- Something that task `t` does by itself for the epoch that it works for: it changes no other
epoch, and neither opens one nor takes one out of use. -/
structure Own (home : EpochId) (t : TaskId) (w u : World ν) : Prop extends Plain t w u where
  epochs : ∀ e, e ≠ home → u.epoch e = w.epoch e
  size : u.epochs.size = w.epochs.size
  running : u.running = w.running
  current : u.current = w.current

namespace Own

protected theorem refl (e : EpochId) (t : TaskId) (w : World ν) : Own e t w w :=
  ⟨.refl t w, fun _ _ => rfl, rfl, rfl, rfl⟩

theorem setTask (h : Own e t w u) (task : Task ν) : Own e t w (u.setTask t task) :=
  ⟨h.toPlain.setTask task, h.epochs, h.size, h.running, h.current⟩

theorem record (h : Own e t w u) (o : Occurrence ν) : Own e t w (u.record o) :=
  ⟨h.toPlain.record o, h.epochs, h.size, h.running, h.current⟩

theorem recordAll (h : Own e t w u) (os : List (Occurrence ν)) : Own e t w (u.recordAll os) where
  toPlain := h.toPlain.recordAll os
  epochs i hi := (epoch_recordAll u os i).trans (h.epochs i hi)
  size := by rw [epochs_recordAll, h.size]
  running := by rw [running_recordAll, h.running]
  current := by rw [current_recordAll, h.current]

theorem modifyEpoch (h : Own e t w u) {f : Epoch ν → Epoch ν}
    (hf : (f (u.epoch e)).closed = (u.epoch e).closed) : Own e t w (u.modifyEpoch e f) where
  toPlain := h.toPlain.modifyEpoch e hf
  epochs i hi := (u.epoch_modifyEpoch_of_ne e f hi).trans (h.epochs i hi)
  size := by rw [size_modifyEpoch, h.size]
  running := h.running
  current := h.current

theorem callHook (h : Own e t w u) (home : EpochId) (i : TaskId) (call : HookCall) :
    Own e t w (u.callHook home i call).2 := by
  obtain ⟨n, hn⟩ := u.callHook_eq home i call
  have told := h.recordAll (u.hookTrace home i call)
  rw [hn]
  exact ⟨⟨told.closed, told.tasks⟩, told.epochs, told.size, told.running, told.current⟩

end Own

/-- A worker whose job is over does nothing but what is its own. -/
theorem own_finish (kind : WorkerKind) (source : Source) (k : Nat) (ending : Except Panic Unit) :
    Own e t w (w.finish t e kind source k ending) := by
  have rest : ∀ {v : World ν}, Own e t w v → Own e t w (v.rest t e kind source) := by
    intro v hv
    obtain ⟨state, _, h | h⟩ := v.rest_cases t e kind source <;> rw [h]
    · exact hv.setTask _
    · exact (hv.setTask _).record _
  cases ending with
  | ok => exact rest ((Own.refl e t w).record _)
  | error p =>
    have told := (((Own.refl e t w).record (.finished e k (.error p))).record
      (.log none (.jobPanicked p.message))).callHook e t (.panicked p.message)
    simp only [finish]
    split
    · rename_i hu
      rw [World.log] at hu
      rw [hu] at told
      exact (told.setTask _).record _
    · rename_i hu
      rw [World.log] at hu
      rw [hu] at told
      exact rest told

/-- An idle worker does nothing but what is its own. -/
theorem own_stepIdle (kind : WorkerKind) (alarm : Option Nat) :
    Own e t w (w.stepIdle t e kind alarm) := by
  unfold stepIdle
  split
  · exact (Own.refl e t w).setTask _
  · split
    · rename_i tier x ep hc
      exact (((Own.refl e t w).modifyEpoch (Epoch.claim_frame hc).1).setTask _).record _
    · split
      · exact ((Own.refl e t w).record _).setTask _
      · exact .refl e t w

/-- A worker that leaves does nothing but what is its own. -/
theorem own_stepLeaving (kind : WorkerKind) : Own e t w (w.stepLeaving t e kind) := by
  cases kind with
  | permanent i => exact (((Own.refl e t w).record _).setTask _).record _
  | temporary =>
    exact (((((Own.refl e t w).modifyEpoch rfl).record _).callHook e t _).setTask _).record _

/-- A dispatcher that takes in the last jobs of a closed epoch does nothing but what is its own. -/
theorem own_stepCollecting : Own e t w (w.stepCollecting t e) := by
  have refl := Own.refl e t w
  simp only [stepCollecting]
  split
  · exact ((refl.modifyEpoch rfl).record _).setTask _
  · split_ifs
    · exact refl.setTask _
    · exact (refl.record _).setTask _
    · exact refl.setTask _

/-- The turns of the loop of a dispatcher are its own. -/
theorem own_stepDispatcher {state : DispatcherState ν}
    (hs : ∀ layer layers, state ≠ .discarding (layer :: layers)) :
    Own e t w (w.stepDispatcher t e state) := by
  have refl := Own.refl e t w
  rcases state with _ | _ | _ | _ | _ | (_ | ⟨layer, layers⟩) | _
  · exact (refl.record _).setTask _
  · have spec := Epoch.flushes_flush w.settings (w.epoch e)
    have flushed := refl.modifyEpoch (f := fun _ => ((w.epoch e).flush w.settings).epoch)
      spec.closed
    simp only [stepDispatcher, stepFlushing_eq]
    split
    · exact (flushed.recordAll _).setTask _
    · exact ((flushed.recordAll _).modifyEpoch rfl).setTask _
  · simp only [stepDispatcher, stepParked]
    split_ifs
    · exact (refl.modifyEpoch rfl).setTask _
    · exact (refl.modifyEpoch rfl).setTask _
    · split
      · exact ((refl.modifyEpoch rfl).record _).setTask _
      · exact refl
  · exact own_stepCollecting
  · exact own_stepCollecting
  · simp only [stepDispatcher]
    split
    · exact ((refl.record _).setTask _).record _
    · exact ((refl.modifyEpoch rfl).record _).setTask _
  · exact absurd rfl (hs layer layers)
  · exact refl

/-- A task that takes a step does something of its own for its epoch, or goes on with the code that
it runs. -/
theorem step_own (w : World ν) (t : TaskId) : w.step t = w ∨
    (∃ (task : Task ν) (home : EpochId), w.tasks[t]? = some task ∧ task.home? = some home ∧
      Own home t w (w.step t)) ∨
    ∃ (task : Task ν) (th : Thread ν), w.tasks[t]? = some task ∧ task.thread? = some th ∧
      w.threadReady t th = true ∧ w.step t =
        (w.stepThread t task.author? th).2.setTask t
          (task.withThread (w.stepThread t task.author? th).1) := by
  unfold step
  split
  case isFalse => exact .inl rfl
  rename_i hr
  cases ht : w.tasks[t]? with
  | none => exact .inl rfl
  | some task =>
    rw [ready, ht] at hr
    cases task with
    | worker home kind state =>
      have refl := Own.refl home t w
      cases state with
      | hired =>
        refine .inr (.inl ⟨_, home, rfl, rfl, ?_⟩)
        cases kind with
        | permanent i => exact (refl.record _).setTask _
        | temporary => exact refl.setTask _
      | seeded live x =>
        refine .inr (.inl ⟨_, home, rfl, rfl, ?_⟩)
        have told := refl.callHook home t (.join live)
        simp only [stepWorker]
        split
        · rename_i hu
          rw [hu] at told
          exact ((told.record _).setTask _).record _
        · rename_i hu
          rw [hu] at told
          exact ((told.record _).setTask _).record _
      | idle alarm => exact .inr (.inl ⟨_, home, rfl, rfl, own_stepIdle kind alarm⟩)
      | busy source k th =>
        simp only [stepWorker]
        split
        · exact .inr (.inl ⟨_, home, rfl, rfl, own_finish kind source k _⟩)
        · exact .inr (.inr ⟨_, th, rfl, rfl, hr, rfl⟩)
      | leaving => exact .inr (.inl ⟨_, home, rfl, rfl, own_stepLeaving kind⟩)
      | gone => exact .inl rfl
    | dispatcher home state =>
      by_cases hs : ∃ layer layers, state = .discarding (layer :: layers)
      · obtain ⟨layer, layers, rfl⟩ := hs
        exact .inr (.inr ⟨_, _, rfl, rfl, rfl, rfl⟩)
      · exact .inr (.inl ⟨_, home, rfl, rfl,
          own_stepDispatcher fun layer layers h => hs ⟨layer, layers, h⟩⟩)
    | client th =>
      simp only [Bool.and_eq_true] at hr
      exact .inr (.inr ⟨_, th, rfl, rfl, hr.2, rfl⟩)

/-- A step of a task is its own, or it is a step of the code that the task runs. -/
theorem step_cases (w : World ν) (t : TaskId) : Plain t w (w.step t) ∨
    ∃ (task : Task ν) (th : Thread ν), w.tasks[t]? = some task ∧ task.thread? = some th ∧
      w.threadReady t th = true ∧ w.step t =
        (w.stepThread t task.author? th).2.setTask t
          (task.withThread (w.stepThread t task.author? th).1) := by
  obtain still | ⟨_, _, _, _, own⟩ | code := w.step_own t
  · rw [still]
    exact .inl (.refl t w)
  · exact .inl own.toPlain
  · exact .inr code

/-- The code of a task makes a world grow, as far as it goes. -/
theorem Shifts.grows {a : Option Nat} {th th' : Thread ν} {w' : World ν}
    (h : Shifts t a th w th' w') : Grows w w' := by
  induction h with
  | refl => exact .refl _
  | head s _ ih => exact s.grows.trans ih

/-- The code of a task leaves all tasks in their places, as far as it goes. -/
theorem Shifts.getElem?_tasks {a : Option Nat} {th th' : Thread ν} {w' : World ν}
    (h : Shifts t a th w th' w') {i : TaskId} (hi : i < w.tasks.size) :
    w'.tasks[i]? = w.tasks[i]? := by
  induction h with
  | refl => rfl
  | head s _ ih => rw [ih (Nat.lt_of_lt_of_le hi s.grows.tasks), s.getElem?_tasks hi]

/-- A step of a task leaves all other tasks in their places. -/
theorem getElem?_step_of_ne (hw : w.Sound) {i : TaskId} (hi : i ≠ t) (hlt : i < w.tasks.size) :
    (w.step t).tasks[i]? = w.tasks[i]? := by
  obtain plain | ⟨task, th, ht, hth, hr, hstep⟩ := w.step_cases t
  · exact plain.tasks i hi
  · have shifts := shifts_stepThread (a := task.author?) hw ((hw.tasks t task ht).thread th hth) hr
    rw [hstep, getElem?_setTask_of_ne _ _ _ hi, shifts.getElem?_tasks hlt]

/-- A call that is broken off leaves all other tasks in their places. -/
theorem getElem?_withdraw_of_ne (hw : w.Sound) {i : TaskId} (hi : i ≠ t)
    (hlt : i < w.tasks.size) : (w.withdraw t).tasks[i]? = w.tasks[i]? := by
  have gone : ∀ {v : World ν}, v.Sound → v.tasks = w.tasks → v.letGo.2.tasks[i]? = w.tasks[i]? :=
    fun {v} hv ht => by
      rw [(shifts_letGo (t := t) (a := none) ⟨[], ⟨[], .ok ()⟩, .nothing⟩ hv).getElem?_tasks
        (ht ▸ hlt), ht]
  unfold withdraw
  split
  · rename_i body wait ht
    simp only [getElem?_setTask_of_ne _ _ _ hi]
    cases wait with
    | nothing => rfl
    | alarm => rfl
    | inLine j k => exact gone ((hw.modifyEpoch j rfl).record _) rfl
    | closing => exact gone hw rfl
    | exits => exact gone hw rfl
  · rfl

/-- Epoch `e` was closed on the way from `w` to `u`: its drain is the first of these layers, all
else that was there still is, and nothing was abandoned. -/
structure Sealed (w u : World ν) (e : EpochId) (layers : List (Layer ν)) : Prop where
  layers : ∃ below, layers = .drain e 0 :: below
  tasks : u.tasks = w.tasks
  queue : (u.epoch e).queue = (w.epoch e).queue
  held : (w.epoch e).held ⊆ (u.epoch e).held
  abandoned : ∀ k, .abandoned e k ∈ u.occurrences → .abandoned e k ∈ w.occurrences

/-- If the epoch was closed on the way from `w` to `u`, then its drain is the first of these layers.
-/
def Shuts (w u : World ν) (e : EpochId) (layers : List (Layer ν)) : Prop :=
  (u.epoch e).closed = true → Sealed w u e layers

namespace Shuts

variable {layers : List (Layer ν)}

/-- An epoch that is open was not closed. -/
theorem of_open (h : (u.epoch e).closed = false) : Shuts w u e layers :=
  fun hc => absurd (h.symm.trans hc) (by decide)

/-- What comes before may leave tasks and queues alone, take nothing out of the epoch and abandon
nothing. -/
theorem after (h : Shuts v u e layers) (ht : v.tasks = w.tasks)
    (hq : (v.epoch e).queue = (w.epoch e).queue) (hh : (w.epoch e).held ⊆ (v.epoch e).held)
    (ha : ∀ k, .abandoned e k ∈ v.occurrences → .abandoned e k ∈ w.occurrences) :
    Shuts w u e layers := by
  intro hc
  obtain ⟨hl, htasks, hqueue, hheld, habandoned⟩ := h hc
  exact ⟨hl, htasks.trans ht, hqueue.trans hq, List.Subset.trans hh hheld,
    fun k hk => ha k (habandoned k hk)⟩

/-- An occurrence that abandons nothing may come before. -/
theorem after_record {o : Occurrence ν} (h : Shuts (w.record o) u e layers)
    (ho : ∀ k, o ≠ .abandoned e k) : Shuts w u e layers := by
  refine h.after rfl rfl (List.Subset.refl _) fun k hk => ?_
  simpa [(ho k).symm] using hk

/-- Layers may follow. -/
theorem append (h : Shuts w u e layers) (rest : List (Layer ν)) :
    Shuts w u e (layers ++ rest) := by
  intro hc
  obtain ⟨below, rfl⟩ := (h hc).layers
  exact { h hc with layers := ⟨below ++ rest, rfl⟩ }

end Shuts

/-- A stop closes its own epoch and no other. -/
theorem shuts_stop {i : EpochId} (hi : i < w.epochs.size) (ho : (w.epoch e).closed = false) :
    Shuts w (w.stop i) e [.drain i 0] := by
  by_cases he : e = i
  · subst he
    refine fun _ => ⟨⟨[], rfl⟩, rfl, ?_, ?_, fun k hk => by simpa using hk⟩ <;>
      rw [epoch_stop_self _ _ hi]
    · rfl
    · exact List.Subset.refl _
  · exact .of_open (by rwa [epoch_stop_of_ne _ _ he])

/-- A stop closes the current epoch and no other. -/
theorem shuts_halt (hr : w.running = true → ∃ i, w.current = some i ∧ i < w.epochs.size)
    (ho : (w.epoch e).closed = false) : Shuts w w.halt.2 e w.halt.1 := by
  cases hw : w.running with
  | false =>
    rw [halt_of_stopped hw]
    exact .of_open ho
  | true =>
    obtain ⟨i, hi, hlt⟩ := hr hw
    rw [halt_of_running hw hi]
    exact shuts_stop hlt ho

section Code

variable (hw : w.Sound) (ho : (w.epoch e).closed = false)

include hw

/-- A running pool has a current epoch, and it is there. -/
theorem Sound.current_of_running (hr : w.running = true) :
    ∃ i, w.current = some i ∧ i < w.epochs.size := by
  obtain ⟨i, hi⟩ := hw.exists_current hr
  exact ⟨i, hi, hw.current_lt i hi⟩

include ho

/-- Letting go of a handle closes the current epoch if it was the last one. -/
theorem shuts_letGo : Shuts w w.letGo.2 e w.letGo.1 := by
  unfold letGo
  split
  · exact .of_open ho
  · exact (shuts_halt (w := { w with handles := 0 }) hw.current_of_running ho).after rfl rfl
      (List.Subset.refl _) fun _ => id
  · exact .of_open ho

/-- A deed closes an epoch only by a stop. -/
theorem shuts_perform (author : Option Nat) (d : Deed ν) :
    Shuts w (w.perform author d).2 e (w.perform author d).1 := by
  cases d with
  | note => exact .of_open ho
  | log => exact .of_open ho
  | start =>
    refine .of_open ?_
    simp only [perform, start]
    split_ifs
    · exact ho
    · exact ho
    · rwa [epoch_launch]
  | stop =>
    simp only [perform]
    split
    · exact .of_open ho
    · exact shuts_halt hw.current_of_running ho
  | hold =>
    refine .of_open ?_
    simp only [perform]
    split <;> exact ho
  | drop => exact shuts_letGo hw ho

/-- A callback closes an epoch only by a stop. -/
theorem shuts_stepLayers (layers : List (Layer ν)) :
    Shuts w (w.stepLayers layers).2 e (w.stepLayers layers).1 := by
  rcases layers with _ | ⟨_ | ⟨k, _ | ⟨d, ds⟩, ending⟩, rest⟩
  · exact .of_open ho
  · rename_i i n
    refine .of_open ?_
    simp only [stepLayers]
    cases hd : (w.epoch i).drain? with
    | some taken =>
      exact (w.modifyEpoch_keeps i (fun _ => taken.2) Epoch.closed (Epoch.drain_frame hd).1 e).trans
        ho
    | none => simp only; split <;> exact ho
  · cases ending <;> exact .of_open ho
  · exact (shuts_perform hw ho (some k) d).append _

/-- An answer closes an epoch only if the thread lets go of the last handle. -/
theorem shuts_conclude (author : Option Nat) (th : Thread ν) (answer : ν) :
    Shuts w (w.conclude author th answer).2 e (w.conclude author th answer).1.layers :=
  (shuts_letGo (hw.record (.note author answer)) ho).after_record (by simp)

/-- A shutdown that waits closes an epoch only as it lets go of the pool. -/
theorem shuts_awaitExits (author : Option Nat) (th : Thread ν) (i : EpochId) (deadline : Nat)
    (timeout : Duration) (done late : ν) :
    Shuts w (w.awaitExits author th i deadline timeout done late).2 e
      (w.awaitExits author th i deadline timeout done late).1.layers := by
  unfold awaitExits
  split_ifs
  · exact (shuts_conclude (hw.record _) ho author th done).after_record (by simp)
  · exact (shuts_conclude (hw.record _) ho author th late).after_record (by simp)
  · exact .of_open ho

omit hw in
/-- A submission closes no epoch. -/
theorem closed_submit (x : Entry ν) : ((w.submit t x).2.epoch e).closed = false := by
  have keep : ∀ (i : EpochId) (f : Epoch ν → Epoch ν),
      (f (w.epoch i)).closed = (w.epoch i).closed → ((w.modifyEpoch i f).epoch e).closed = false :=
    fun i f hf => (w.modifyEpoch_keeps i f Epoch.closed hf e).trans ho
  unfold submit
  cases hc : w.current with
  | none => exact ho
  | some i =>
    simp only
    split
    · rename_i tier ep hx
      have hclosed := (Epoch.offer_frame hx).1.trans (Epoch.offer_eq_placed.1 hx).1.symm
      exact keep i (fun _ => ep) hclosed
    · exact ho
    · split
      · exact keep i _ rfl
      · split_ifs <;> exact keep i _ rfl

omit hw ho in
/-- A submission takes and lets go of no handle. -/
@[simp] theorem handles_submit (x : Entry ν) : (w.submit t x).2.handles = w.handles := by
  unfold submit
  cases w.current with
  | none => rfl
  | some i =>
    simp only
    split
    · rfl
    · rfl
    · split
      · rfl
      · split_ifs <;> rfl

omit hw in
/-- An answer closes no epoch while there are two handles. -/
theorem closed_conclude (author : Option Nat) (th : Thread ν) (answer : ν) (hh : 2 ≤ w.handles) :
    ((w.conclude author th answer).2.epoch e).closed = false := by
  simp only [conclude, letGo, handles_record]
  split
  · rename_i h
    omega
  · rename_i h
    omega
  · exact ho

omit hw in
/-- A submission that begins closes no epoch, since it holds the pool besides its caller. -/
theorem closed_stepAct_submit (author : Option Nat) (th : Thread ν)
    (hwait : th.wait.line? = none) (run : Script (Act ν) Unit) (abandon : Script (Deed ν) Unit)
    (accepted refused gone : ν) :
    ((w.stepAct t author th (.submit run abandon accepted refused gone)).2.epoch e).closed =
      false := by
  by_cases hh : w.handles = 0
  · cases hw' : th.wait with
    | inLine => simp [hw', Wait.line?] at hwait
    | _ =>
      simp only [stepAct, hw', if_pos hh]
      exact ho
  · rcases hr : (({ w with handles := w.handles + 1 } : World ν).draw ⟨run, abandon⟩).submit t
      ⟨w.nextTicket, ⟨run, abandon⟩⟩ with ⟨answer, u⟩
    have hu : (u.epoch e).closed = false := by
      have hc := closed_submit (t := t) (w := ({ w with handles := w.handles + 1 } : World ν).draw
        ⟨run, abandon⟩) ho ⟨w.nextTicket, ⟨run, abandon⟩⟩
      rwa [hr] at hc
    have hn : 2 ≤ u.handles := by
      have hs := handles_submit (t := t) (w := ({ w with handles := w.handles + 1 } : World ν).draw
        ⟨run, abandon⟩) ⟨w.nextTicket, ⟨run, abandon⟩⟩
      rw [hr] at hs
      have hd : u.handles = w.handles + 1 := hs
      omega
    have hstep :=
      @stepAct_submit _ w t author th run abandon accepted refused gone answer u hwait hh hr
    cases answer with
    | accepted =>
      rw [hstep (.inl ⟨rfl, rfl⟩)]
      exact closed_conclude hu author th accepted hn
    | refused =>
      rw [hstep (.inr (.inl ⟨rfl, rfl⟩))]
      exact closed_conclude hu author th refused hn
    | waits i =>
      rw [hstep (.inr (.inr ⟨i, rfl, rfl⟩))]
      exact hu

/-- A submission whose wait is over closes an epoch only as it lets go of the pool. -/
theorem shuts_stepAct_granted (author : Option Nat) (th : Thread ν) {i : EpochId} {k : Nat}
    (hwait : th.wait = .inLine i k) (hg : (w.epoch i).closed = false →
      (w.epoch i).intake.shut = false → (w.epoch i).intake.slot = none)
    (run : Script (Act ν) Unit) (abandon : Script (Deed ν) Unit) (accepted refused gone : ν) :
    Shuts w (w.stepAct t author th (.submit run abandon accepted refused gone)).2 e
      (w.stepAct t author th (.submit run abandon accepted refused gone)).1.layers := by
  have later : ∀ {f : Epoch ν → Epoch ν} {o : Occurrence ν} (answer : ν),
      (f (w.epoch i)).closed = (w.epoch i).closed → (f (w.epoch i)).queue = (w.epoch i).queue →
      (w.epoch i).held ⊆ (f (w.epoch i)).held → (∀ j, o ≠ .abandoned e j) →
      Shuts w (((w.modifyEpoch i f).record o).conclude author th answer).2 e
        (((w.modifyEpoch i f).record o).conclude author th answer).1.layers := by
    intro f o answer hf hq hh hn
    have open' : (((w.modifyEpoch i f).record o).epoch e).closed = false :=
      (w.modifyEpoch_keeps i f Epoch.closed hf e).trans ho
    refine ((shuts_conclude ((hw.modifyEpoch i hf).record o) open' author th answer).after_record
      hn).after rfl (w.modifyEpoch_keeps i f Epoch.queue hq e) ?_ fun _ => id
    obtain he | ⟨rfl, he⟩ := w.epoch_modifyEpoch_cases i f e <;> rw [he]
    · exact List.Subset.refl _
    · exact hh
  simp only [stepAct, hwait, submitGranted]
  split_ifs with hc
  · exact later refused rfl rfl (by simp [Epoch.held]) (by simp)
  · rw [Bool.or_eq_true, not_or, Bool.not_eq_true, Bool.not_eq_true] at hc
    refine later accepted rfl rfl ?_ (by simp)
    simp [Epoch.held, hg hc.1 hc.2]

/-- A shutdown closes the epoch that it takes out of use. -/
theorem shuts_retire (author : Option Nat) (th : Thread ν) (done : ν) {r : Thread ν × World ν}
    (h : r = match w.retire with
      | (none, u) => u.conclude author th done
      | (some e, u) => ({ th with layers := [.drain e 0], wait := .closing e }, u.close e)) :
    Shuts w r.2 e r.1.layers := by
  cases hr : w.running with
  | false =>
    rw [retire_of_stopped hr] at h
    subst h
    exact shuts_conclude hw ho author th done
  | true =>
    obtain ⟨i, hi, hlt⟩ := hw.current_of_running hr
    rw [retire_of_running hr hi] at h
    subst h
    exact shuts_stop hlt ho

/-- An act of a body closes an epoch only by a stop, or as the thread lets go of the pool. -/
theorem shuts_stepAct (author : Option Nat) (th : Thread ν) (act : Act ν)
    (hg : ∀ i k, th.wait = .inLine i k → (w.epoch i).closed = false →
      (w.epoch i).intake.shut = false → (w.epoch i).intake.slot = none) :
    Shuts w (w.stepAct t author th act).2 e (w.stepAct t author th act).1.layers := by
  cases act with
  | deed d => exact shuts_perform hw ho author d
  | pass gate => exact .of_open ho
  | sleep time =>
    refine .of_open ?_
    simp only [stepAct]
    split <;> exact ho
  | submit run abandon accepted refused gone =>
    cases hwait : th.wait with
    | inLine i k =>
      exact shuts_stepAct_granted hw ho author th hwait (hg i k hwait) run abandon accepted refused
        gone
    | _ =>
      exact .of_open (closed_stepAct_submit ho author th (by rw [hwait]; rfl) run abandon accepted
        refused gone)
  | shutdown timeout done late gone =>
    cases hwait : th.wait with
    | closing i =>
      simp only [stepAct, hwait]
      exact shuts_awaitExits hw ho author th i _ timeout done late
    | exits i deadline =>
      simp only [stepAct, hwait]
      exact shuts_awaitExits hw ho author th i deadline timeout done late
    | _ =>
      simp only [stepAct, hwait]
      split
      · exact .of_open ho
      · exact (shuts_retire (hw.aside (.hold w ‹_›)) ho author th done rfl).after rfl rfl
          (List.Subset.refl _) fun _ => id

/-- A step of code closes an epoch only with its drain on top of what is left to do. -/
theorem shuts_stepThread (author : Option Nat) (th : Thread ν)
    (hg : th.layers = [] → ∀ i k, th.wait = .inLine i k → (w.epoch i).closed = false →
      (w.epoch i).intake.shut = false → (w.epoch i).intake.slot = none) :
    Shuts w (w.stepThread t author th).2 e (w.stepThread t author th).1.layers := by
  unfold stepThread
  split
  · split
    · exact .of_open ho
    · exact shuts_stepAct hw ho author th _ (hg ‹_›)
  · exact shuts_stepLayers hw ho th.layers

/-- A client that breaks off its call closes an epoch only as it lets go of the pool. -/
theorem shuts_withdraw (hc : ((w.withdraw t).epoch e).closed = true) :
    ∃ v layers, Sealed w v e layers ∧ t < w.tasks.size ∧
      w.withdraw t = v.setTask t (.client { layers, body := ⟨[], .ok ()⟩ }) := by
  have gone : ∀ {r : List (Layer ν) × World ν} {th : Thread ν}, w.tasks[t]? = some (.client th) →
      Shuts w r.2 e r.1 → (r.2.epoch e).closed = true → ∃ v layers, Sealed w v e layers ∧
        t < w.tasks.size ∧ r.2.setTask t (.client { layers := r.1, body := ⟨[], .ok ()⟩ }) =
          v.setTask t (.client { layers, body := ⟨[], .ok ()⟩ }) :=
    fun ht hs hr => ⟨_, _, hs hr, (Array.getElem?_eq_some_iff.1 ht).1, rfl⟩
  unfold withdraw at hc ⊢
  split at hc
  · rename_i body wait ht
    cases wait with
    | nothing => exact absurd (ho.symm.trans hc) (by decide)
    | alarm => exact absurd (ho.symm.trans hc) (by decide)
    | inLine i k =>
      have left : ((w.giveUp t i k).epoch e).closed = false :=
        (w.modifyEpoch_keeps i _ Epoch.closed rfl e).trans ho
      refine gone ht (((shuts_letGo ((hw.modifyEpoch i rfl).record _) left).after_record
        (by simp)).after rfl (w.modifyEpoch_keeps i _ Epoch.queue rfl e) ?_ fun _ => id) hc
      have hh := w.modifyEpoch_keeps i (fun ep => { ep with intake := ep.intake.leave t })
        Epoch.held (by simp [Epoch.held]) e
      exact hh.symm ▸ List.Subset.refl _
    | closing i => exact gone ht (shuts_letGo hw ho) hc
    | exits i deadline => exact gone ht (shuts_letGo hw ho) hc
  · exact absurd (ho.symm.trans hc) (by decide)

end Code

/-- Shifts put into a task the code that they end with. -/
theorem Shifts.thread?_withThread {a : Option Nat} {th th' : Thread ν} {w' : World ν}
    (h : Shifts t a th w th' w') {task : Task ν} (ht : task.thread? = some th) :
    (task.withThread th').thread? = some th' := by
  induction h generalizing task with
  | refl => rwa [withThread_self ht]
  | head s _ ih =>
    have later := ih (s.thread?_withThread ht)
    rwa [withThread_withThread] at later

/-- In a move from `w` to `u` task `t` has closed epoch `e`: it is about to drain the queues, which
are as they were, before it goes on with the layers below and its body. Nothing was abandoned yet,
and no other task has changed. -/
structure Closes (w u : World ν) (e : EpochId) (t : TaskId) (th : Thread ν)
    (below : List (Layer ν)) : Prop where
  thread : u.thread? t = some th
  layers : th.layers = .drain e 0 :: below
  queue : (u.epoch e).queue = (w.epoch e).queue
  held : (w.epoch e).held ⊆ (u.epoch e).held
  tasks : ∀ i, i ≠ t → u.tasks[i]? = w.tasks[i]?
  abandoned : ∀ k, .abandoned e k ∈ u.occurrences → .abandoned e k ∈ w.occurrences

/-- A task that is set anew after an epoch was closed has closed it. -/
theorem Sealed.closes {task : Task ν} {th : Thread ν} (h : Sealed w v e th.layers)
    (ht : t < w.tasks.size) (hth : task.thread? = some th) :
    ∃ below, Closes w (v.setTask t task) e t th below := by
  obtain ⟨below, hl⟩ := h.layers
  refine ⟨below, thread?_eq_some.2 ⟨task, getElem?_setTask_self _ _ _ (h.tasks ▸ ht), hth⟩, hl,
    h.queue, h.held, fun i hi => ?_, h.abandoned⟩
  rw [getElem?_setTask_of_ne _ _ _ hi, h.tasks]

/-- Code that waits in line goes on in an open epoch only once it has been granted the place. -/
theorem slot_eq_none_of_ready (hl : w.Orderly) {th : Thread ν} (hr : w.threadReady t th = true)
    (hn : th.layers = []) {i : EpochId} {k : Nat} (hwait : th.wait = .inLine i k)
    (ho : (w.epoch i).closed = false) (hs : (w.epoch i).intake.shut = false) :
    (w.epoch i).intake.slot = none := by
  refine (hl i).slot_eq ?_
  simp only [threadReady, hn, List.isEmpty_nil, Bool.not_true, Bool.false_or, bodyReady, hwait, ho,
    hs, Intake.isGrantedTo, beq_iff_eq] at hr
  simp [hr]

/-- A move that closes an epoch is one of a task, which has to drain the epoch next. -/
theorem Move.closes (m : Move w u) (hw : w.Sound) (hl : w.Orderly)
    (ho : (w.epoch e).closed = false) (hc : (u.epoch e).closed = true) :
    ∃ t th below, Closes w u e t th below := by
  have still : u.epoch e ≠ w.epoch e := fun h => by
    rw [h, ho] at hc
    cases hc
  cases m with
  | step t =>
    obtain plain | ⟨task, th, ht, hth, hr, hstep⟩ := w.step_cases t
    · rw [plain.closed, ho] at hc
      cases hc
    · have hlegal := (hw.tasks t task ht).thread th hth
      have shifts := shifts_stepThread (a := task.author?) hw hlegal hr
      rw [hstep] at hc ⊢
      have hsealed := shuts_stepThread hw ho task.author? th
        (fun hn i k => slot_eq_none_of_ready hl hr hn) hc
      exact ⟨t, _, hsealed.closes (Array.getElem?_eq_some_iff.1 ht).1
        (shifts.thread?_withThread hth)⟩
  | withdraw t =>
    obtain ⟨v, layers, hsealed, ht, heq⟩ := shuts_withdraw hw ho hc
    rw [heq]
    exact ⟨t, _, hsealed.closes ht rfl⟩
  | _ => exact absurd rfl still

/-- A task whose code can go on and is not over takes a step of it. -/
theorem step_of_thread {task : Task ν} {th : Thread ν} (ht : w.tasks[t]? = some task)
    (hth : task.thread? = some th) (hr : w.threadReady t th = true) (ho : th.isOver = false) :
    w.ready t = true ∧ w.step t = (w.stepThread t task.author? th).2.setTask t
      (task.withThread (w.stepThread t task.author? th).1) := by
  obtain ⟨home, kind, source, k, rfl⟩ | ⟨home, layers, rfl, rfl⟩ | rfl := Task.thread?_eq_some hth
  · have hready : w.ready t = true := by simpa [ready, ht] using hr
    refine ⟨hready, ?_⟩
    simp only [step, hready, if_true, ht, stepWorker, ho, Bool.false_eq_true, if_false]
    rfl
  · have hready : w.ready t = true := by simp [ready, ht]
    refine ⟨hready, ?_⟩
    cases layers with
    | nil => cases ho
    | cons layer layers =>
      simp only [step, hready, if_true, ht, stepDispatcher]
      rfl
  · have hready : w.ready t = true := by simpa [ready, ht, ho] using hr
    refine ⟨hready, ?_⟩
    simp only [step, hready, if_true, ht]
    rfl

/-- A task with drains or callbacks to do goes on with the innermost of them. -/
theorem step_of_layers {task : Task ν} {th : Thread ν} (ht : w.tasks[t]? = some task)
    (hth : task.thread? = some th) (hl : th.layers ≠ []) :
    w.ready t = true ∧ w.step t = (w.stepLayers th.layers).2.setTask t
      (task.withThread { th with layers := (w.stepLayers th.layers).1 }) := by
  have hne : th.layers.isEmpty = false := by simpa using hl
  have hstep : w.stepThread t task.author? th =
      ({ th with layers := (w.stepLayers th.layers).1 }, (w.stepLayers th.layers).2) := by
    unfold stepThread
    split
    · rename_i h
      exact absurd h hl
    · rfl
  have taken := step_of_thread ht hth (by simp [threadReady, hne]) (by simp [Thread.isOver, hne])
  rwa [hstep] at taken

/-- Whoever makes a move, the task it is about is the only one that it changes. -/
theorem Move.getElem?_tasks (m : Move w u) (hw : w.Sound) (ht : t < w.tasks.size) :
    u.tasks[t]? = w.tasks[t]? ∨ u = w.step t ∨ u = w.withdraw t := by
  cases m with
  | step i =>
    by_cases hi : t = i
    · subst hi
      exact .inr (.inl rfl)
    · exact .inl (getElem?_step_of_ne hw hi ht)
  | withdraw i =>
    by_cases hi : t = i
    · subst hi
      exact .inr (.inr rfl)
    · exact .inl (getElem?_withdraw_of_ne hw hi ht)
  | post code => exact .inl (getElem?_spawn _ _ ht)
  | _ => exact .inl rfl

end World

end WorkerPool
