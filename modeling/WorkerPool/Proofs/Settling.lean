import WorkerPool.Proofs.Onward

/-!
# A pool settles

Whatever code a pool runs, its tasks can take only so many steps before time has to pass: a job is
finite code, so are the callbacks of abandoned jobs, and whatever a start or a submission adds is
paid for by the act that it is. The bound is a weight of the whole world, the work that is left to
do, of which every step takes something away.
-/

namespace WorkerPool

variable {ν : Type}

/-- What the crew of a new epoch may do without any job: each permanent worker begins, leaves its
loop and is over, and the dispatcher begins, looks at its backlog, and goes the same way. -/
def Settings.crewWork (s : Settings) : Nat := 4 * s.minWorkers + 8

section Work

variable (c : Nat)

/-- What the code that is run for an abandoned job may do, where a start adds work of weight `c`. -/
def Script.deedWork (s : Script (Deed ν) Unit) : Nat := (c + 4) * s.acts.length

mutual

/-- What an act may do, with the job that it submits, if it is a submission. -/
def Act.work : Act ν → Nat
  | submit ⟨acts, _⟩ abandon _ _ _ => Act.workAll acts + (c + 4) * abandon.acts.length + (c + 20)
  | _ => c + 20

/-- What acts may do. -/
def Act.workAll : List (Act ν) → Nat
  | [] => 0
  | act :: acts => act.work + Act.workAll acts

end

/-- What a queued job may do, run or abandoned. -/
def Entry.work (x : Entry ν) : Nat := Act.workAll c x.job.run.acts + x.job.abandon.deedWork c + 12

/-- What the jobs of an epoch may do, and its dispatcher because of the intake and of room in the
queues. -/
def Epoch.work (ep : Epoch ν) : Nat :=
  (ep.entries.map (Entry.work c)).sum + 2 * ep.intake.slot.isSome.toNat + 2 * ep.freed.toNat

/-- What a drain or a callback may do; the jobs that a drain abandons count with their epoch. -/
def Layer.work : Layer ν → Nat
  | drain _ _ => 1
  | callback _ code => code.deedWork c + 1

/-- How often an act may still wait for something else. -/
def Wait.work : Wait → Nat
  | nothing => 4
  | alarm _ => 3
  | inLine _ _ => 3
  | closing _ => 2
  | exits _ _ => 1

/-- What running code may do. -/
def Thread.work (th : Thread ν) : Nat :=
  (th.layers.map (Layer.work c)).sum + Act.workAll c th.body.acts + th.wait.work

/-- What a worker may do. -/
def WorkerState.work : WorkerState ν → Nat
  | hired => 4
  | seeded _ x => Act.workAll c x.job.run.acts + 9
  | idle _ => 3
  | busy _ _ thread => thread.work c + 4
  | leaving => 2
  | gone _ => 0

/-- What a dispatcher may do. -/
def DispatcherState.work : DispatcherState ν → Nat
  | hired => 8
  | flushing => 7
  | parked => 6
  | collecting => 4
  | expecting => 3
  | discarding layers => (layers.map (Layer.work c)).sum + 2
  | gone => 0

/-- What a task may do. -/
def Task.work : Task ν → Nat
  | worker _ _ state => state.work c
  | dispatcher _ state => state.work c
  | client thread => thread.work c

end Work

@[simp] theorem Act.workAll_nil (c : Nat) : Act.workAll c ([] : List (Act ν)) = 0 := by
  simp [Act.workAll]

@[simp] theorem Act.workAll_cons (c : Nat) (act : Act ν) (acts : List (Act ν)) :
    Act.workAll c (act :: acts) = act.work c + Act.workAll c acts := by
  simp [Act.workAll]

/-- No act comes for nothing. -/
theorem Act.le_work (c : Nat) (act : Act ν) : c + 20 ≤ act.work c := by
  cases act <;> simp [Act.work]

/-- A submission pays for its job. -/
theorem Act.work_submit (c k : Nat) (run : Script (Act ν) Unit) (abandon : Script (Deed ν) Unit)
    (accepted refused gone : ν) : (submit run abandon accepted refused gone).work c + 12 =
      (⟨k, ⟨run, abandon⟩⟩ : Entry ν).work c + (c + 20) := by
  obtain ⟨acts, ending⟩ := run
  simp only [Act.work, Entry.work, Script.deedWork]
  omega

namespace Epoch

variable (c : Nat) {s : Settings} {ep ep' : Epoch ν} {x : Entry ν} {tier : Tier}

/-- A queue takes the work of its new job. -/
theorem work_of_placed (h : ep.offer s x = .placed tier ep') :
    ep'.work c = ep.work c + x.work c := by
  have hsum := ((perm_entries_of_placed h).map (Entry.work c)).sum_eq
  obtain ⟨_, hf, _, hi, _⟩ := offer_frame h
  simp only [work, hsum, hf, hi, List.map_cons, List.sum_cons]
  omega

/-- So does the intake, and the dispatcher has to look at it. -/
theorem work_put_le (x : Entry ν) :
    ({ ep with intake := ep.intake.put x } : Epoch ν).work c ≤ ep.work c + x.work c + 2 := by
  simp only [work, entries, Intake.put, List.map_append, List.sum_append, Option.toList_some,
    List.map_singleton, List.sum_singleton, Option.isSome_some, Bool.toNat_true]
  omega

/-- A claim hands the work of the job to the worker, and the dispatcher has to look for room. -/
theorem work_of_claim {b : Bool} (h : ep.claim? b = some (tier, x, ep')) :
    ep'.work c + x.work c ≤ ep.work c + 2 := by
  have hsum := ((perm_entries_of_claim h).map (Entry.work c)).sum_eq
  have hi := (claim_frame h).2.2.1
  have := ep'.freed.toNat_le
  simp only [List.map_cons, List.sum_cons] at hsum
  simp only [work, hsum, hi]
  omega

/-- A drain takes the work of the job out. -/
theorem work_of_drain (h : ep.drain? = some (x, ep')) : ep'.work c + x.work c = ep.work c := by
  have hsum := ((perm_entries_of_drain h).map (Entry.work c)).sum_eq
  have hf : ep'.freed = ep.freed := by
    obtain ⟨rest, _, rfl⟩ | ⟨_, rest, _, rfl⟩ := drain?_eq_some.1 h <;> rfl
  have hi := (drain_frame h).2.2.1
  simp only [List.map_cons, List.sum_cons] at hsum
  simp only [work, hsum, hf, hi]
  omega

/-- The dispatcher that takes a job in need not look at the intake for it again. -/
theorem work_of_take {i : Intake (Entry ν)} (h : ep.intake.take? = some (x, i)) :
    ({ ep with intake := i, backlog := ep.backlog ++ [x] } : Epoch ν).work c + 2 = ep.work c := by
  have hsum := ((perm_entries_take h).map (Entry.work c)).sum_eq
  obtain ⟨hs, rfl⟩ := Intake.take?_eq_some.1 h
  simp only [work, hsum, hs, Intake.slot_grantNext, Option.isSome_some, Option.isSome_none,
    Bool.toNat_true, Bool.toNat_false]
  omega

/-- The backlog gives the work of its first job away. -/
theorem work_of_backlog {rest : List (Entry ν)} (h : ep.backlog = x :: rest) :
    ({ ep with backlog := rest } : Epoch ν).work c + x.work c = ep.work c := by
  simp only [work, entries, h, List.map_append, List.sum_append, List.map_cons, List.sum_cons]
  omega

/-- A flush only moves jobs. -/
theorem work_flush (s : Settings) (ep : Epoch ν) : (ep.flush s).epoch.work c = ep.work c := by
  have spec := flushes_flush s ep
  simp only [work, (spec.perm.map (Entry.work c)).sum_eq, spec.intake, spec.freed]

end Epoch

/-- Code that is put into a task counts in place of what the task ran. -/
theorem Task.work_withThread (c : Nat) {task : Task ν} {th : Thread ν} (h : task.thread? = some th)
    {th' : Thread ν} (h' : (task.withThread th').thread? = some th') :
    (task.withThread th').work c + th.work c = task.work c + th'.work c := by
  obtain ⟨_, _, _, _, rfl⟩ | ⟨_, layers, rfl, rfl⟩ | rfl := Task.thread?_eq_some h
  · simp only [Task.withThread, Task.work, WorkerState.work]
    omega
  · simp only [Task.withThread, Task.thread?, Option.some.injEq] at h'
    rw [← h']
    simp only [Task.withThread, Task.work, DispatcherState.work, Thread.work, Act.workAll_nil]
    omega
  · simp only [Task.withThread, Task.work]
    omega

section Waits

variable {th : Thread ν} {rest : List (Act ν)}

/-- Code that has come to a pause waits for the clock, once it has begun to. -/
theorem Thread.Fits.wait_of_sleep {time : Duration} (h : th.Fits)
    (ha : th.body.acts = .sleep time :: rest) : th.wait = .nothing ∨ ∃ d, th.wait = .alarm d := by
  unfold Thread.Fits at h
  split at h <;> simp_all

/-- Code that has come to a submission waits in line, if at all. -/
theorem Thread.Fits.wait_of_submit {run : Script (Act ν) Unit} {abandon : Script (Deed ν) Unit}
    {accepted refused gone : ν} (h : th.Fits)
    (ha : th.body.acts = .submit run abandon accepted refused gone :: rest) :
    th.wait = .nothing ∨ ∃ e k, th.wait = .inLine e k := by
  unfold Thread.Fits at h
  split at h <;> simp_all

/-- Code that has come to a shutdown waits for the drain, then for the tasks of an epoch. -/
theorem Thread.Fits.wait_of_shutdown {timeout : Duration} {done late gone : ν} (h : th.Fits)
    (ha : th.body.acts = .shutdown timeout done late gone :: rest) :
    th.wait = .nothing ∨ (∃ e, th.wait = .closing e) ∨ ∃ e d, th.wait = .exits e d := by
  unfold Thread.Fits at h
  split at h <;> simp_all

end Waits

namespace World

variable {w u : World ν} {t : TaskId} {e : EpochId}

/-- The work that is left to do in a world: by its epochs and by its tasks. -/
def work (w : World ν) : Nat :=
  (w.epochs.toList.map (Epoch.work w.settings.crewWork)).sum +
    w.total (Task.work w.settings.crewWork)

section Sums

variable (w)

@[simp] theorem work_record (o : Occurrence ν) : (w.record o).work = w.work := rfl

@[simp] theorem work_recordAll (os : List (Occurrence ν)) : (w.recordAll os).work = w.work := by
  obtain ⟨journal, h⟩ := w.recordAll_eq os
  rw [h]
  rfl

@[simp] theorem work_log (notice : Notice) : (w.log notice).work = w.work := rfl

@[simp] theorem work_spawn (task : Task ν) :
    (w.spawn task).work = w.work + task.work w.settings.crewWork := by
  simp only [work, total_spawn]
  simp only [spawn]
  omega

variable {w}

theorem work_setTask {old : Task ν} (ht : w.tasks[t]? = some old) (task : Task ν) :
    (w.setTask t task).work + old.work w.settings.crewWork =
      w.work + task.work w.settings.crewWork := by
  have := w.total_setTask (Task.work w.settings.crewWork) ht task
  simp only [work, settings_setTask, epochs_setTask]
  omega

/-- An epoch that is not blank is there. -/
theorem lt_of_ne_blank (h : w.epoch e ≠ {}) : e < w.epochs.size := by
  by_contra hn
  exact h (w.epoch_of_size_le e (Nat.not_lt.1 hn))

/-- A change of an epoch changes the work that is left to do in that epoch. -/
theorem work_modifyEpoch (he : e < w.epochs.size) (f : Epoch ν → Epoch ν) :
    (w.modifyEpoch e f).work + (w.epoch e).work w.settings.crewWork =
      w.work + (f (w.epoch e)).work w.settings.crewWork := by
  have hget : w.epochs.toList[e]? = some (w.epoch e) := by simp [epoch, he]
  have hsum := sum_map_set (Epoch.work w.settings.crewWork) (f (w.epoch e)) hget
  have hset : (w.modifyEpoch e f).epochs.toList = w.epochs.toList.set e (f (w.epoch e)) := by
    simp [modifyEpoch, List.modify_eq_set_getElem?, hget]
  simp only [work, settings_modifyEpoch, hset]
  rw [show (w.modifyEpoch e f).total = w.total from rfl]
  omega

/-- A change that leaves an epoch no more work than it had adds none. -/
theorem work_modifyEpoch_le {n : Nat} {f : Epoch ν → Epoch ν}
    (h : (f (w.epoch e)).work w.settings.crewWork ≤ (w.epoch e).work w.settings.crewWork + n) :
    (w.modifyEpoch e f).work ≤ w.work + n := by
  by_cases he : e < w.epochs.size
  · have := w.work_modifyEpoch he f
    omega
  · have hsame : w.modifyEpoch e f = w := by
      have hmod : w.epochs.modify e f = w.epochs := by
        apply Array.ext'
        simp [List.modify_eq_set_getElem?, Nat.not_lt.1 he]
      rw [modifyEpoch, hmod]
    rw [hsame]
    omega

/-- A new epoch brings the work of its crew. -/
theorem work_launch : w.launch.work ≤ w.work + w.settings.crewWork := by
  have blank : (({} : Epoch ν).work w.settings.crewWork) = 0 := rfl
  have crewed : ((crew w.settings w.epochs.size : List (Task ν)).map
      (Task.work w.settings.crewWork)).sum ≤ w.settings.crewWork := by
    have hperm : ((List.range w.settings.minWorkers).map fun i => Task.work w.settings.crewWork
        (.worker w.epochs.size (.permanent i) .hired : Task ν)).sum =
          4 * w.settings.minWorkers := by
      simp [Task.work, WorkerState.work, Nat.mul_comm]
    simp only [crew, List.map_append, List.sum_append, List.map_map, Function.comp_def, hperm]
    split_ifs <;> simp [Task.work, DispatcherState.work, Settings.crewWork]
  rw [launch_eq]
  simp only [work, total, Array.toList_push, Array.toList_append, List.map_append, List.sum_append,
    List.map_singleton, List.sum_singleton, blank]
  omega

@[simp] theorem work_callHook (w : World ν) (e : EpochId) (t : TaskId) (call : HookCall) :
    (w.callHook e t call).2.work = w.work := by
  obtain ⟨n, hn⟩ := w.callHook_eq e t call
  rw [hn]
  exact w.work_recordAll _

end Sums

/-- What drains and callbacks may do. -/
def layersWork (w : World ν) (layers : List (Layer ν)) : Nat :=
  (layers.map (Layer.work w.settings.crewWork)).sum

@[simp] theorem layersWork_nil (w : World ν) : w.layersWork [] = 0 := rfl

@[simp] theorem layersWork_cons (w : World ν) (layer : Layer ν) (layers : List (Layer ν)) :
    w.layersWork (layer :: layers) = layer.work w.settings.crewWork + w.layersWork layers := by
  simp [layersWork]

@[simp] theorem layersWork_append (w : World ν) (layers layers' : List (Layer ν)) :
    w.layersWork (layers ++ layers') = w.layersWork layers + w.layersWork layers' := by
  simp [layersWork]

section Code

variable {a : Option Nat} {th : Thread ν}

/-- Closing an epoch brings no work. -/
theorem work_close (w : World ν) (e : EpochId) : (w.close e).work ≤ w.work := by
  have same : (({ w.epoch e with closed := true } : Epoch ν)).work w.settings.crewWork ≤
      (w.epoch e).work w.settings.crewWork + 0 := Nat.le_refl _
  rw [close, work_record]
  exact work_modifyEpoch_le (f := fun ep => { ep with closed := true }) same

/-- A stop leaves one drain to do. -/
theorem work_halt (w : World ν) : w.layersWork w.halt.1 + w.halt.2.work ≤ w.work + 1 := by
  have idle : ∀ {u : World ν}, u.work = w.work → w.layersWork [] + u.work ≤ w.work + 1 := by
    intro u hu
    simp only [layersWork_nil]
    omega
  have hretire : w.retire.2.work = w.work := by
    unfold retire
    split <;> rfl
  unfold halt
  rcases hr : w.retire with ⟨_ | e, u⟩ <;>
    replace hretire : u.work = w.work := by simpa [hr] using hretire
  · exact idle hretire
  · have := u.work_close e
    simp only [layersWork_cons, layersWork_nil, Layer.work]
    omega

theorem work_letGo (w : World ν) : w.layersWork w.letGo.1 + w.letGo.2.work ≤ w.work + 1 := by
  unfold letGo
  split
  · simp
  · exact work_halt { w with handles := 0 }
  · simp only [layersWork_nil, Nat.zero_add]
    exact Nat.le_succ _

/-- A deed pays for what comes of it. -/
theorem work_perform (w : World ν) (a : Option Nat) (d : Deed ν) :
    w.layersWork (w.perform a d).1 + (w.perform a d).2.work <
      w.work + (w.settings.crewWork + 4) := by
  cases d with
  | note | log =>
    simp only [perform, layersWork_nil, work_record]
    omega
  | start =>
    have := w.work_launch
    simp only [perform, start]
    split_ifs <;> simp only [layersWork_nil] <;> omega
  | stop =>
    have := w.work_halt
    simp only [perform]
    split_ifs
    · simp only [layersWork_nil]
      omega
    · omega
  | hold =>
    have held : ({ w with handles := w.handles + 1 } : World ν).work = w.work := rfl
    simp only [perform, layersWork_nil]
    split_ifs <;> omega
  | drop =>
    have := w.work_letGo
    simp only [perform]
    omega

/-- So does everything else that drains and callbacks do. -/
theorem work_stepLayers (w : World ν) {layers : List (Layer ν)} (hl : layers ≠ []) :
    w.layersWork (w.stepLayers layers).1 + (w.stepLayers layers).2.work <
      w.layersWork layers + w.work := by
  rcases layers with _ | ⟨⟨e, n⟩ | ⟨k, _ | ⟨d, ds⟩, _ | p⟩, rest⟩
  · exact absurd rfl hl
  · simp only [stepLayers]
    split
    · rename_i x ep hd
      have he := lt_of_ne_blank fun hb : w.epoch e = {} => by simp [hb, Epoch.drain?] at hd
      have := w.work_modifyEpoch he fun _ => ep
      have := Epoch.work_of_drain w.settings.crewWork hd
      simp only [layersWork_cons, Layer.work, work_record, Entry.work] at *
      omega
    · dsimp only
      split_ifs <;> simp only [layersWork_cons, Layer.work, work_log] <;> omega
  · simp only [stepLayers, layersWork_cons, Layer.work, work_log]
    omega
  · simp only [stepLayers, layersWork_cons, Layer.work]
    omega
  all_goals
    have := w.work_perform (some k) d
    simp only [stepLayers, layersWork_append, layersWork_cons, Layer.work, Script.deedWork,
      List.length_cons, Nat.mul_succ] at *
    omega

/-- An answer costs no more than the act that it answers. -/
theorem work_conclude (w : World ν) (a : Option Nat) (th : Thread ν) (n : ν) :
    (w.conclude a th n).1.work w.settings.crewWork + (w.conclude a th n).2.work ≤
      w.work + Act.workAll w.settings.crewWork th.body.acts.tail + 5 := by
  have := (w.record (.note a n)).work_letGo
  simp only [conclude, Thread.next, Thread.work, Wait.work, layersWork, work_record,
    settings_record] at *
  omega

/-- A change of the epoch `e` that adds no more than `n` to its work, followed by an occurrence. -/
theorem work_modifyEpoch_record_le {n : Nat} {f : Epoch ν → Epoch ν} (o : Occurrence ν)
    (h : (f (w.epoch e)).work w.settings.crewWork ≤ (w.epoch e).work w.settings.crewWork + n) :
    ((w.modifyEpoch e f).record o).work ≤ w.work + n := by
  rw [work_record]
  exact work_modifyEpoch_le h

theorem work_hire (w : World ν) (e : EpochId) (x : Entry ν) :
    (w.hire e x).work ≤ w.work + x.work w.settings.crewWork := by
  have more : (w.modifyEpoch e fun ep => { ep with temps := ep.temps + 1 }).work ≤ w.work + 0 :=
    work_modifyEpoch_le (Nat.le_refl _ : _ ≤ (w.epoch e).work w.settings.crewWork + 0)
  simp only [hire, work_spawn, work_record, settings_record, settings_modifyEpoch, Task.work,
    WorkerState.work, Entry.work]
  omega

theorem work_handOver (w : World ν) (e : EpochId) (x : Entry ν) :
    (w.handOver e x).work ≤ w.work + (x.work w.settings.crewWork + 2) :=
  work_modifyEpoch_record_le (f := fun ep => { ep with intake := ep.intake.put x }) _
    (Epoch.work_put_le _ x)

/-- A line brings no work. -/
theorem work_join (w : World ν) (t : TaskId) (e : EpochId) :
    (w.modifyEpoch e fun ep => { ep with intake := ep.intake.join t }).work ≤ w.work := by
  have same : ({ w.epoch e with intake := (w.epoch e).intake.join t } : Epoch ν).work
      w.settings.crewWork ≤ (w.epoch e).work w.settings.crewWork + 0 := Nat.le_refl _
  exact work_modifyEpoch_le (f := fun ep => { ep with intake := ep.intake.join t }) same

/-- A submission brings the work of its job, wherever it puts it. -/
theorem work_submit (w : World ν) (t : TaskId) (x : Entry ν) :
    (w.submit t x).2.work ≤ w.work + (x.work w.settings.crewWork + 2) := by
  unfold submit
  split
  · exact Nat.le_add_right ..
  · rename_i e _
    split
    · rename_i ep hoffer
      have placed := Epoch.work_of_placed w.settings.crewWork hoffer
      exact work_modifyEpoch_record_le _ (by omega)
    · exact Nat.le_add_right ..
    · have hired := w.work_hire e x
      split
      · dsimp only
        omega
      · split_ifs
        · dsimp only
          omega
        · exact w.work_handOver e x
        · exact (w.work_join t e).trans (Nat.le_add_right ..)

theorem settings_submit (w : World ν) (t : TaskId) (x : Entry ν) :
    (w.submit t x).2.settings = w.settings := by
  unfold submit
  split
  · rfl
  · split
    · rfl
    · rfl
    · split
      · rfl
      · split_ifs <;> rfl

theorem settings_submitGranted (w : World ν) (t : TaskId) (e : EpochId) (x : Entry ν) :
    (w.submitGranted t e x).2.settings = w.settings := by
  unfold submitGranted
  split_ifs <;> rfl

/-- A submission that has to wait brings no work yet. -/
theorem work_of_waits {x : Entry ν} {u : World ν} (h : w.submit t x = (.waits e, u)) :
    u.work ≤ w.work := by
  unfold submit at h
  split at h
  · cases h
  · split at h
    · cases h
    · cases h
    · split at h
      · cases h
      · split_ifs at h
        · cases h
        · cases h
        · cases h
          exact w.work_join t e

theorem work_giveUp (w : World ν) (t : TaskId) (e : EpochId) (k : Nat) :
    (w.giveUp t e k).work ≤ w.work := by
  have same : ({ w.epoch e with intake := (w.epoch e).intake.leave t } : Epoch ν).work
      w.settings.crewWork ≤ (w.epoch e).work w.settings.crewWork + 0 := by
    simp [Epoch.work, Epoch.entries]
  exact work_modifyEpoch_record_le (f := fun ep => { ep with intake := ep.intake.leave t }) _ same

theorem work_submitGranted (w : World ν) (t : TaskId) (e : EpochId) (x : Entry ν) :
    (w.submitGranted t e x).2.work ≤ w.work + (x.work w.settings.crewWork + 2) := by
  unfold submitGranted
  split_ifs
  · exact (w.work_giveUp t e x.ticket).trans (Nat.le_add_right ..)
  · exact w.work_handOver e x

variable {t : TaskId} {a : Option Nat} {th : Thread ν}

/-- What code may do that is about to do an act: the act, what follows it, and waiting. -/
theorem work_of_acts (c : Nat) (th : Thread ν) (hl : th.layers = []) {act : Act ν}
    {rest : List (Act ν)} (ha : th.body.acts = act :: rest) :
    th.work c = act.work c + Act.workAll c rest + th.wait.work := by
  simp [Thread.work, hl, ha]

/-- What it may do once the act is done. -/
theorem work_next (c : Nat) (hl : th.layers = []) {act : Act ν} {rest : List (Act ν)}
    (ha : th.body.acts = act :: rest) : th.next.work c = Act.workAll c rest + 4 := by
  simp [Thread.work, Thread.next, hl, ha, Wait.work]

/-- Code that has its answer leaves the rest of the body, and at most a drain. -/
theorem work_conclude_le {act : Act ν} {rest : List (Act ν)} (ha : th.body.acts = act :: rest)
    (hset : u.settings = w.settings) {n : Nat} (hn : u.work ≤ w.work + n) (answer : ν) :
    (u.conclude a th answer).1.work w.settings.crewWork + (u.conclude a th answer).2.work ≤
      w.work + n + Act.workAll w.settings.crewWork rest + 5 := by
  have := u.work_conclude a th answer
  rw [hset, ha, List.tail_cons] at this
  omega

/-- A submission pays for its job, or it goes on to wait in line. -/
theorem work_stepAct_submit (hf : th.Fits) (hl : th.layers = []) {run : Script (Act ν) Unit}
    {abandon : Script (Deed ν) Unit} {accepted refused gone : ν} {rest : List (Act ν)}
    (ha : th.body.acts = .submit run abandon accepted refused gone :: rest) :
    (w.stepAct t a th (.submit run abandon accepted refused gone)).1.work w.settings.crewWork +
        (w.stepAct t a th (.submit run abandon accepted refused gone)).2.work <
      w.work + th.work w.settings.crewWork := by
  have before := work_of_acts w.settings.crewWork th hl ha
  have bill (k : Nat) := Act.work_submit w.settings.crewWork k run abandon accepted refused gone
  have answered {k : Nat} {u : World ν} (hset : u.settings = w.settings) (hu : u.work ≤ w.work +
      ((⟨k, ⟨run, abandon⟩⟩ : Entry ν).work w.settings.crewWork + 2)) (answer : ν) :
      (u.conclude a th answer).1.work w.settings.crewWork + (u.conclude a th answer).2.work <
        w.work + th.work w.settings.crewWork := by
    have := bill k
    have := work_conclude_le (a := a) ha hset hu answer
    omega
  obtain h | ⟨e, k, h⟩ := hf.wait_of_submit ha
  · by_cases hh : w.handles = 0
    · have := work_next w.settings.crewWork hl ha
      have := bill 0
      simp only [stepAct, h, if_pos hh, work_record]
      omega
    · have hline : th.wait.line? = none := by rw [h]; rfl
      let v := ({ w with handles := w.handles + 1 } : World ν).draw ⟨run, abandon⟩
      have paid : (v.submit t ⟨w.nextTicket, ⟨run, abandon⟩⟩).2.work ≤ w.work + _ :=
        v.work_submit t _
      have hset : (v.submit t ⟨w.nextTicket, ⟨run, abandon⟩⟩).2.settings = w.settings :=
        v.settings_submit t _
      rcases hs : v.submit t ⟨w.nextTicket, ⟨run, abandon⟩⟩ with ⟨answer, u⟩
      rw [hs] at paid hset
      cases answer with
      | accepted =>
        rw [stepAct_submit accepted refused gone hline hh hs (.inl ⟨rfl, rfl⟩)]
        exact answered hset paid accepted
      | refused =>
        rw [stepAct_submit accepted refused gone hline hh hs (.inr (.inl ⟨rfl, rfl⟩))]
        exact answered hset paid refused
      | waits e =>
        rw [stepAct_submit accepted refused gone hline hh hs (.inr (.inr ⟨e, rfl, rfl⟩))]
        have unchanged : u.work ≤ w.work := v.work_of_waits hs
        have inLine := work_of_acts w.settings.crewWork { th with wait := .inLine e w.nextTicket }
          hl ha
        simp only [h, Wait.work] at before inLine ⊢
        omega
  · have paid := w.work_submitGranted t e ⟨k, ⟨run, abandon⟩⟩
    have hset := w.settings_submitGranted t e ⟨k, ⟨run, abandon⟩⟩
    simp only [stepAct, h]
    rcases hg : w.submitGranted t e ⟨k, ⟨run, abandon⟩⟩ with ⟨answer, u⟩
    rw [hg] at paid hset
    cases answer <;> exact answered hset paid _

/-- A shutdown goes on to its drain, then to the wait for the tasks, then to its answer. -/
theorem work_stepAct_shutdown (hf : th.Fits) (hl : th.layers = []) {timeout : Duration}
    {done late gone : ν} {rest : List (Act ν)}
    (ha : th.body.acts = .shutdown timeout done late gone :: rest)
    (hr : w.bodyReady t th = true) :
    (w.stepAct t a th (.shutdown timeout done late gone)).1.work w.settings.crewWork +
        (w.stepAct t a th (.shutdown timeout done late gone)).2.work <
      w.work + th.work w.settings.crewWork := by
  have cost := (Act.shutdown timeout done late gone).le_work w.settings.crewWork
  have before := work_of_acts w.settings.crewWork th hl ha
  have awaits {e : EpochId} {d : Nat} (h : w.deserted e = true ∨ d ≤ w.clock ∨
      th.wait = .closing e) : (w.awaitExits a th e d timeout done late).1.work
        w.settings.crewWork + (w.awaitExits a th e d timeout done late).2.work <
          w.work + th.work w.settings.crewWork := by
    unfold awaitExits
    split_ifs with hd hl'
    · have := work_conclude_le (w := w) (u := w.log .shutdownComplete) (n := 0) (a := a) ha rfl
        (Nat.le_refl _) done
      omega
    · have := work_conclude_le (w := w) (u := w.log (.shutdownTimedOut timeout)) (n := 0) (a := a)
        ha rfl (Nat.le_refl _) late
      omega
    · have exits := work_of_acts w.settings.crewWork { th with wait := .exits e d } hl ha
      have hwait := (h.resolve_left hd).resolve_left hl'
      simp only [hwait, Wait.work] at before exits ⊢
      omega
  obtain h | ⟨e, h⟩ | ⟨e, d, h⟩ := hf.wait_of_shutdown ha
  · by_cases hh : w.handles = 0
    · have := work_next w.settings.crewWork hl ha
      simp only [stepAct, h, if_pos hh, work_record]
      omega
    · have hv : ({ w with handles := w.handles + 1 } : World ν).retire.2.work = w.work ∧
          ({ w with handles := w.handles + 1 } : World ν).retire.2.settings = w.settings := by
        unfold retire
        split_ifs <;> exact ⟨rfl, rfl⟩
      simp only [stepAct, h, if_neg hh]
      rcases hr' : ({ w with handles := w.handles + 1 } : World ν).retire with ⟨_ | e, u⟩
      · rw [hr'] at hv
        have := work_conclude_le (u := u) (a := a) (n := 0) ha hv.2 hv.1.le done
        dsimp only
        omega
      · rw [hr'] at hv
        have := u.work_close e
        have drains : ({ th with layers := [.drain e 0], wait := .closing e } : Thread ν).work
            w.settings.crewWork + 1 = th.work w.settings.crewWork := by
          simp only [Thread.work, hl, h, List.map_cons, List.map_nil, List.sum_cons, List.sum_nil,
            Layer.work, Wait.work]
          omega
        dsimp only at hv ⊢
        omega
  · simp only [stepAct, h]
    exact awaits (.inr (.inr h))
  · simp only [stepAct, h]
    exact awaits ((by simpa [bodyReady, h] using hr : w.deserted e = true ∨ d ≤ w.clock).imp_right
      .inl)

/-- An act takes away from the work of the body that has come to it. -/
theorem work_stepAct (hf : th.Fits) (hl : th.layers = []) {act : Act ν} {rest : List (Act ν)}
    (ha : th.body.acts = act :: rest) (hr : w.bodyReady t th = true) :
    (w.stepAct t a th act).1.work w.settings.crewWork + (w.stepAct t a th act).2.work <
      w.work + th.work w.settings.crewWork := by
  have cost := act.le_work w.settings.crewWork
  have before := work_of_acts w.settings.crewWork th hl ha
  have next := work_next w.settings.crewWork hl ha
  cases act with
  | deed d =>
    have := w.work_perform a d
    have after (layers : List (Layer ν)) : ({ th.next with layers } : Thread ν).work
        w.settings.crewWork = w.layersWork layers + Act.workAll w.settings.crewWork rest + 4 := by
      simp [Thread.work, Thread.next, ha, Wait.work, layersWork]
    simp only [stepAct, after]
    omega
  | pass gate =>
    have gated : ({ w with gates := w.gates.take gate } : World ν).work = w.work := rfl
    simp only [stepAct, next, gated]
    omega
  | sleep time =>
    obtain h | ⟨d, h⟩ := hf.wait_of_sleep ha
    · have asleep := work_of_acts w.settings.crewWork { th with wait := .alarm (w.deadline time) }
        hl ha
      simp only [stepAct, h, Wait.work] at before asleep ⊢
      omega
    · simp only [stepAct, h, next]
      omega
  | submit => exact work_stepAct_submit hf hl ha
  | shutdown => exact work_stepAct_shutdown hf hl ha hr

/-- A step of code that is not over takes away from its work. -/
theorem work_stepThread (hf : th.Fits) (ho : th.isOver = false) (hr : w.threadReady t th = true) :
    (w.stepThread t a th).1.work w.settings.crewWork + (w.stepThread t a th).2.work <
      w.work + th.work w.settings.crewWork := by
  unfold stepThread
  split
  · rename_i hl
    split
    · rename_i ha
      simp [Thread.isOver, hl, ha] at ho
    · rename_i act rest ha
      exact work_stepAct hf hl ha (by simpa [threadReady, hl] using hr)
  · rename_i hl
    have := w.work_stepLayers hl
    simp only [Thread.work, layersWork] at this ⊢
    omega

end Code

section Tasks

variable {old : Task ν} {kind : WorkerKind}

/-- A task that is over gives up what it had left to do. -/
theorem work_leave (ht : w.tasks[t]? = some old) (task : Task ν)
    (hover : task.work w.settings.crewWork = 0) (crashed : Bool) :
    (w.leave t task crashed).work + old.work w.settings.crewWork = w.work := by
  have := work_setTask ht task
  rw [leave, work_record]
  omega

theorem work_dismiss (ht : w.tasks[t]? = some old) (e : EpochId) (kind : WorkerKind)
    (crashed : Bool) :
    (w.dismiss t e kind crashed).work + old.work w.settings.crewWork = w.work :=
  work_leave ht (.worker e kind (.gone crashed)) rfl crashed

theorem work_rest (ht : w.tasks[t]? = some old) (e : EpochId) (kind : WorkerKind)
    (source : Source) :
    (w.rest t e kind source).work + old.work w.settings.crewWork ≤ w.work + 3 := by
  have idle (alarm : Option Nat) : (w.setTask t (.worker e kind (.idle alarm))).work +
      old.work w.settings.crewWork = w.work + 3 := work_setTask ht _
  unfold rest
  split
  · exact (idle none).le
  · exact (idle _).le
  · split
    · exact (idle _).le
    · have := work_dismiss ht e .temporary true
      omega

/-- What a call of the hook leaves as it was. -/
theorem work_callHook_frame (w : World ν) (e : EpochId) (t : TaskId) (call : HookCall) :
    (w.callHook e t call).2.tasks = w.tasks ∧ (w.callHook e t call).2.settings = w.settings ∧
      (w.callHook e t call).2.work = w.work := by
  refine ⟨?_, ?_, w.work_callHook e t call⟩ <;>
  · obtain ⟨n, hn⟩ := w.callHook_eq e t call
    rw [hn]
    simp

theorem work_finish (ht : w.tasks[t]? = some old) (e : EpochId) (kind : WorkerKind)
    (source : Source) (k : Nat) (ending : Except Panic Unit) :
    (w.finish t e kind source k ending).work + old.work w.settings.crewWork ≤ w.work + 3 := by
  unfold finish
  split
  · exact work_rest (w := w.record _) ht e kind source
  · rename_i p
    obtain ⟨htasks, hset, hwork⟩ := work_callHook_frame ((w.record (.finished e k (.error p))).log
      (.jobPanicked p.message)) e t (.panicked p.message)
    dsimp only
    rcases hh : callHook _ e t (.panicked p.message) with ⟨crashed, u⟩
    rw [hh] at htasks hset hwork
    have ht' : u.tasks[t]? = some old := htasks ▸ ht
    replace hset : u.settings = w.settings := hset
    replace hwork : u.work = w.work := hwork
    cases crashed with
    | true =>
      have := work_dismiss ht' e kind true
      rw [hset] at this
      dsimp only
      omega
    | false =>
      have := work_rest ht' e kind source
      rw [hset] at this
      dsimp only
      omega

/-- A task goes on with less work, whatever else it has done. -/
theorem work_setTask_lt (ht : u.tasks[t]? = some old) (hset : u.settings = w.settings)
    {task : Task ν} (h : u.work + task.work w.settings.crewWork <
      w.work + old.work w.settings.crewWork) : (u.setTask t task).work < w.work := by
  have := work_setTask ht task
  rw [hset] at this
  omega

theorem work_stepIdle {alarm : Option Nat}
    (ht : w.tasks[t]? = some (.worker e kind (.idle alarm))) (hr : w.ready t = true) :
    (w.stepIdle t e kind alarm).work < w.work := by
  have leaves {u : World ν} (htasks : u.tasks = w.tasks) (hset : u.settings = w.settings)
      (hu : u.work = w.work) : (u.setTask t (.worker e kind .leaving)).work < w.work :=
    work_setTask_lt (htasks ▸ ht) hset (by simp [hu, Task.work, WorkerState.work])
  unfold stepIdle
  split
  · exact leaves rfl rfl rfl
  · rename_i hopen
    split
    · rename_i tier x ep hclaim
      have claimed := Epoch.work_of_claim w.settings.crewWork hclaim
      have he := lt_of_ne_blank fun hb : w.epoch e = {} => by
        rw [hb] at hclaim
        cases kind <;> cases hclaim
      have := w.work_modifyEpoch he fun _ => ep
      rw [assign, work_record]
      refine work_setTask_lt (w := w) (u := w.modifyEpoch e fun _ => ep) ht rfl ?_
      simp only [Task.work, WorkerState.work, Thread.work, Wait.work, Entry.work, List.map_nil,
        List.sum_nil] at claimed ⊢
      omega
    · rename_i hclaim
      have hwork := (w.epoch e).isSome_claim? (kind != .temporary)
      rw [hclaim, Option.isSome_none] at hwork
      have halarm : alarm.any (· ≤ w.clock) = true := by
        simpa [ready, ht, hopen, ← hwork] using hr
      rw [if_pos halarm]
      exact leaves rfl rfl rfl

theorem work_stepLeaving (ht : w.tasks[t]? = some (.worker e kind .leaving)) :
    (w.stepLeaving t e kind).work < w.work := by
  cases kind with
  | permanent i =>
    have := work_dismiss (w := w.log (.permanentStopped i)) ht e (.permanent i) false
    simp only [World.log, work_record, Task.work, WorkerState.work] at this
    simp only [stepLeaving, World.log]
    omega
  | temporary =>
    have same : ({ w.epoch e with temps := (w.epoch e).temps - 1 } : Epoch ν).work
        w.settings.crewWork ≤ (w.epoch e).work w.settings.crewWork + 0 := Nat.le_refl _
    have left := work_modifyEpoch_le (f := fun ep => { ep with temps := ep.temps - 1 }) same
    have hstep : ∃ (v : World ν) (crashed : Bool), v.tasks = w.tasks ∧ v.settings = w.settings ∧
        v.work ≤ w.work ∧ w.stepLeaving t e .temporary = v.dismiss t e .temporary crashed := by
      let v := w.modifyEpoch e fun ep => { ep with temps := ep.temps - 1 }
      obtain ⟨htasks, hset, hwork⟩ := work_callHook_frame (v.log (.tempLeft (v.epoch e).temps)) e t
        (.leave (v.epoch e).temps)
      exact ⟨_, _, htasks, hset, hwork.le.trans left, rfl⟩
    obtain ⟨v, crashed, htasks, hset, hwork, hstep⟩ := hstep
    have := work_dismiss (htasks ▸ ht) e .temporary crashed
    rw [hset] at this
    simp only [Task.work, WorkerState.work] at this
    rw [hstep]
    omega

/-- A worker that does not run the code of a job takes a step towards its end. -/
theorem work_stepWorker {state : WorkerState ν}
    (ht : w.tasks[t]? = some (.worker e kind state)) (hr : w.ready t = true)
    (hover : ∀ source k th, state = .busy source k th → th.isOver = true) :
    (w.stepWorker t e kind state).work < w.work := by
  cases state with
  | hired =>
    cases kind with
    | permanent i => exact work_setTask_lt ht rfl (by simp [Task.work, WorkerState.work])
    | temporary => exact work_setTask_lt ht rfl (by simp [Task.work, WorkerState.work])
  | seeded live x =>
    obtain ⟨htasks, hset, hwork⟩ := w.work_callHook_frame e t (.join live)
    simp only [stepWorker]
    rcases hh : w.callHook e t (.join live) with ⟨crashed, u⟩
    rw [hh] at htasks hset hwork
    dsimp only at htasks hset hwork
    have ht' : u.tasks[t]? = some (.worker e kind (.seeded live x)) := htasks ▸ ht
    cases crashed with
    | true =>
      have := work_dismiss (w := u.record (.lost e x.ticket t)) ht' e kind true
      simp only [settings_record, work_record, Task.work, WorkerState.work] at this
      dsimp only
      omega
    | false =>
      dsimp only
      rw [assign, work_record]
      refine work_setTask_lt (u := u.log _) ht' hset ?_
      simp only [work_log, hwork, Task.work, WorkerState.work, Thread.work, Wait.work, List.map_nil,
        List.sum_nil]
      omega
  | idle alarm => exact work_stepIdle ht hr
  | busy source k th =>
    have := work_finish ht e kind source k th.body.ending
    simp only [Task.work, WorkerState.work] at this
    simp only [stepWorker, if_pos (hover source k th rfl)]
    omega
  | leaving => exact work_stepLeaving ht
  | gone crashed => simp [ready, ht] at hr

/-- A dispatcher that shuts its intake has come farther than it was while it served. -/
theorem work_shutIntake_lt {u : World ν} {state : DispatcherState ν}
    (ht : u.tasks[t]? = some (.dispatcher e state)) (hset : u.settings = w.settings)
    (hu : u.work ≤ w.work) (hs : 4 < (Task.dispatcher e state : Task ν).work w.settings.crewWork) :
    (u.shutIntake t e).work < w.work := by
  have same : ({ u.epoch e with intake := (u.epoch e).intake.close } : Epoch ν).work
      u.settings.crewWork ≤ (u.epoch e).work u.settings.crewWork + 0 := Nat.le_refl _
  have closed := work_modifyEpoch_le (f := fun ep => { ep with intake := ep.intake.close }) same
  refine work_setTask_lt (u := u.modifyEpoch e _) ht hset ?_
  simp only [Task.work, DispatcherState.work] at hs ⊢
  omega

/-- A job that a dispatcher takes in has come farther. -/
theorem work_takeIn {x : Entry ν} {i : Intake (Entry ν)}
    (h : (w.epoch e).intake.take? = some (x, i)) : (w.takeIn e x i).work + 2 = w.work := by
  have he := lt_of_ne_blank fun hb : w.epoch e = {} => by simp [hb, Intake.take?] at h
  have := w.work_modifyEpoch he fun ep => { ep with intake := i, backlog := ep.backlog ++ [x] }
  have := Epoch.work_of_take w.settings.crewWork h
  rw [takeIn, work_record]
  omega

theorem work_stepFlushing (ht : w.tasks[t]? = some (.dispatcher e .flushing)) :
    (w.stepFlushing t e).work < w.work := by
  have moved : (w.modifyEpoch e fun _ => ((w.epoch e).flush w.settings).epoch).work ≤ w.work + 0 :=
    work_modifyEpoch_le (Epoch.work_flush ..).le
  simp only [stepFlushing_eq]
  split
  · refine work_setTask_lt (by simpa using ht) (by simp) ?_
    simp only [work_recordAll, Task.work, DispatcherState.work]
    omega
  · exact work_shutIntake_lt (by simpa using ht) (by simp) (by simpa using moved)
      (by simp [Task.work, DispatcherState.work])

theorem work_stepParked (ht : w.tasks[t]? = some (.dispatcher e .parked))
    (hr : w.ready t = true) : (w.stepParked t e).work < w.work := by
  unfold stepParked
  split
  · exact work_shutIntake_lt ht rfl (Nat.le_refl _) (by simp [Task.work, DispatcherState.work])
  · rename_i hopen
    split
    · rename_i hfreed
      obtain ⟨hfreed, -⟩ : (w.epoch e).freed = true ∧ _ := by simpa using hfreed
      have he := lt_of_ne_blank fun hb : w.epoch e = {} => by simp [hb] at hfreed
      have := w.work_modifyEpoch he fun ep => { ep with freed := false }
      have noticed : ({ w.epoch e with freed := false } : Epoch ν).work w.settings.crewWork + 2 =
          (w.epoch e).work w.settings.crewWork := by
        simp only [Epoch.work, Epoch.entries, hfreed, Bool.toNat_true, Bool.toNat_false]
      refine work_setTask_lt (w := w) (u := w.modifyEpoch e _) ht rfl ?_
      simp only [Task.work, DispatcherState.work] at *
      omega
    · rename_i hbusy
      split
      · rename_i x i hi
        refine work_setTask_lt (w := w) (u := w.takeIn e x i) ht rfl ?_
        have := work_takeIn hi
        simp only [Task.work, DispatcherState.work]
        omega
      · rename_i hnone
        have hslot : (w.epoch e).intake.slot = none := by simpa [Intake.take?] using hnone
        simp [ready, ht, hopen, hslot, hbusy] at hr

theorem work_stepCollecting {state : DispatcherState ν}
    (ht : w.tasks[t]? = some (.dispatcher e state))
    (hs : state = .collecting ∨ state = .expecting) (hr : w.ready t = true) :
    (w.stepCollecting t e).work < w.work := by
  have weight : 3 ≤ (Task.dispatcher e state).work w.settings.crewWork := by
    obtain rfl | rfl := hs <;> simp [Task.work, DispatcherState.work]
  unfold stepCollecting
  split
  · rename_i x i hi
    refine work_setTask_lt (w := w) (u := w.takeIn e x i) ht rfl ?_
    have := work_takeIn hi
    simp only [Task.work, DispatcherState.work] at weight ⊢
    omega
  · rename_i hnone
    have hslot : (w.epoch e).intake.slot = none := by simpa [Intake.take?] using hnone
    obtain rfl | rfl := hs
    · split
      · dsimp only
        split
        · exact work_setTask_lt ht rfl (by simp [Task.work, DispatcherState.work])
        · exact work_setTask_lt (u := w.log _) ht rfl (by simp [Task.work, DispatcherState.work])
      · exact work_setTask_lt ht rfl (by simp [Task.work, DispatcherState.work])
    · simp [ready, ht, hslot] at hr

/-- A dispatcher that runs no callback takes a step towards its end. -/
theorem work_stepDispatcher {state : DispatcherState ν}
    (ht : w.tasks[t]? = some (.dispatcher e state)) (hr : w.ready t = true)
    (hover : ∀ layer layers, state ≠ .discarding (layer :: layers)) :
    (w.stepDispatcher t e state).work < w.work := by
  rcases state with _ | _ | _ | _ | _ | (_ | ⟨layer, layers⟩) | _
  · exact work_setTask_lt ht rfl (by simp [Task.work, DispatcherState.work])
  · exact work_stepFlushing ht
  · exact work_stepParked ht hr
  · exact work_stepCollecting ht (.inl rfl) hr
  · exact work_stepCollecting ht (.inr rfl) hr
  · simp only [stepDispatcher]
    split
    · have := work_leave (w := w.log .dispatcherStopped) ht (.dispatcher e .gone) rfl false
      simp only [World.log, work_record, Task.work, DispatcherState.work] at this
      simp only [World.log]
      omega
    · rename_i x rest hrest
      have he := lt_of_ne_blank fun h : w.epoch e = {} => by simp [h] at hrest
      have := w.work_modifyEpoch he fun ep => { ep with backlog := rest }
      have := Epoch.work_of_backlog w.settings.crewWork hrest
      refine work_setTask_lt (w := w) (u := (w.modifyEpoch e _).record _) ht rfl ?_
      simp only [work_record, Task.work, DispatcherState.work, Layer.work, Entry.work,
        List.map_cons, List.map_nil, List.sum_cons, List.sum_nil] at *
      omega
  · exact absurd rfl (hover layer layers)
  · simp [ready, ht] at hr

/-- Code that a task runs and that is not over goes on with less work. -/
theorem work_setTask_stepThread (hw : w.Sound) {task : Task ν} {th : Thread ν} {a : Option Nat}
    (ht : w.tasks[t]? = some task) (hth : task.thread? = some th) (ho : th.isOver = false)
    (hr : w.threadReady t th = true) :
    ((w.stepThread t a th).2.setTask t (task.withThread (w.stepThread t a th).1)).work <
      w.work := by
  have legal := (hw.tasks t task ht).thread th hth
  have shifts := shifts_stepThread (a := a) hw legal hr
  have less := work_stepThread (a := a) legal.fits ho hr
  have swap := Task.work_withThread w.settings.crewWork hth (shifts.thread?_withThread hth)
  have ht' : (w.stepThread t a th).2.tasks[t]? = some task := by
    rw [shifts.getElem?_tasks (List.getElem?_eq_some_iff.1 (by simpa using ht)).1, ht]
  exact work_setTask_lt ht' shifts.grows.settings (by omega)

/-- A step of a task leaves less work to do. -/
theorem work_step_lt (hw : w.Sound) (hr : w.ready t = true) : (w.step t).work < w.work := by
  cases ht : w.tasks[t]? with
  | none => simp [ready, ht] at hr
  | some task =>
    by_cases hrun : ∃ th, task.thread? = some th ∧ th.isOver = false
    · obtain ⟨th, hth, ho⟩ := hrun
      have hready := threadReady_of_ready ht hth ho hr
      rw [(step_of_thread ht hth hready ho).2]
      exact work_setTask_stepThread hw ht hth ho hready
    · have hover (th : Thread ν) (hth : task.thread? = some th) : th.isOver = true := by
        by_contra h
        exact hrun ⟨th, hth, by simpa using h⟩
      simp only [step, hr, if_true, ht]
      cases task with
      | worker home kind state =>
        exact work_stepWorker ht hr fun source k th h => hover th (by simp [h, Task.thread?])
      | dispatcher home state =>
        refine work_stepDispatcher ht hr fun layer layers h => ?_
        subst h
        have := hover _ rfl
        simp [Thread.isOver] at this
      | client th => simp [ready, ht, hover th rfl] at hr

end Tasks

/-- Changes keep a world sound. -/
theorem Changes.sound (h : Changes w u) (hw : w.Sound) : u.Sound := by
  induction h with
  | refl => exact hw
  | tail _ c ih => exact c.sound ih

theorem Sound.step (hw : w.Sound) (t : TaskId) : (w.step t).Sound := (changes_step hw t).sound hw

/-- Each of these tasks can go on when its turn comes. -/
def Willing (w : World ν) : List TaskId → Prop
  | [] => True
  | t :: order => w.ready t = true ∧ (w.step t).Willing order

/-- Tasks that can go on can do so only so often: there is only so much work, and each step takes
some of it away. -/
theorem length_le_work {order : List TaskId} (hw : w.Sound) (h : w.Willing order) :
    order.length + (order.foldl step w).work ≤ w.work := by
  induction order generalizing w with
  | nil => simp
  | cons t order ih =>
    have less := work_step_lt hw h.1
    have later := ih (hw.step t) h.2
    simp only [List.length_cons, List.foldl_cons]
    omega

/-- So there is an order in which the tasks go on until none of them can. -/
theorem exists_settled (hw : w.Sound) :
    ∃ order, w.Willing order ∧ (order.foldl step w).Settled := by
  induction hn : w.work using Nat.strong_induction_on generalizing w with
  | _ n ih =>
    by_cases hs : w.Settled
    · exact ⟨[], trivial, hs⟩
    · obtain ⟨t, ht⟩ : ∃ t, w.ready t = true := by simpa [Settled] using hs
      obtain ⟨order, willing, settled⟩ := ih _ (hn ▸ work_step_lt hw ht) (hw.step t) rfl
      exact ⟨t :: order, ⟨ht, willing⟩, settled⟩

end World

end WorkerPool
