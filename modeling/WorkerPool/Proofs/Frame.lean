import Mathlib.Data.List.Basic
import WorkerPool.Pool.Run

/-!
# What the writes to a world leave alone

Every step of a pool is made of a few writes: an occurrence is recorded, a task is set or added, an
epoch is changed. The lemmas here say what each field of the world is after each write, so that no
later proof opens a write again.
-/

namespace WorkerPool.World

variable {ν : Type}

/-- What happened, in order and without its times. -/
def occurrences (w : World ν) : List (Occurrence ν) := w.journal.toList.map (·.what)

/-- What a reader picks from the journal, in order. -/
def picked {α : Type} (w : World ν) (f : Occurrence ν → Option α) : List α :=
  w.occurrences.filterMap f

/-- Writes occurrences into the journal, one after the other. -/
def recordAll (w : World ν) (os : List (Occurrence ν)) : World ν := os.foldl record w

/-- The tasks that a new epoch `e` begins with. -/
def crew (s : Settings) (e : EpochId) : List (Task ν) :=
  (List.range s.minWorkers).map (fun i => .worker e (.permanent i) .hired) ++
    if s.maxTemps.isSome then [.dispatcher e .hired] else []

section Journal

variable (w : World ν) (o : Occurrence ν) (os : List (Occurrence ν))

@[simp] theorem occurrences_record : (w.record o).occurrences = w.occurrences ++ [o] := by
  simp [occurrences, record]

@[simp] theorem recordAll_nil : w.recordAll [] = w := rfl

@[simp] theorem recordAll_cons : w.recordAll (o :: os) = (w.record o).recordAll os := rfl

theorem recordAll_append (os' : List (Occurrence ν)) :
    w.recordAll (os ++ os') = (w.recordAll os).recordAll os' := List.foldl_append

@[simp] theorem occurrences_recordAll : (w.recordAll os).occurrences = w.occurrences ++ os := by
  induction os generalizing w with
  | nil => simp
  | cons o os ih => simp [ih]

@[simp] theorem settings_record : (w.record o).settings = w.settings := rfl
@[simp] theorem hook_record : (w.record o).hook = w.hook := rfl
@[simp] theorem clock_record : (w.record o).clock = w.clock := rfl
@[simp] theorem running_record : (w.record o).running = w.running := rfl
@[simp] theorem current_record : (w.record o).current = w.current := rfl
@[simp] theorem handles_record : (w.record o).handles = w.handles := rfl
@[simp] theorem epochs_record : (w.record o).epochs = w.epochs := rfl
@[simp] theorem epoch_record (e : EpochId) : (w.record o).epoch e = w.epoch e := rfl
@[simp] theorem tasks_record : (w.record o).tasks = w.tasks := rfl
@[simp] theorem nextTicket_record : (w.record o).nextTicket = w.nextTicket := rfl

/-- Recording changes nothing but the journal. -/
theorem recordAll_eq : ∃ journal, w.recordAll os = { w with journal } := by
  induction os generalizing w with
  | nil => exact ⟨w.journal, rfl⟩
  | cons o os ih =>
    obtain ⟨journal, h⟩ := ih (w.record o)
    exact ⟨journal, h⟩

@[simp] theorem settings_recordAll : (w.recordAll os).settings = w.settings := by
  obtain ⟨_, h⟩ := w.recordAll_eq os
  rw [h]

@[simp] theorem hook_recordAll : (w.recordAll os).hook = w.hook := by
  obtain ⟨_, h⟩ := w.recordAll_eq os
  rw [h]

@[simp] theorem clock_recordAll : (w.recordAll os).clock = w.clock := by
  obtain ⟨_, h⟩ := w.recordAll_eq os
  rw [h]

@[simp] theorem running_recordAll : (w.recordAll os).running = w.running := by
  obtain ⟨_, h⟩ := w.recordAll_eq os
  rw [h]

@[simp] theorem current_recordAll : (w.recordAll os).current = w.current := by
  obtain ⟨_, h⟩ := w.recordAll_eq os
  rw [h]

@[simp] theorem epochs_recordAll : (w.recordAll os).epochs = w.epochs := by
  obtain ⟨_, h⟩ := w.recordAll_eq os
  rw [h]

@[simp] theorem epoch_recordAll (e : EpochId) : (w.recordAll os).epoch e = w.epoch e := by
  obtain ⟨_, h⟩ := w.recordAll_eq os
  rw [h]
  rfl

@[simp] theorem tasks_recordAll : (w.recordAll os).tasks = w.tasks := by
  obtain ⟨_, h⟩ := w.recordAll_eq os
  rw [h]

@[simp] theorem nextTicket_recordAll : (w.recordAll os).nextTicket = w.nextTicket := by
  obtain ⟨_, h⟩ := w.recordAll_eq os
  rw [h]

end Journal

section Tasks

variable (w : World ν) (t : TaskId) (task other : Task ν)

@[simp] theorem occurrences_setTask : (w.setTask t task).occurrences = w.occurrences := rfl
@[simp] theorem settings_setTask : (w.setTask t task).settings = w.settings := rfl
@[simp] theorem hook_setTask : (w.setTask t task).hook = w.hook := rfl
@[simp] theorem running_setTask : (w.setTask t task).running = w.running := rfl
@[simp] theorem current_setTask : (w.setTask t task).current = w.current := rfl
@[simp] theorem epochs_setTask : (w.setTask t task).epochs = w.epochs := rfl
@[simp] theorem epoch_setTask (e : EpochId) : (w.setTask t task).epoch e = w.epoch e := rfl
@[simp] theorem nextTicket_setTask : (w.setTask t task).nextTicket = w.nextTicket := rfl

@[simp] theorem size_setTask : (w.setTask t task).tasks.size = w.tasks.size := by simp [setTask]

/-- A task that is set is there if its place is. -/
theorem getElem?_setTask_self (h : t < w.tasks.size) :
    (w.setTask t task).tasks[t]? = some task := by
  simp [setTask, h]

/-- Setting a task leaves the others alone. -/
theorem getElem?_setTask_of_ne {i : TaskId} (h : i ≠ t) :
    (w.setTask t task).tasks[i]? = w.tasks[i]? := by
  simp [setTask, Ne.symm h]

variable {w t task other} in
/-- A task after one was set is that one, or was there before in another place. -/
theorem getElem?_setTask_cases {i : TaskId} (h : (w.setTask t task).tasks[i]? = some other) :
    (i = t ∧ other = task) ∨ (i ≠ t ∧ w.tasks[i]? = some other) := by
  by_cases hi : i = t
  · subst hi
    have hs : i < w.tasks.size := by
      rw [← w.size_setTask i task]
      exact (Array.getElem?_eq_some_iff.1 h).1
    rw [w.getElem?_setTask_self i task hs, Option.some.injEq] at h
    exact .inl ⟨rfl, h.symm⟩
  · rw [w.getElem?_setTask_of_ne t task hi] at h
    exact .inr ⟨hi, h⟩

/-- Setting a task to what it is changes nothing. -/
theorem setTask_self (h : w.tasks[t]? = some task) : w.setTask t task = w := by
  have hs : w.tasks.setIfInBounds t task = w.tasks := by
    apply Array.ext_getElem?
    intro i
    rw [Array.getElem?_setIfInBounds]
    split
    · rename_i hi
      subst hi
      rw [if_pos (Array.getElem?_eq_some_iff.1 h).1, h]
    · rfl
  simp [setTask, hs]

/-- Of two tasks set in one place the second stays. -/
@[simp] theorem setTask_setTask : (w.setTask t task).setTask t other = w.setTask t other := by
  simp [setTask]

@[simp] theorem occurrences_spawn : (w.spawn task).occurrences = w.occurrences := rfl
@[simp] theorem settings_spawn : (w.spawn task).settings = w.settings := rfl
@[simp] theorem hook_spawn : (w.spawn task).hook = w.hook := rfl
@[simp] theorem running_spawn : (w.spawn task).running = w.running := rfl
@[simp] theorem current_spawn : (w.spawn task).current = w.current := rfl
@[simp] theorem epochs_spawn : (w.spawn task).epochs = w.epochs := rfl
@[simp] theorem epoch_spawn (e : EpochId) : (w.spawn task).epoch e = w.epoch e := rfl
@[simp] theorem nextTicket_spawn : (w.spawn task).nextTicket = w.nextTicket := rfl

@[simp] theorem size_spawn : (w.spawn task).tasks.size = w.tasks.size + 1 := by simp [spawn]

/-- A task is added behind all others. -/
theorem getElem?_spawn {i : TaskId} (h : i < w.tasks.size) :
    (w.spawn task).tasks[i]? = w.tasks[i]? := by
  simp [spawn, Array.getElem?_push, Nat.ne_of_lt h]

variable {w task other} in
/-- A task after one was added is that one or was there before. -/
theorem getElem?_spawn_cases {i : TaskId} (h : (w.spawn task).tasks[i]? = some other) :
    (i = w.tasks.size ∧ other = task) ∨ w.tasks[i]? = some other := by
  simp only [spawn, Array.getElem?_push] at h
  split at h
  · exact .inl ⟨‹_›, (Option.some.inj h).symm⟩
  · exact .inr h

end Tasks

section Epochs

variable (w : World ν) (e : EpochId) (f : Epoch ν → Epoch ν)

@[simp] theorem occurrences_modifyEpoch : (w.modifyEpoch e f).occurrences = w.occurrences := rfl
@[simp] theorem settings_modifyEpoch : (w.modifyEpoch e f).settings = w.settings := rfl
@[simp] theorem hook_modifyEpoch : (w.modifyEpoch e f).hook = w.hook := rfl
@[simp] theorem running_modifyEpoch : (w.modifyEpoch e f).running = w.running := rfl
@[simp] theorem current_modifyEpoch : (w.modifyEpoch e f).current = w.current := rfl
@[simp] theorem tasks_modifyEpoch : (w.modifyEpoch e f).tasks = w.tasks := rfl
@[simp] theorem nextTicket_modifyEpoch : (w.modifyEpoch e f).nextTicket = w.nextTicket := rfl

@[simp] theorem size_modifyEpoch : (w.modifyEpoch e f).epochs.size = w.epochs.size := by
  simp [modifyEpoch]

/-- An epoch that is there is changed. -/
theorem epoch_modifyEpoch_self (h : e < w.epochs.size) :
    (w.modifyEpoch e f).epoch e = f (w.epoch e) := by
  simp [modifyEpoch, epoch, Array.getElem_modify_self, h]

/-- Changing an epoch leaves the others alone. -/
theorem epoch_modifyEpoch_of_ne {i : EpochId} (h : i ≠ e) :
    (w.modifyEpoch e f).epoch i = w.epoch i := by
  simp [modifyEpoch, epoch, Array.getElem?_modify, Ne.symm h]

/-- An epoch after a change of one is as it was, or it is that one. -/
theorem epoch_modifyEpoch_cases (i : EpochId) : (w.modifyEpoch e f).epoch i = w.epoch i ∨
    i = e ∧ (w.modifyEpoch e f).epoch i = f (w.epoch i) := by
  by_cases hi : i = e
  · subst hi
    by_cases hs : i < w.epochs.size
    · exact .inr ⟨rfl, w.epoch_modifyEpoch_self i f hs⟩
    · have hn : (w.epochs.modify i f)[i]? = w.epochs[i]? := by
        rw [Array.getElem?_eq_none (by simpa using hs), Array.getElem?_eq_none (by simpa using hs)]
      exact .inl (by simp [epoch, modifyEpoch, hn])
  · exact .inl (w.epoch_modifyEpoch_of_ne e f hi)

/-- What a change of an epoch leaves alone in it stays the same in every epoch. -/
theorem modifyEpoch_keeps {α : Type} (g : Epoch ν → α) (h : g (f (w.epoch e)) = g (w.epoch e))
    (i : EpochId) : g ((w.modifyEpoch e f).epoch i) = g (w.epoch i) := by
  obtain hi | ⟨rfl, hi⟩ := w.epoch_modifyEpoch_cases e f i
  · rw [hi]
  · rw [hi, h]

/-- An epoch that never was is blank. -/
theorem epoch_of_size_le (h : w.epochs.size ≤ e) : w.epoch e = {} := by
  simp [epoch, Array.getElem?_eq_none h]

@[simp] theorem occurrences_close : (w.close e).occurrences = w.occurrences ++ [.closed e] := by
  simp [close]

@[simp] theorem settings_close : (w.close e).settings = w.settings := rfl
@[simp] theorem hook_close : (w.close e).hook = w.hook := rfl
@[simp] theorem running_close : (w.close e).running = w.running := rfl
@[simp] theorem current_close : (w.close e).current = w.current := rfl
@[simp] theorem tasks_close : (w.close e).tasks = w.tasks := rfl
@[simp] theorem nextTicket_close : (w.close e).nextTicket = w.nextTicket := rfl
@[simp] theorem size_close : (w.close e).epochs.size = w.epochs.size := by simp [close]

/-- A closed epoch keeps all else that it had. -/
theorem epoch_close_self (h : e < w.epochs.size) :
    (w.close e).epoch e = { w.epoch e with closed := true } := by
  simp [close, epoch_modifyEpoch_self, h]

/-- Closing an epoch leaves the others alone. -/
theorem epoch_close_of_ne {i : EpochId} (h : i ≠ e) : (w.close e).epoch i = w.epoch i := by
  simp [close, epoch_modifyEpoch_of_ne _ _ _ h]

end Epochs

section Launch

variable (w : World ν)

/-- Adding tasks one after the other changes nothing but the tasks. -/
theorem foldl_spawn {α : Type} (f : α → Task ν) (l : List α) :
    l.foldl (fun w x => w.spawn (f x)) w =
      { w with tasks := w.tasks ++ (l.map f).toArray } := by
  induction l generalizing w with
  | nil => simp
  | cons x l ih =>
    rw [List.foldl_cons, ih]
    simp [spawn]

/-- A new epoch comes with its crew. -/
theorem launch_eq : w.launch =
    { w with
      epochs := w.epochs.push {}
      running := true
      current := some w.epochs.size
      tasks := w.tasks ++ (crew w.settings w.epochs.size).toArray
      journal := (w.journal.push ⟨w.clock, .opened w.epochs.size⟩).push
        ⟨w.clock, .log none (.poolStarted w.settings.minWorkers w.settings.maxTemps)⟩ } := by
  unfold launch
  simp only [foldl_spawn]
  cases h : w.settings.maxTemps <;> simp [crew, log, record, spawn, h]

@[simp] theorem occurrences_launch : w.launch.occurrences = w.occurrences ++
    [.opened w.epochs.size,
      .log none (.poolStarted w.settings.minWorkers w.settings.maxTemps)] := by
  simp [launch_eq, occurrences]

@[simp] theorem settings_launch : w.launch.settings = w.settings := by simp [launch_eq]
@[simp] theorem hook_launch : w.launch.hook = w.hook := by simp [launch_eq]
@[simp] theorem running_launch : w.launch.running = true := by simp [launch_eq]
@[simp] theorem current_launch : w.launch.current = some w.epochs.size := by simp [launch_eq]
@[simp] theorem nextTicket_launch : w.launch.nextTicket = w.nextTicket := by simp [launch_eq]

@[simp] theorem size_epochs_launch : w.launch.epochs.size = w.epochs.size + 1 := by
  simp [launch_eq]

@[simp] theorem tasks_launch :
    w.launch.tasks = w.tasks ++ (crew w.settings w.epochs.size).toArray := by
  simp [launch_eq]

/-- A new epoch is blank, and a start leaves the others alone. -/
@[simp] theorem epoch_launch (e : EpochId) : w.launch.epoch e = w.epoch e := by
  rw [launch_eq]
  simp only [epoch, Array.getElem?_push]
  split
  · rename_i h
    simp [h]
  · rfl

/-- Tasks of a new crew stand behind all others. -/
theorem getElem?_launch {i : TaskId} (h : i < w.tasks.size) :
    w.launch.tasks[i]? = w.tasks[i]? := by
  simp [h, Array.getElem?_append]

variable {w} in
/-- A task after a start belongs to the new crew or was there before. -/
theorem getElem?_launch_cases {i : TaskId} {task : Task ν} (h : w.launch.tasks[i]? = some task) :
    (w.tasks.size ≤ i ∧ task ∈ crew w.settings w.epochs.size) ∨ w.tasks[i]? = some task := by
  rw [tasks_launch, Array.getElem?_append] at h
  split at h
  · exact .inr h
  · refine .inl ⟨by omega, ?_⟩
    rw [List.getElem?_toArray] at h
    exact List.mem_of_getElem? h

/-- The crew of an epoch: its permanent workers and, if temporary workers are limited, its
dispatcher, none of which has begun. -/
theorem mem_crew {s : Settings} {e : EpochId} {task : Task ν} : task ∈ crew s e ↔
    (∃ i < s.minWorkers, task = .worker e (.permanent i) .hired) ∨
      (s.maxTemps.isSome ∧ task = .dispatcher e .hired) := by
  unfold crew
  cases h : s.maxTemps <;> simp [eq_comm]

end Launch

/-- Deadlines depend on the clock alone. -/
theorem deadline?_congr {w u : World ν} (h : u.clock = w.clock) (time : Duration) :
    u.deadline? time = w.deadline? time := by
  rw [deadline?, deadline?, h]

section Workers

variable (w : World ν) (e : EpochId) (t : TaskId)

/-- What a call of the hook writes into the journal. -/
def hookTrace (call : HookCall) : List (Occurrence ν) :=
  match w.hook with
  | none => []
  | some hook => [.hook e t call (hook w.hookCalls call)]

theorem mem_hookTrace_iff {call : HookCall} {o : Occurrence ν} : o ∈ w.hookTrace e t call ↔
    ∃ hook, w.hook = some hook ∧ o = .hook e t call (hook w.hookCalls call) := by
  unfold hookTrace
  cases w.hook <;> simp

/-- A call of the hook writes nothing else. -/
theorem mem_hookTrace {call : HookCall} {o : Occurrence ν} (h : o ∈ w.hookTrace e t call) :
    ∃ p, o = .hook e t call p := by
  obtain ⟨hook, -, ho⟩ := (w.mem_hookTrace_iff e t).1 h
  exact ⟨_, ho⟩

/-- A call of the hook changes nothing but the journal and the count of calls. -/
theorem callHook_eq (call : HookCall) : ∃ hookCalls,
    (w.callHook e t call).2 = { w.recordAll (w.hookTrace e t call) with hookCalls } := by
  unfold callHook hookTrace
  cases w.hook with
  | none => exact ⟨w.hookCalls, rfl⟩
  | some hook => exact ⟨w.hookCalls + 1, rfl⟩

/-- What a hook answers depends on nothing but the hook and the count of its calls. -/
theorem callHook_congr {w u : World ν} (h : u.hook = w.hook) (hn : u.hookCalls = w.hookCalls)
    (call : HookCall) : (u.callHook e t call).1 = (w.callHook e t call).1 ∧
      u.hookTrace e t call = w.hookTrace e t call := by
  unfold callHook hookTrace
  rw [h, hn]
  cases w.hook <;> exact ⟨rfl, rfl⟩

/-- A call of the hook that panics writes the panic into the journal. -/
theorem hookTrace_of_panic {call : HookCall} (h : (w.callHook e t call).1 = true) :
    ∃ p, w.hookTrace e t call = [.hook e t call (some p)] := by
  unfold callHook at h
  unfold hookTrace
  cases hw : w.hook with
  | none =>
    rw [hw] at h
    cases h
  | some hook =>
    rw [hw] at h
    obtain ⟨p, hp⟩ := Option.isSome_iff_exists.1 h
    exact ⟨p, by simp only [hp]⟩

/-- A hook that never panics returns from every call. -/
theorem callHook_of_calm (calm : ∀ hook, w.hook = some hook → ∀ n call, hook n call = none)
    (call : HookCall) : (w.callHook e t call).1 = false := by
  unfold callHook
  split
  · rfl
  · rename_i hook h
    simp [calm hook h]

end Workers

section Picked

variable {α : Type} (w : World ν) (f : Occurrence ν → Option α)

variable {w f} in
/-- What is picked from the journal is picked from something that happened. -/
theorem mem_picked {a : α} : a ∈ w.picked f ↔ ∃ o ∈ w.occurrences, f o = some a :=
  List.mem_filterMap

@[simp] theorem picked_recordAll (os : List (Occurrence ν)) :
    (w.recordAll os).picked f = w.picked f ++ os.filterMap f := by
  simp [picked]

@[simp] theorem picked_record (o : Occurrence ν) :
    (w.record o).picked f = w.picked f ++ (f o).toList := by
  rw [picked, occurrences_record, List.filterMap_append]
  cases h : f o <;> simp [picked, h]

@[simp] theorem picked_setTask (t : TaskId) (task : Task ν) :
    (w.setTask t task).picked f = w.picked f := rfl
@[simp] theorem picked_spawn (task : Task ν) : (w.spawn task).picked f = w.picked f := rfl
@[simp] theorem picked_modifyEpoch (e : EpochId) (g : Epoch ν → Epoch ν) :
    (w.modifyEpoch e g).picked f = w.picked f := rfl

@[simp] theorem picked_log (notice : Notice) :
    (w.log notice).picked f = w.picked f ++ (f (.log none notice)).toList := w.picked_record f _

/-- What is picked from a call of the hook. -/
@[simp] theorem filterMap_hookTrace (e : EpochId) (t : TaskId) (call : HookCall) :
    (w.hookTrace e t call).filterMap f =
      (w.hook.bind fun hook => f (.hook e t call (hook w.hookCalls call))).toList := by
  unfold hookTrace
  cases w.hook with
  | none => rfl
  | some hook => cases h : f (.hook e t call (hook w.hookCalls call)) <;> simp [h]

@[simp] theorem picked_callHook (e : EpochId) (t : TaskId) (call : HookCall) :
    (w.callHook e t call).2.picked f = w.picked f ++
      (w.hook.bind fun hook => f (.hook e t call (hook w.hookCalls call))).toList := by
  obtain ⟨n, hn⟩ := w.callHook_eq e t call
  rw [hn, ← filterMap_hookTrace, ← picked_recordAll]
  rfl

@[simp] theorem picked_launch :
    w.launch.picked f = w.picked f ++ (f (.opened w.epochs.size)).toList ++
      (f (.log none (.poolStarted w.settings.minWorkers w.settings.maxTemps))).toList := by
  rw [picked, occurrences_launch, List.filterMap_append]
  cases h : f (.opened w.epochs.size) <;>
    cases h' : f (.log none (.poolStarted w.settings.minWorkers w.settings.maxTemps)) <;>
      simp [picked, h, h']

end Picked

end WorkerPool.World
