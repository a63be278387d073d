import Mathlib.Data.Finset.Card
import WorkerPool.Proofs.Conservation
import WorkerPool.Proofs.Hooks
import WorkerPool.Proofs.Service

/-!
# Places of temporary workers

An epoch counts the places that its temporary workers take. A place is taken as a worker is hired
and given back as it leaves its loop, so a worker that a panic ends before that keeps its place for
ever.
-/

namespace WorkerPool

variable {ν : Type}

namespace Task

/-- A temporary worker of epoch `e`. -/
def isTemp (e : EpochId) : Task ν → Bool
  | worker home .temporary _ => home == e
  | _ => false

/-- A worker that a panic ended. -/
def isCrashed : Task ν → Bool
  | worker _ _ (.gone crashed) => crashed
  | _ => false

/-- A temporary worker of epoch `e` that has told the hook this and has not given its place back. -/
def keepsPlace (e : EpochId) (cs : History) (task : Task ν) : Bool :=
  task.isTemp e && (!task.isOver || task.isCrashed && !cs.hasLeft)

end Task

/-- A count of temporary workers that one of them may join with. -/
def Settings.Admits (s : Settings) (live : Nat) : Prop :=
  1 ≤ live ∧ ∀ max, s.maxTemps = some max → live ≤ max

namespace World

/-- The tasks of this description. -/
def those (w : World ν) (p : TaskId → Task ν → Bool) : Finset TaskId :=
  (Finset.range w.tasks.size).filter fun t => w.tasks[t]?.any (p t)

/-- The temporary workers of an epoch that are not over. -/
def alive (w : World ν) (e : EpochId) : Finset TaskId :=
  w.those fun _ task => task.isTemp e && !task.isOver

/-- The temporary workers of an epoch that were ended by a panic of the hook before they left. -/
def leaked (w : World ν) (e : EpochId) : Finset TaskId :=
  w.those fun t task => task.isTemp e && task.isCrashed && (w.told t).isStruck

/-- The temporary workers of an epoch that have not given their places back. -/
def keepers (w : World ν) (e : EpochId) : Finset TaskId :=
  w.those fun t => Task.keepsPlace e (w.told t)

section Those

variable {w u : World ν} {p q : TaskId → Task ν → Bool} {t : TaskId} {task : Task ν}

theorem mem_those : t ∈ w.those p ↔ ∃ task, w.tasks[t]? = some task ∧ p t task = true := by
  rw [those, Finset.mem_filter, Finset.mem_range, Option.any_eq_true]
  refine ⟨And.right, fun h => ⟨?_, h⟩⟩
  obtain ⟨task, ht, _⟩ := h
  exact (Array.getElem?_eq_some_iff.1 ht).1

/-- A task is one of those exactly if it answers the description. -/
theorem mem_those_of_task (ht : w.tasks[t]? = some task) : t ∈ w.those p ↔ p t task = true := by
  rw [mem_those]
  simp [ht]

/-- Where no task begins or ceases to answer a description, those who do are the same. -/
theorem those_eq (h : ∀ i, u.tasks[i]?.any (q i) = w.tasks[i]?.any (p i)) :
    u.those q = w.those p := by
  ext i
  rw [mem_those, mem_those, ← Option.any_eq_true, ← Option.any_eq_true, h]

/-- One task begins to answer the description. -/
theorem those_eq_insert (ht : u.tasks[t]?.any (q t) = true)
    (h : ∀ i, i ≠ t → u.tasks[i]?.any (q i) = w.tasks[i]?.any (p i)) :
    u.those q = insert t (w.those p) := by
  ext i
  rw [Finset.mem_insert, mem_those, mem_those, ← Option.any_eq_true, ← Option.any_eq_true]
  by_cases hi : i = t
  · subst hi
    simp [ht]
  · simp [hi, h i hi]

/-- One task ceases to answer the description. -/
theorem those_eq_erase (ht : u.tasks[t]?.any (q t) = false)
    (h : ∀ i, i ≠ t → u.tasks[i]?.any (q i) = w.tasks[i]?.any (p i)) :
    u.those q = (w.those p).erase t := by
  ext i
  rw [Finset.mem_erase, mem_those, mem_those, ← Option.any_eq_true, ← Option.any_eq_true]
  by_cases hi : i = t
  · subst hi
    simp [ht]
  · simp [hi, h i hi]

end Those

/-- Every place that an epoch counts is kept by one of its temporary workers, and no more places are
taken than the settings allow. -/
structure Housed (w : World ν) : Prop where
  count : ∀ e, (w.epoch e).temps = (w.keepers e).card
  bound : ∀ max, w.settings.maxTemps = some max → ∀ e, (w.epoch e).temps ≤ max

variable {w u : World ν} {t : TaskId} {e : EpochId}

/-- Code takes a place for each temporary worker that it hires, and takes or gives back no other. -/
theorem Shift.temps_cases {a : Option Nat} {th th' : Thread ν} {w' : World ν}
    (h : Shift t a th w th' w') (hw : w.Sound) :
    ((∀ e, (w'.epoch e).temps = (w.epoch e).temps) ∧ ∀ i task, w.tasks.size ≤ i →
      w'.tasks[i]? = some task → ∀ e, task.isTemp e = false) ∨
    ∃ e live x, (w'.epoch e).temps = (w.epoch e).temps + 1 ∧
      (∀ i, i ≠ e → (w'.epoch i).temps = (w.epoch i).temps) ∧
      (∀ max, w.settings.maxTemps = some max → (w.epoch e).temps < max) ∧
      w'.tasks = w.tasks.push (.worker e .temporary (.seeded live x)) := by
  have old : ∀ {v : World ν}, v.tasks = w.tasks → ∀ i task, w.tasks.size ≤ i →
      v.tasks[i]? = some task → ∀ e, task.isTemp e = false := by
    intro v hv i task hi ht
    rw [hv, Array.getElem?_eq_none hi] at ht
    cases ht
  have modify : ∀ {v : World ν} (i : EpochId) {f : Epoch ν → Epoch ν},
      (∀ e, (v.epoch e).temps = (w.epoch e).temps) → (f (v.epoch i)).temps = (v.epoch i).temps →
        ∀ e, ((v.modifyEpoch i f).epoch e).temps = (w.epoch e).temps :=
    fun {v} i f hv hf e => (v.modifyEpoch_keeps i f Epoch.temps hf e).trans (hv e)
  cases h with
  | aside ha => exact .inl ⟨fun e => by rw [epoch, ha.epochs, ← epoch], old ha.tasks⟩
  | deed => exact .inl ⟨by simp, old (by simp)⟩
  | callbackDeed => exact .inl ⟨by simp, old (by simp)⟩
  | @abandoned i _ _ _ _ _ hd =>
    exact .inl ⟨modify i (fun _ => rfl) (Epoch.drain_frame hd).2.1, old rfl⟩
  | @halted i => exact .inl ⟨modify i (fun _ => rfl) rfl, old rfl⟩
  | launched =>
    refine .inl ⟨by simp, fun i task hi ht e => ?_⟩
    obtain ⟨_, hm⟩ | ht := getElem?_launch_cases ht
    · obtain ⟨_, _, rfl⟩ | ⟨_, rfl⟩ := mem_crew.1 hm <;> rfl
    · rw [Array.getElem?_eq_none hi] at ht
      cases ht
  | @queued job _ _ _ _ i _ _ _ _ _ _ ho =>
    exact .inl ⟨modify (v := w.draw job) i (fun _ => rfl) (Epoch.offer_frame ho).2.2.1, old rfl⟩
  | @hired job _ _ _ _ i _ _ _ hc _ hb =>
    refine .inr ⟨i, _, _, ?_, fun j hj => ?_, hb, rfl⟩
    · simp [hire, epoch_modifyEpoch_self (w.draw job) i _ (hw.current_lt i hc)]
    · simp [hire, epoch_modifyEpoch_of_ne (w.draw job) i _ hj]
  | @handedOver job _ _ _ _ i => exact .inl ⟨modify (v := w.draw job) i (fun _ => rfl) rfl, old rfl⟩
  | @joined job _ _ _ _ i => exact .inl ⟨modify (v := w.draw job) i (fun _ => rfl) rfl, old rfl⟩
  | @granted _ _ _ _ _ i => exact .inl ⟨modify i (fun _ => rfl) rfl, old rfl⟩
  | @gaveUp i => exact .inl ⟨modify i (fun _ => rfl) rfl, old rfl⟩
  | _ => exact .inl ⟨fun _ => rfl, old rfl⟩

/-- A change that takes no place and gives none back leaves every place with who has it. -/
theorem Housed.of_same (h : w.Housed) (hs : u.settings = w.settings)
    (ht : ∀ e, (u.epoch e).temps = (w.epoch e).temps)
    (hk : ∀ e i, u.tasks[i]?.any (Task.keepsPlace e (u.told i)) =
      w.tasks[i]?.any (Task.keepsPlace e (w.told i))) : u.Housed where
  count e := by rw [ht, h.count e, keepers, keepers, those_eq (hk e)]
  bound max hm e := by
    rw [ht]
    exact h.bound max (hs ▸ hm) e

/-- A task that acts, takes no place and gives none back leaves every place with who has it. -/
theorem Housed.setTask (h : w.Housed) {v : World ν} {old task : Task ν}
    (hs : v.settings = w.settings) (ht : ∀ e, (v.epoch e).temps = (w.epoch e).temps)
    (hv : v.tasks = w.tasks) (hold : w.tasks[t]? = some old)
    (hother : ∀ i, i ≠ t → v.told i = w.told i)
    (hk : ∀ e, task.keepsPlace e (v.told t) = old.keepsPlace e (w.told t)) :
    (v.setTask t task).Housed := by
  refine h.of_same hs ht fun e i => ?_
  rw [told, picked_setTask, ← told]
  by_cases hi : i = t
  · subst hi
    rw [getElem?_setTask_self _ _ _ (hv ▸ (Array.getElem?_eq_some_iff.1 hold).1), hold,
      Option.any_some, Option.any_some, hk]
  · rw [getElem?_setTask_of_ne _ _ _ hi, hv, hother i hi]

/-- Other code leaves a task with its place. -/
theorem keepsPlace_withThread {task : Task ν} {th : Thread ν} (h : task.thread? = some th)
    (th' : Thread ν) (e : EpochId) (cs : History) :
    (task.withThread th').keepsPlace e cs = task.keepsPlace e cs := by
  obtain ⟨_, _ | _, _, _, rfl⟩ | ⟨_, _, rfl, _⟩ | rfl := Task.thread?_eq_some h <;> rfl

/-- Code keeps every place with who has it, and gives each worker that it hires a new one. -/
theorem Shift.housed {task : Task ν} {th th' : Thread ν} {w' : World ν}
    (s : Shift t task.author? th w th' w') (ht : w.tasks[t]? = some task)
    (hth : task.thread? = some th) (hw : w.Sound)
    (h : w.Housed) : (w'.setTask t (task.withThread th')).Housed := by
  have hlt : t < w.tasks.size := (Array.getElem?_eq_some_iff.1 ht).1
  have before : ∀ e i, i < w.tasks.size →
      (w'.setTask t (task.withThread th')).tasks[i]?.any
          (Task.keepsPlace e ((w'.setTask t (task.withThread th')).told i)) =
        w.tasks[i]?.any (Task.keepsPlace e (w.told i)) := by
    intro e i hi
    have htold : (w'.setTask t (task.withThread th')).told i = w.told i := s.told i
    rw [htold]
    by_cases hit : i = t
    · subst hit
      rw [getElem?_setTask_self _ _ _ (Nat.lt_of_lt_of_le hlt s.grows.tasks), ht]
      exact keepsPlace_withThread hth th' e _
    · rw [getElem?_setTask_of_ne _ _ _ hit, s.getElem?_tasks hi]
  obtain ⟨htemps, hnew⟩ | ⟨e, live, x, hself, hother, hroom, htasks⟩ := s.temps_cases hw
  · refine h.of_same s.grows.settings htemps fun e i => ?_
    by_cases hi : i < w.tasks.size
    · exact before e i hi
    · have hne : i ≠ t := by
        rintro rfl
        exact hi hlt
      rw [getElem?_setTask_of_ne _ _ _ hne, Array.getElem?_eq_none (Nat.not_lt.1 hi)]
      cases hi' : w'.tasks[i]? with
      | none => rfl
      | some other => simp [Task.keepsPlace, hnew i other (Nat.not_lt.1 hi) hi' e]
  · have hsize : w.tasks.size ≠ t := (Nat.ne_of_lt hlt).symm
    have hseed : (w'.setTask t (task.withThread th')).tasks[w.tasks.size]? =
        some (.worker e .temporary (.seeded live x)) := by
      rw [getElem?_setTask_of_ne _ _ _ hsize, htasks]
      simp
    have hlater : ∀ i, w.tasks.size < i →
        (w'.setTask t (task.withThread th')).tasks[i]? = none ∧ w.tasks[i]? = none := by
      intro i hi
      refine ⟨Array.getElem?_eq_none ?_, Array.getElem?_eq_none (Nat.le_of_lt hi)⟩
      simpa [htasks] using Nat.succ_le_of_lt hi
    have others : ∀ j i, i ≠ w.tasks.size ∨ j ≠ e →
        (w'.setTask t (task.withThread th')).tasks[i]?.any
            (Task.keepsPlace j ((w'.setTask t (task.withThread th')).told i)) =
          w.tasks[i]?.any (Task.keepsPlace j (w.told i)) := by
      intro j i hji
      rcases Nat.lt_trichotomy i w.tasks.size with hi | rfl | hi
      · exact before j i hi
      · have hje : e ≠ j := (hji.resolve_left (by simp)).symm
        simp [hseed, Task.keepsPlace, Task.isTemp, hje]
      · rw [(hlater i hi).1, (hlater i hi).2, Option.any_none, Option.any_none]
    refine ⟨fun j => ?_, fun max hm j => ?_⟩ <;> by_cases hj : j = e
    · subst hj
      have hfresh : w.tasks.size ∉ w.keepers j := by simp [keepers, mem_those]
      rw [keepers, those_eq_insert (w := w) (p := fun i => Task.keepsPlace j (w.told i))
        (by simp [hseed, Task.keepsPlace, Task.isTemp, Task.isOver])
        fun i hi => others j i (.inl hi), ← keepers, Finset.card_insert_of_notMem hfresh,
        ← h.count j]
      exact hself
    · rw [keepers, those_eq fun i => others j i (.inr hj), ← keepers, ← h.count j]
      exact hother j hj
    · subst hj
      rw [settings_setTask, s.grows.settings] at hm
      rw [epoch_setTask, hself]
      exact hroom max hm
    · rw [settings_setTask, s.grows.settings] at hm
      rw [epoch_setTask, hother j hj]
      exact h.bound max hm j

/-- A temporary worker that has left its loop gives its place back. -/
theorem Housed.retire (h : w.Housed) (hs : u.settings = w.settings) (he : e < w.epochs.size)
    (hold : w.tasks[t]? = some (.worker e .temporary .leaving))
    (ht : ∀ i, (u.epoch i).temps = ((w.modifyEpoch e fun ep =>
      { ep with temps := ep.temps - 1 }).epoch i).temps)
    (hother : ∀ i, i ≠ t → u.tasks[i]? = w.tasks[i]? ∧ u.told i = w.told i)
    {crashed : Bool} (hnew : u.tasks[t]? = some (.worker e .temporary (.gone crashed)))
    (hleave : crashed = true → (u.told t).hasLeft = true) : u.Housed := by
  have others : ∀ j i, i ≠ t → u.tasks[i]?.any (Task.keepsPlace j (u.told i)) =
      w.tasks[i]?.any (Task.keepsPlace j (w.told i)) :=
    fun j i hi => by rw [(hother i hi).1, (hother i hi).2]
  refine ⟨fun j => ?_, fun max hm j => ?_⟩ <;> by_cases hj : j = e
  · subst hj
    have hmem : t ∈ w.keepers j :=
      (mem_those_of_task hold).2 (by simp [Task.keepsPlace, Task.isTemp, Task.isOver])
    have hgone : u.tasks[t]?.any (Task.keepsPlace j (u.told t)) = false := by
      rw [hnew, Option.any_some]
      cases crashed with
      | false => simp [Task.keepsPlace, Task.isOver, Task.isCrashed]
      | true => simp [Task.keepsPlace, Task.isOver, hleave rfl]
    rw [ht, epoch_modifyEpoch_self _ _ _ he, keepers, those_eq_erase hgone (others j), ← keepers,
      Finset.card_erase_of_mem hmem, ← h.count j]
  · have hsame : ∀ i, u.tasks[i]?.any (Task.keepsPlace j (u.told i)) =
        w.tasks[i]?.any (Task.keepsPlace j (w.told i)) := by
      intro i
      by_cases hi : i = t
      · subst hi
        have hej : (e == j) = false := by simpa using Ne.symm hj
        simp [hold, hnew, Task.keepsPlace, Task.isTemp, hej]
      · exact others j i hi
    rw [ht, epoch_modifyEpoch_of_ne _ _ _ hj, keepers, those_eq hsame, ← keepers, h.count j]
  · subst hj
    rw [ht, epoch_modifyEpoch_self _ _ _ he]
    exact Nat.le_trans (Nat.sub_le _ _) (h.bound max (hs ▸ hm) j)
  · rw [ht, epoch_modifyEpoch_of_ne _ _ _ hj]
    exact h.bound max (hs ▸ hm) j

/-- Every elementary change keeps the count of places. -/
theorem Change.housed {settings : Settings} {hook : Option Hook} (c : Change w u)
    (hw : Evolved settings hook w) (h : w.Housed) : u.Housed := by
  have hset := c.grows.settings
  cases c with
  | aside ha =>
    exact h.of_same hset (fun e => by rw [epoch, ha.epochs, ← epoch])
      fun e i => by rw [ha.tasks, ha.told]
  | posted code =>
    refine h.of_same hset (fun _ => rfl) fun e i => ?_
    rw [told, picked_spawn, ← told, spawn, Array.getElem?_push]
    split
    · rename_i hi
      rw [hi, Array.getElem?_eq_none le_rfl]
      rfl
    · rfl
  | code ht hth s => exact s.housed ht hth hw.sound h
  | brokenOff ht =>
    exact h.setTask hset (fun _ => rfl) rfl ht (fun _ _ => rfl) (fun _ => rfl)
  | began ht =>
    exact h.setTask hset (fun _ => rfl) rfl ht (fun _ _ => rfl) (fun _ => rfl)
  | @welcomed t e kind live x ht =>
    refine h.setTask (v := (w.recordAll _).record (.started e x.ticket t .seed)) hset (by simp)
      (by simp) ht (fun i hi => ?_) fun i => ?_
    · simp [Occurrence.callBy?, Ne.symm hi]
    · cases kind <;> rfl
  | @lost t e kind live x ht =>
    refine h.setTask hset (by simp) (by simp) ht
      (fun i hi => by simp [Occurrence.callBy?, Ne.symm hi]) fun i => ?_
    obtain ⟨rfl, htold⟩ := hw.tells ht
    have hcs : History.hasLeft (w.answer (.join live)) = false := hasLeft_answer rfl
    simp [Task.keepsPlace, Task.isTemp, Task.isOver, Task.isCrashed, htold, List.filterMap_cons,
      Occurrence.callBy?, hcs]
  | @claimed t e kind alarm tier x ep ht _ hc =>
    refine h.setTask
      (v := (w.modifyEpoch e fun _ => ep).record (.started e x.ticket t (.tier tier))) hset ?_ rfl
      ht (fun i hi => ?_) fun i => ?_
    · exact w.modifyEpoch_keeps e _ Epoch.temps (Epoch.claim_frame hc).2.1
    · simp [Occurrence.callBy?]
    · cases kind <;> rfl
  | @finished t e kind source k th os state ht _ hos hs =>
    refine h.setTask hset (by simp) (by simp) ht (fun i hi => ?_) fun i => ?_
    · obtain ⟨_, rfl⟩ | ⟨p, _, rfl⟩ := hos <;> simp [Occurrence.callBy?, Ne.symm hi]
    · obtain ⟨rfl, hk⟩ | ⟨_, rfl, _⟩ | ⟨rfl, _⟩ := hs
      · cases kind <;> rfl
      · cases kind <;> rfl
      · have served : InService hook kind (w.told t) := hw.tells ht
        have hcs : History.hasLeft (os.filterMap (Occurrence.callBy? t)) = false := by
          obtain ⟨_, rfl⟩ | ⟨p, _, rfl⟩ := hos
          · rfl
          · have hp : History.hasLeft (w.answer (.panicked p.message)) = false :=
              hasLeft_answer rfl
            simpa [List.filterMap_cons, Occurrence.callBy?] using hp
        cases kind <;>
          simp [Task.keepsPlace, Task.isTemp, Task.isOver, Task.isCrashed,
            Occurrence.callBy?, hcs, served.isCalm_hasLeft]
  | @quit t e kind state ht hq =>
    refine h.setTask hset (fun _ => rfl) rfl ht (fun _ _ => rfl) fun i => ?_
    obtain ⟨_, rfl, _⟩ | ⟨rfl, _⟩ := hq <;> cases kind <;> rfl
  | left ht => exact h.setTask hset (fun _ => rfl) rfl ht (fun _ _ => rfl) (fun _ => rfl)
  | @retired t e ht =>
    have hlt : t < w.tasks.size := (Array.getElem?_eq_some_iff.1 ht).1
    refine h.retire hset (hw.sound.home_lt ht rfl) ht (by simp)
      (fun i hi => ⟨?_, ?_⟩) (getElem?_setTask_self _ _ _ (by simpa using hlt)) fun hcrash => ?_
    · rw [getElem?_setTask_of_ne _ _ _ hi, tasks_recordAll, tasks_modifyEpoch]
    · simp [Occurrence.callBy?, Ne.symm hi]
    obtain ⟨p, hp⟩ := (w.callHook_eq_true t).1 hcrash
    simp [hp, Occurrence.callBy?, HookCall.isLeave]
  | dispatching ht =>
    exact h.setTask hset (fun _ => rfl) rfl ht (fun _ _ => rfl) (fun _ => rfl)
  | @flushed t e ht =>
    refine h.setTask hset (fun i => ?_) (by simp) ht (fun i _ => ?_) (fun _ => rfl)
    · simpa using w.modifyEpoch_keeps e _ Epoch.temps (Epoch.flushes_flush _ _).temps i
    · simp [Occurrence.callBy?, List.filterMap_map, Function.comp_def]
  | @woken t e ht =>
    exact h.setTask hset (w.modifyEpoch_keeps e _ Epoch.temps rfl) rfl ht (fun _ _ => rfl)
      (fun _ => rfl)
  | @tookIn t e _ _ ht =>
    exact h.setTask hset (w.modifyEpoch_keeps e _ Epoch.temps rfl) rfl ht
      (fun _ _ => by simp [takeIn, Occurrence.callBy?]) (fun _ => rfl)
  | @shut t e _ ht =>
    exact h.setTask hset (w.modifyEpoch_keeps e _ Epoch.temps rfl) rfl ht (fun _ _ => rfl)
      (fun _ => rfl)
  | @collected t e _ x intake ht =>
    exact h.setTask hset (w.modifyEpoch_keeps e _ Epoch.temps rfl) rfl ht
      (fun _ _ => by simp [takeIn, Occurrence.callBy?]) (fun _ => rfl)
  | expecting ht => exact h.setTask hset (fun _ => rfl) rfl ht (fun _ _ => rfl) (fun _ => rfl)
  | discarding ht =>
    exact h.setTask hset (fun _ => rfl) rfl ht (fun _ _ => rfl) (fun _ => rfl)
  | @discarded t e _ _ ht =>
    exact h.setTask hset (w.modifyEpoch_keeps e _ Epoch.temps rfl) rfl ht
      (fun _ _ => by simp [Occurrence.callBy?]) (fun _ => rfl)
  | dispersed ht =>
    exact h.setTask hset (fun _ => rfl) rfl ht (fun _ _ => rfl) (fun _ => rfl)

/-- In every state that a pool comes to each place is kept by a temporary worker. -/
theorem Evolved.housed {settings : Settings} {hook : Option Hook} (h : Evolved settings hook w) :
    w.Housed := by
  induction h with
  | opened =>
    have none : ∀ e, ({ settings, hook : World ν }.launch).keepers e = ∅ := by
      intro e
      rw [Finset.eq_empty_iff_forall_notMem]
      intro t ht
      obtain ⟨task, ht, hk⟩ := mem_those.1 ht
      obtain ⟨_, hm⟩ | ht := getElem?_launch_cases ht
      · obtain ⟨_, _, rfl⟩ | ⟨_, rfl⟩ := mem_crew.1 hm <;> cases hk
      · simp at ht
    refine ⟨fun e => ?_, fun max _ e => ?_⟩
    · rw [none, epoch_launch]
      rfl
    · rw [epoch_launch]
      exact Nat.zero_le _
  | next h c ih => exact c.housed h ih

/-- The temporary workers of an epoch that the clock ended: it could not show the end of their idle
time. -/
def overrun (w : World ν) (e : EpochId) : Finset TaskId :=
  w.those fun t task => task.isTemp e && task.isCrashed && (w.told t).isCalm

/-- A temporary worker that keeps its place is not over, or the hook ended it before it left, or the
clock did; and it is only one of these. -/
theorem Evolved.keepsPlace_cases {settings : Settings} {hook : Option Hook}
    (h : Evolved settings hook w) {task : Task ν} (ht : w.tasks[t]? = some task) (e : EpochId) :
    (t ∈ w.keepers e ↔ t ∈ w.alive e ∨ t ∈ w.leaked e ∨ t ∈ w.overrun e) ∧
      (t ∈ w.alive e → t ∉ w.leaked e ∧ t ∉ w.overrun e) ∧
      (t ∈ w.leaked e → t ∉ w.overrun e) := by
  simp only [keepers, alive, leaked, overrun, mem_those_of_task ht]
  rcases task with ⟨home, _ | _, state⟩ | _ | _
  · simp [Task.keepsPlace, Task.isTemp]
  · cases state with
    | gone crashed =>
      cases crashed with
      | false => simp [Task.keepsPlace, Task.isOver, Task.isCrashed]
      | true =>
        have ended : Ended hook w.Untimed .temporary true (w.told t) := h.tells ht
        obtain ⟨hl, hs, hc⟩ | ⟨hl, hs, hc⟩ | ⟨hl, hs, hc, _⟩ := ended.crashed_cases <;>
          simp [Task.keepsPlace, Task.isTemp, Task.isOver, Task.isCrashed, hl, hs, hc]
    | _ => simp [Task.keepsPlace, Task.isOver, Task.isCrashed]
  · simp [Task.keepsPlace, Task.isTemp]
  · simp [Task.keepsPlace, Task.isTemp]

/-- Places are kept by the temporary workers that are not over, by those that the hook ended before
they left, and by those that the clock ended. -/
theorem Evolved.card_keepers {settings : Settings} {hook : Option Hook}
    (h : Evolved settings hook w) (e : EpochId) :
    (w.keepers e).card = (w.alive e).card + (w.leaked e).card + (w.overrun e).card := by
  have task : ∀ {p : TaskId → Task ν → Bool} {t : TaskId}, t ∈ w.those p →
      ∃ task, w.tasks[t]? = some task := fun ht => (mem_those.1 ht).imp fun _ h => h.1
  have split : w.keepers e = w.alive e ∪ w.leaked e ∪ w.overrun e := by
    ext t
    simp only [Finset.mem_union, or_assoc]
    cases ht : w.tasks[t]? with
    | none => simp [keepers, alive, leaked, overrun, mem_those, ht]
    | some task => exact (h.keepsPlace_cases ht e).1
  have apart : Disjoint (w.alive e) (w.leaked e) := by
    rw [Finset.disjoint_left]
    intro t ht
    obtain ⟨task, htask⟩ := task ht
    exact ((h.keepsPlace_cases htask e).2.1 ht).1
  have apart' : Disjoint (w.alive e ∪ w.leaked e) (w.overrun e) := by
    rw [Finset.disjoint_left]
    intro t ht
    rcases Finset.mem_union.1 ht with ht | ht
    · obtain ⟨task, htask⟩ := task ht
      exact ((h.keepsPlace_cases htask e).2.1 ht).2
    · obtain ⟨task, htask⟩ := task ht
      exact (h.keepsPlace_cases htask e).2.2 ht
  rw [split, Finset.card_union_of_disjoint apart', Finset.card_union_of_disjoint apart]

/-- While the clock can show the end of an idle time it ends no worker. -/
theorem Evolved.overrun_eq_empty {settings : Settings} {hook : Option Hook}
    (h : Evolved settings hook w) (ht : ¬ w.Untimed) (e : EpochId) : w.overrun e = ∅ := by
  rw [Finset.eq_empty_iff_forall_notMem]
  intro t hm
  obtain ⟨task, htask, hp⟩ := mem_those.1 hm
  simp only [Bool.and_eq_true] at hp
  obtain ⟨⟨htemp, hcrashed⟩, hcalm⟩ := hp
  rcases task with ⟨home, kind, _ | _ | _ | _ | _ | crashed⟩ | _ | _ <;>
    simp only [Task.isCrashed, Bool.false_eq_true] at hcrashed
  subst hcrashed
  have ended : Ended hook w.Untimed kind true (w.told t) := h.tells htask
  obtain ⟨_, _, hc⟩ | ⟨_, _, hc⟩ | ⟨_, _, _, hu⟩ := ended.crashed_cases
  · simp [hc] at hcalm
  · simp [hc] at hcalm
  · exact ht hu

/-- The count that a worker was hired with is one that it may join with. -/
theorem Evolved.admits_seeded {settings : Settings} {hook : Option Hook}
    (h : Evolved settings hook w) {kind : WorkerKind} {live : Nat} {x : Entry ν}
    (ht : w.tasks[t]? = some (.worker e kind (.seeded live x))) : settings.Admits live := by
  refine h.worker (P := fun _ _ _ _ state => ∀ live x, state = .seeded live x →
    settings.Admits live) ?_ ?_ ht live x rfl
  · intro w u t e kind state _ hired hs _ live x hstate
    cases hired with
    | crew => cases hstate
    | seed _ hb =>
      cases hstate
      exact ⟨Nat.succ_pos _, fun max hm => hb max (hs ▸ hm)⟩
  · intro w u t e kind state state' cs _ _ _ _ turn ih live x hstate
    subst hstate
    cases turn with
    | still => exact ih live x rfl
    | finishes _ _ _ hs =>
      obtain ⟨hs, _⟩ | ⟨_, hs, _⟩ | ⟨hs, _⟩ := hs <;> cases hs

/-- Every worker joins with a count of at least one, itself, and of at most what the settings
allow. -/
theorem Reachable.admits_join {settings : Settings} {hook : Option Hook}
    (h : Reachable settings hook w) {live : Nat} {panic : Option Panic}
    (hm : .hook e t (.join live) panic ∈ w.occurrences) : settings.Admits live := by
  refine h.induct (P := fun w => ∀ e t live panic, .hook e t (.join live) panic ∈ w.occurrences →
    settings.Admits live) ?_ ?_ e t live panic hm
  · intro _ e t live panic hm
    rw [occurrences_launch] at hm
    simp [occurrences] at hm
  · intro v u hv ih m e t live panic hm
    obtain hold | ⟨_, hc⟩ := m.hook_mem hv.evolved.sound hm
    · exact ih e t live panic hold
    · cases hc with
      | join ht => exact hv.evolved.admits_seeded ht

/-- A temporary worker that has left its loop still has its place. -/
theorem Housed.temps_pos (h : w.Housed)
    (ht : w.tasks[t]? = some (.worker e .temporary .leaving)) : 0 < (w.epoch e).temps := by
  rw [h.count]
  refine Finset.card_pos.2 ⟨t, (mem_those_of_task ht).2 ?_⟩
  simp [Task.keepsPlace, Task.isTemp, Task.isOver]

/-- A temporary worker that takes its last step gives one place back. -/
theorem temps_step_leaving (hw : w.Sound)
    (ht : w.tasks[t]? = some (.worker e .temporary .leaving)) :
    ((w.step t).epoch e).temps = (w.epoch e).temps - 1 := by
  have he : e < w.epochs.size := hw.home_lt ht rfl
  have hr : w.ready t = true := by simp [ready, ht]
  simp [step, hr, ht, stepWorker, stepLeaving, dismiss, leave, World.log,
    epoch_modifyEpoch_self _ _ _ he]

/-- The workers that are inside of a job that an epoch accepted. -/
def inside (w : World ν) (e : EpochId) : Finset TaskId :=
  w.those fun _ task => task.running?.any fun r => decide (.accepted e r.2 ∈ w.books)

/-- A job is run by a worker of the epoch that accepted it. -/
theorem Ledger.home_of_running (h : w.Ledger) {task : Task ν} (ht : w.tasks[t]? = some task)
    {i : EpochId} {k : Nat} (hr : task.running? = some (i, k)) (ha : w.AcceptedBy e k) : i = e := by
  have hheld : task.held? = some (i, k) := by
    rcases task with ⟨home, kind, _ | _ | _ | _ | _ | _⟩ | _ | _ <;>
      simp_all [Task.running?, Task.held?]
  have hpos := holders_pos ht hheld
  have hkept := h.kept i k
  exact h.accepted_unique ha (List.count_pos_iff.1 (by omega))

/-- The workers of an epoch that are inside of its jobs are permanent ones, of which there are as
many as the settings say, and temporary ones that are not over. -/
theorem card_inside_le (hl : w.Ledger) (hm : w.Manned) :
    (w.inside e).card ≤ w.settings.minWorkers + (w.alive e).card := by
  have post : ∀ t ∈ w.inside e \ w.alive e, ∃ i < w.settings.minWorkers, ∃ task,
      w.tasks[t]? = some task ∧ task.post? = some (.permanent e i) := by
    intro t ht
    obtain ⟨hin, hn⟩ := Finset.mem_sdiff.1 ht
    obtain ⟨task, htask, hp⟩ := mem_those.1 hin
    obtain ⟨⟨i, k⟩, hr, ha⟩ := Option.any_eq_true _ _ |>.1 hp
    obtain rfl := hl.home_of_running htask hr (of_decide_eq_true ha)
    rw [alive, mem_those_of_task htask] at hn
    rcases task with ⟨home, kind, _ | _ | _ | _ | _ | _⟩ | _ | _ <;>
      simp only [Task.running?, reduceCtorEq, Option.some.injEq, Prod.mk.injEq] at hr
    obtain ⟨rfl, rfl⟩ := hr
    cases kind with
    | permanent j => exact ⟨j, hm.index_lt htask, _, htask, rfl⟩
    | temporary => simp [Task.isTemp, Task.isOver] at hn
  choose! index hindex using post
  have hle : (w.inside e \ w.alive e).card ≤ w.settings.minWorkers := by
    rw [← Finset.card_range w.settings.minWorkers]
    apply Finset.card_le_card_of_injOn index
    · exact fun t ht => Finset.mem_coe.2 (Finset.mem_range.2 (hindex t ht).1)
    · intro t ht s hs heq
      obtain ⟨_, task, htask, hpost⟩ := hindex t ht
      obtain ⟨_, other, hother, hpost'⟩ := hindex s hs
      exact hm.unique htask hother (heq ▸ hpost) hpost'
  have := Finset.card_le_card_sdiff_add_card (s := w.inside e) (t := w.alive e)
  omega

/-- Every place of an epoch is accounted for. -/
structure Accounted (w : World ν) (e : EpochId) : Prop where
  /-- A place is kept by each temporary worker that is not over, and by each that the hook ended
  before it left. -/
  count : (w.epoch e).temps = (w.alive e).card + (w.leaked e).card
  /-- A temporary worker about to give its place back finds it counted. -/
  leaving : ∀ t : TaskId, w.tasks[t]? = some (.worker e .temporary .leaving) → 0 < (w.epoch e).temps
  /-- A temporary worker joins with a count of one or more. -/
  join : ∀ (t : TaskId) (live : Nat) (panic : Option Panic),
    .hook e t (.join live) panic ∈ w.occurrences → 1 ≤ live
  /-- A temporary worker leaves with the count of the places without its own. -/
  leave : ∀ (u : World ν) (t : TaskId) (live : Nat) (panic : Option Panic), Move w u →
    .hook e t (.leave live) panic ∈ u.occurrences →
    .hook e t (.leave live) panic ∉ w.occurrences →
      (w.epoch e).temps = live + 1 ∧ (u.epoch e).temps = live
  /-- If temporary workers are limited, so are the places, the counts that they join with, and the
  jobs that are run at once. -/
  limited : ∀ max, w.settings.maxTemps = some max → (w.epoch e).temps ≤ max ∧
    (∀ (t : TaskId) (live : Nat) (panic : Option Panic),
      .hook e t (.join live) panic ∈ w.occurrences → live ≤ max) ∧
      (w.inside e).card ≤ w.settings.minWorkers + max

/-- The count of temporary workers is right. As long as the clock can show the end of an idle time
that begins now, an epoch counts its temporary workers that are not over and those that the hook
ended as they joined or over a panic of a job, in every state that the pool may come to. -/
theorem accounted_of_timed {settings : Settings} {hook : Option Hook}
    (h : Reachable settings hook w) (ht : (w.deadline? settings.idleTimeout).isSome)
    (e : EpochId) : w.Accounted e := by
  have evolved := h.evolved
  have housed := evolved.housed
  have hset := evolved.same.1
  have timed : ¬ w.Untimed := by
    rw [Untimed, hset]
    exact Option.isSome_iff_ne_none.1 ht
  have count : (w.epoch e).temps = (w.alive e).card + (w.leaked e).card := by
    rw [housed.count, evolved.card_keepers, evolved.overrun_eq_empty timed, Finset.card_empty,
      Nat.add_zero]
  refine ⟨count, fun t => housed.temps_pos, fun t live panic hm => (h.admits_join hm).1,
    fun u t live panic m hu hn => ?_, fun max hmax => ⟨housed.bound max hmax e, ?_, ?_⟩⟩
  · obtain hold | ⟨rfl, hc⟩ := m.hook_mem evolved.sound hu
    · exact absurd hold hn
    · cases hc with
      | leave hl =>
        have := housed.temps_pos hl
        have := temps_step_leaving evolved.sound hl
        omega
  · exact fun t live panic hm => (h.admits_join hm).2 max (hset ▸ hmax)
  · have := card_inside_le evolved.ledger evolved.manned (e := e)
    have := housed.bound max hmax e
    omega

/-- A hook that panics the first time that it is called. -/
def startled : Hook := fun n _ => if n = 0 then some .unprintable else none

/-- A narrow pool to which a client submitted four jobs before its worker began. Two temporary
workers were hired; the hook ended the first one as it joined. -/
def stricken : World Nat :=
  [2, 2, 2, 2, 3].foldl step
    (({ settings := { narrow with maxTemps := some 2 }, hook := some startled :
      World Nat }.launch).spawn
        (.client { body := ⟨List.replicate 4 (.submit ⟨[], .ok ()⟩ ⟨[], .ok ()⟩ 0 1 2), .ok ()⟩ }))

/-- The place of the worker that was ended is counted beside that of the one that lives. -/
theorem accounted_of_timed_stricken :
    Reachable { narrow with maxTemps := some 2 } (some startled) stricken ∧
      (stricken.deadline? narrow.idleTimeout).isSome ∧ (stricken.epoch 0).temps = 2 ∧
      stricken.alive 0 = {4} ∧ stricken.leaked 0 = {3} ∧ stricken.Accounted 0 := by
  have reachable : Reachable { narrow with maxTemps := some 2 } (some startled) stricken :=
    (Reachable.launch _ ⟨by decide, by decide, by decide, by decide⟩).call _ [2, 2, 2, 2, 3]
  have timed : (stricken.deadline? narrow.idleTimeout).isSome := by decide
  exact ⟨reachable, timed, by decide, by decide, by decide, accounted_of_timed reachable timed 0⟩

end World

end WorkerPool
