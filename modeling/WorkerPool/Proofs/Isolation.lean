import WorkerPool.Proofs.Farewells
import WorkerPool.Proofs.Reentrancy

/-!
# Epochs beside each other

After a stop the tasks of an epoch may go on for as long as they like, beside those of the epochs
that later starts open. A start opens an epoch that is like the first one of a new pool, and no step
of a task of another epoch changes it, unless the code of the task calls the pool.
-/

namespace WorkerPool

variable {ν : Type}

/-- The task as it would be in the first epoch of a pool. -/
def Task.unnumbered : Task ν → Task ν
  | worker _ kind state => worker 0 kind state
  | dispatcher _ state => dispatcher 0 state
  | client thread => client thread

/-- The crew of an epoch is that of the first one but for the number of the epoch. -/
theorem World.unnumbered_crew (s : Settings) (e : EpochId) :
    (crew s e : List (Task ν)).map Task.unnumbered = crew s 0 := by
  unfold crew
  cases s.maxTemps <;> simp [Function.comp_def, Task.unnumbered]

/-- What a running pool is made of, whichever epoch is current. -/
structure Present (ν : Type) where
  /-- The queues, the intake and the backlog, the count of places, and the signals. -/
  epoch : Epoch ν
  /-- The workers and the dispatcher, in the order in which they were hired. -/
  staff : List (Task ν)

/-- An act that lets go of a handle of the pool in the end. -/
def Act.releases : Act ν → Bool
  | deed .drop => true
  | submit .. => true
  | shutdown .. => true
  | _ => false

namespace World

variable {w u v : World ν} {e i : EpochId} {t : TaskId} {settings : Settings}
  {hook : Option Hook}

/-- The tasks of an epoch, without its number. -/
def staff (w : World ν) (e : EpochId) : List (Task ν) :=
  (w.tasks.toList.filter fun task => task.home? = some e).map Task.unnumbered

/-- What the pool is made of, if it runs. -/
def present? (w : World ν) : Option (Present ν) := w.current.map fun e => ⟨w.epoch e, w.staff e⟩

section Staff

/-- An element that is left out gives way to another one that is. -/
theorem filter_set {α : Type} {p : α → Bool} {l : List α} {n : Nat} {x y : α} (h : l[n]? = some x)
    (hx : p x = false) (hy : p y = false) : (l.set n y).filter p = l.filter p := by
  induction l generalizing n with
  | nil => rfl
  | cons z l ih =>
    cases n with
    | zero =>
      obtain rfl : z = x := by simpa using h
      simp [hx, hy]
    | succ n => rw [List.set_cons_succ, List.filter_cons, List.filter_cons, ih (by simpa using h)]

/-- A task of another epoch may change. -/
theorem staff_setTask {old task : Task ν} (ht : w.tasks[t]? = some old) (ho : old.home? ≠ some e)
    (hn : task.home? ≠ some e) : (w.setTask t task).staff e = w.staff e := by
  have hl : w.tasks.toList[t]? = some old := by rwa [Array.getElem?_toList]
  have hset := filter_set (p := fun task => decide (task.home? = some e)) (y := task) hl
    (decide_eq_false ho) (decide_eq_false hn)
  rw [staff, setTask, Array.toList_setIfInBounds, hset, staff]

/-- A task of another epoch may come in addition. -/
theorem staff_spawn {task : Task ν} (hn : task.home? ≠ some e) :
    (w.spawn task).staff e = w.staff e := by
  simp [staff, spawn, List.filter_append, hn]

/-- A new epoch has its crew and nobody else, as nobody works for an epoch that is not there. -/
theorem staff_launch (hn : ∀ task ∈ w.tasks.toList, task.home? ≠ some w.epochs.size) :
    w.launch.staff w.epochs.size = crew w.settings 0 := by
  have hold : w.tasks.toList.filter (fun task => task.home? = some w.epochs.size) = [] := by
    rw [List.filter_eq_nil_iff]
    intro task hm
    simpa using hn task hm
  have hnew : (crew w.settings w.epochs.size : List (Task ν)).filter
      (fun task => task.home? = some w.epochs.size) = crew w.settings w.epochs.size := by
    rw [List.filter_eq_self]
    intro task hm
    obtain ⟨_, _, rfl⟩ | ⟨_, rfl⟩ := mem_crew.1 hm <;> simp [Task.home?]
  rw [staff, tasks_launch, Array.toList_append, List.filter_append, hold, List.nil_append, hnew,
    unnumbered_crew]

end Staff

/-- Task `t` takes a step that is nothing to epoch `e`. -/
structure Spares (e : EpochId) (t : TaskId) (w u : World ν) : Prop where
  epoch : u.epoch e = w.epoch e
  size : u.epochs.size = w.epochs.size
  running : u.running = w.running
  current : u.current = w.current
  tasks : ∀ i, i ≠ t → u.tasks[i]? = w.tasks[i]?

namespace Spares

protected theorem refl (e : EpochId) (t : TaskId) (w : World ν) : Spares e t w w :=
  ⟨rfl, rfl, rfl, rfl, fun _ _ => rfl⟩

theorem setTask (h : Spares e t w u) (task : Task ν) : Spares e t w (u.setTask t task) :=
  ⟨h.epoch, h.size, h.running, h.current,
    fun i hi => (getElem?_setTask_of_ne u t task hi).trans (h.tasks i hi)⟩

theorem record (h : Spares e t w u) (o : Occurrence ν) : Spares e t w (u.record o) :=
  ⟨h.epoch, h.size, h.running, h.current, h.tasks⟩

theorem modifyEpoch (h : Spares e t w u) (hi : i ≠ e) (f : Epoch ν → Epoch ν) :
    Spares e t w (u.modifyEpoch i f) where
  epoch := (u.epoch_modifyEpoch_of_ne i f (Ne.symm hi)).trans h.epoch
  size := (size_modifyEpoch u i f).trans h.size
  running := h.running
  current := h.current
  tasks := h.tasks

/-- What a task does by itself for another epoch is nothing to this one. -/
theorem of_own (h : Own i t w u) (hi : i ≠ e) : Spares e t w u :=
  ⟨h.epochs e (Ne.symm hi), h.size, h.running, h.current, h.tasks⟩

/-- A handle that is not the last one may be let go. -/
theorem letGo (h : Spares e t w u) (hh : u.handles ≠ 1) : Spares e t w u.letGo.2 := by
  unfold World.letGo
  split
  · exact h
  · rename_i hone
    exact absurd hone hh
  · exact ⟨h.epoch, h.size, h.running, h.current, h.tasks⟩

theorem conclude (h : Spares e t w u) (hh : u.handles ≠ 1) (a : Option Nat) (th : Thread ν)
    (answer : ν) : Spares e t w (u.conclude a th answer).2 :=
  (h.record (.note a answer)).letGo hh

theorem awaitExits (h : Spares e t w u) (hh : u.handles ≠ 1) (a : Option Nat) (th : Thread ν)
    (i : EpochId) (deadline : Nat) (timeout : Duration) (done late : ν) :
    Spares e t w (u.awaitExits a th i deadline timeout done late).2 := by
  unfold World.awaitExits
  split_ifs
  · exact (h.record _).conclude hh a th done
  · exact (h.record _).conclude hh a th late
  · exact h

end Spares

/-- The next step of this code is a call of the pool as it is now: it starts or stops it, submits a
job to it, shuts it down, or lets go of its last handle. A submission that stands in line elsewhere
and a shutdown that waits have been made before. -/
inductive Interferes (w : World ν) (th : Thread ν) : Prop
  | starts (h : th.act? = some (.deed .start))
  | stops (h : th.act? = some (.deed .stop))
  | submits {run : Script (Act ν) Unit} {abandon : Script (Deed ν) Unit}
      {accepted refused gone : ν} (h : th.act? = some (.submit run abandon accepted refused gone))
      (hw : ∀ e k, th.wait = .inLine e k → w.current = some e)
  | shuts {timeout : Duration} {done late gone : ν}
      (h : th.act? = some (.shutdown timeout done late gone)) (hw : th.wait = .nothing)
  | releases {act : Act ν} (h : th.act? = some act) (ha : act.releases = true)
      (hh : w.handles = 1)

section Code

variable {th : Thread ν}

/-- A deed is nothing to an epoch unless it calls the pool. -/
theorem spares_perform (b : Option Nat) {d : Deed ν} (h : th.act? = some (.deed d))
    (hq : ¬ w.Interferes th) : Spares e t w (w.perform b d).2 := by
  have refl := Spares.refl e t w
  cases d with
  | note => exact refl.record _
  | log => exact refl.record _
  | start => exact absurd (.starts h) hq
  | stop => exact absurd (.stops h) hq
  | hold =>
    simp only [perform]
    split
    · exact refl
    · exact ⟨rfl, rfl, rfl, rfl, fun _ _ => rfl⟩
  | drop => exact refl.letGo fun hh => hq (.releases h rfl hh)

/-- An act of a body is nothing to the current epoch unless it calls the pool. -/
theorem spares_stepAct (a : Option Nat) (hth : th.Sound w) (hl : th.layers = []) {act : Act ν}
    {rest : List (Act ν)} (ha : th.body.acts = act :: rest) (hc : w.current = some e)
    (hq : ¬ w.Interferes th) : Spares e t w (w.stepAct t a th act).2 := by
  have refl := Spares.refl e t w
  have hact : th.act? = some act := by simp [Thread.act?, hl, ha]
  cases act with
  | deed d => exact spares_perform a hact hq
  | pass gate => exact ⟨rfl, rfl, rfl, rfl, fun _ _ => rfl⟩
  | sleep time =>
    simp only [stepAct]
    split <;> exact refl
  | submit run abandon accepted refused gone =>
    have hh : w.handles ≠ 1 := fun hh => hq (.releases hact rfl hh)
    obtain ⟨i, k, hwait, hi⟩ : ∃ i k, th.wait = .inLine i k ∧ w.current ≠ some i := by
      by_contra hnone
      refine hq (.submits hact fun i k hwait => ?_)
      by_contra hi
      exact hnone ⟨i, k, hwait, hi⟩
    have hne : i ≠ e := by
      rintro rfl
      exact hi hc
    simp only [stepAct, hwait, submitGranted]
    split_ifs
    · exact ((refl.modifyEpoch hne _).record _).conclude hh a th refused
    · exact ((refl.modifyEpoch hne _).record _).conclude hh a th accepted
  | shutdown timeout done late gone =>
    have hh : w.handles ≠ 1 := fun hh => hq (.releases hact rfl hh)
    have hfits := hth.fits
    cases hwait : th.wait with
    | nothing => exact absurd (.shuts hact hwait) hq
    | closing i =>
      simp only [stepAct, hwait]
      exact refl.awaitExits hh a th i _ timeout done late
    | exits i deadline =>
      simp only [stepAct, hwait]
      exact refl.awaitExits hh a th i deadline timeout done late
    | _ => simp [Thread.Fits, hwait, ha] at hfits

/-- Code is nothing to the current epoch unless it calls the pool: what it drains is closed. -/
theorem spares_stepThread (hw : w.Sound) (a : Option Nat) (hth : th.Sound w)
    (hc : w.current = some e) (hq : ¬ w.Interferes th) :
    Spares e t w (w.stepThread t a th).2 := by
  have refl := Spares.refl e t w
  unfold stepThread
  split
  · rename_i hl
    split
    · exact refl
    · rename_i act rest ha
      exact spares_stepAct a hth hl ha hc hq
  · rename_i hl
    rcases hlayers : th.layers with _ | ⟨_ | ⟨k, _ | ⟨d, ds⟩, ending⟩, rest⟩
    · exact refl
    · rename_i i n
      have hclosed := (hth.drains i n (by simp [hlayers])).2
      have hne : i ≠ e := by
        rintro rfl
        exact absurd ((hw.current_open i hc).symm.trans hclosed) (by decide)
      simp only [stepLayers]
      cases (w.epoch i).drain? with
      | some taken => exact (refl.modifyEpoch hne _).record _
      | none =>
        simp only
        split
        · exact refl
        · exact refl.record _
    · cases ending with
      | ok => exact refl
      | error p => exact refl.record _
    · exact spares_perform (some k) (by simp [Thread.act?, hlayers]) hq

end Code

/-- A step of a task of another epoch, or of a client, is nothing to the current epoch unless the
code of the task calls the pool. -/
theorem spares_step (hw : w.Sound) {task : Task ν} (ht : w.tasks[t]? = some task)
    (hc : w.current = some e) (hhome : task.home? ≠ some e)
    (hq : ∀ th, task.thread? = some th → ¬ w.Interferes th) : Spares e t w (w.step t) := by
  obtain still | ⟨old, home, hold, hh, own⟩ | ⟨old, th, hold, hth, hr, hstep⟩ := w.step_own t
  · rw [still]
    exact .refl e t w
  · obtain rfl : task = old := Option.some.inj (ht.symm.trans hold)
    refine .of_own own ?_
    rintro rfl
    exact hhome hh
  · obtain rfl : task = old := Option.some.inj (ht.symm.trans hold)
    rw [hstep]
    exact (spares_stepThread hw task.author? ((hw.tasks t task ht).thread th hth) hc
      (hq th hth)).setTask _

/-- What tasks are tells which epochs they work for. -/
theorem home?_of_role_eq {task task' : Task ν} (h : task'.role = task.role) :
    task'.home? = task.home? := by
  cases task <;> cases task' <;> simp_all [Task.role, Task.home?]

/-- An epoch to which a step is nothing keeps its staff. -/
theorem Spares.staff (h : Spares e t w u) {task task' : Task ν} (ht : w.tasks[t]? = some task)
    (hu : u.tasks[t]? = some task') (hn : task.home? ≠ some e) (hn' : task'.home? ≠ some e) :
    u.staff e = w.staff e := by
  have htasks : u.tasks = (w.setTask t task').tasks := by
    apply Array.ext_getElem?
    intro i
    by_cases hi : i = t
    · subst hi
      rw [hu, getElem?_setTask_self w i task' (Array.getElem?_eq_some_iff.1 ht).1]
    · rw [h.tasks i hi, getElem?_setTask_of_ne w t task' hi]
  rw [World.staff, htasks, ← World.staff, staff_setTask ht hn hn']

/-- A move of others than the current epoch: a step of a task that does not work for it and does not
call the pool, a passing of time, a new call of a client before it begins, or passes left at a gate.
-/
inductive Aloof (w : World ν) : World ν → Prop
  | step {t : TaskId} {task : Task ν} (ht : w.tasks[t]? = some task)
      (hhome : task.home? ≠ w.current)
      (hq : ∀ th, task.thread? = some th → ¬ w.Interferes th) : Aloof w (w.step t)
  | pass {time : Nat} (h : w.clock ≤ time) : Aloof w { w with clock := time }
  | post (code : Script (Act ν) Unit) : Aloof w (w.spawn (.client { body := code }))
  | release (gate : Int) (passes : Nat) : Aloof w { w with gates := w.gates.add gate passes }

theorem Aloof.move (h : Aloof w u) : Move w u := by
  cases h with
  | @step t => exact .step w t
  | @pass time h => exact .pass w time h
  | post code => exact .post w code
  | release gate passes => exact .release w gate passes

/-- A move of others leaves the current epoch what it is. -/
theorem Aloof.keeps (h : Aloof w u) (hw : w.Sound) (hc : w.current = some e) :
    u.current = some e ∧ u.epoch e = w.epoch e ∧ u.staff e = w.staff e := by
  cases h with
  | @step t task ht hhome hq =>
    rw [hc] at hhome
    have spares := spares_step hw ht hc hhome hq
    obtain ⟨task', hu, hrole⟩ := Changes.role_eq ((Move.step w t).changes hw) ht
    refine ⟨spares.current.trans hc, spares.epoch, spares.staff ht hu hhome ?_⟩
    rwa [home?_of_role_eq hrole]
  | pass => exact ⟨hc, rfl, rfl⟩
  | post code => exact ⟨hc, rfl, staff_spawn (by simp [Task.home?])⟩
  | release => exact ⟨hc, rfl, rfl⟩

/-- However many moves others make, the current epoch stays what it is. -/
theorem Evolved.keeps (hw : Evolved settings hook w) (hc : w.current = some e)
    (h : Relation.ReflTransGen Aloof w u) : Evolved settings hook u ∧ u.current = some e ∧
      u.epoch e = w.epoch e ∧ u.staff e = w.staff e := by
  induction h with
  | refl => exact ⟨hw, hc, rfl, rfl⟩
  | tail _ m ih =>
    obtain ⟨hv, hcv, hepoch, hstaff⟩ := ih
    obtain ⟨hcu, hepoch', hstaff'⟩ := m.keeps hv.sound hcv
    exact ⟨hv.changes (m.move.changes hv.sound), hcu, hepoch'.trans hepoch, hstaff'.trans hstaff⟩

/-- A pool that is started is made of a blank epoch and its crew. -/
theorem present?_launch (hn : ∀ task ∈ w.tasks.toList, task.home? ≠ some w.epochs.size) :
    w.launch.present? = some ⟨{}, crew w.settings 0⟩ := by
  rw [present?, current_launch, Option.map_some, epoch_launch, epoch_of_size_le w _ le_rfl,
    staff_launch hn]

/-- In a move from `w` to `u` task `t` has started the pool: it is made of a blank epoch and its
crew, as a new pool is, under the next number, and all the other epochs and tasks are as they
were. -/
structure Renewed (w u : World ν) (t : TaskId) : Prop where
  current : u.current = some w.epochs.size
  blank : u.present? = some ⟨{}, crew w.settings 0⟩
  present : u.present? = ({ settings := w.settings, hook := w.hook : World ν }.launch).present?
  epochs : ∀ i, i < w.epochs.size → u.epoch i = w.epoch i
  tasks : ∀ i, i ≠ t → i < w.tasks.size → u.tasks[i]? = w.tasks[i]?

/-- A start of a stopped pool renews it. -/
theorem renewed_of_start (hw : w.Sound) {task : Task ν} {th : Thread ν}
    (ht : w.tasks[t]? = some task) (hth : task.thread? = some th)
    (hact : th.act? = some (.deed .start)) (hr : w.running = false) (hh : w.handles ≠ 0) :
    Renewed w (w.step t) t := by
  have hnone : ∀ task ∈ w.tasks.toList, task.home? ≠ some w.epochs.size := by
    intro task hm hhome
    obtain ⟨i, hi⟩ := List.mem_iff_getElem?.1 hm
    rw [Array.getElem?_toList] at hi
    exact Nat.lt_irrefl _ (hw.home_lt hi hhome)
  have hlt := (Array.getElem?_eq_some_iff.1 ht).1
  have hhome : task.home? ≠ some w.epochs.size :=
    hnone task (List.mem_iff_getElem?.2 ⟨t, by rwa [Array.getElem?_toList]⟩)
  have hstaff : (w.launch.setTask t (task.withThread th.past)).staff w.epochs.size =
      crew w.settings 0 :=
    (staff_setTask ((getElem?_launch w hlt).trans ht) hhome (by simpa using hhome)).trans
      (staff_launch hnone)
  have hblank : (w.launch.setTask t (task.withThread th.past)).present? =
      some ⟨{}, crew w.settings 0⟩ := by
    rw [present?, current_setTask, current_launch, Option.map_some, hstaff, epoch_setTask,
      epoch_launch, epoch_of_size_le w _ le_rfl]
  have hnew : ({ settings := w.settings, hook := w.hook : World ν }.launch).present? =
      some ⟨{}, crew w.settings 0⟩ := present?_launch (by simp)
  rw [step_of_deed hw ht hth hact (perform_start_of_stopped hr hh)]
  refine ⟨current_launch w, hblank, hblank.trans hnew.symm,
    fun i _ => epoch_launch w i, fun i hi hlt => ?_⟩
  rw [getElem?_setTask_of_ne _ _ _ hi, getElem?_launch w hlt]

/-- How the current epoch of a pool stands to the others. -/
structure Isolated (w : World ν) : Prop where
  /-- A start of the stopped pool makes it what a new pool is, and touches nothing else. -/
  renewed : ∀ (t : TaskId) (task : Task ν) (th : Thread ν), w.tasks[t]? = some task →
    task.thread? = some th → th.act? = some (.deed .start) → w.running = false →
      w.handles ≠ 0 → Renewed w (w.step t) t
  /-- A step of a task of another epoch is nothing to the current one, unless its code calls the
  pool. -/
  spares : ∀ (e : EpochId) (t : TaskId) (task : Task ν), w.current = some e →
    w.tasks[t]? = some task → task.home? ≠ some e →
      (∀ th, task.thread? = some th → ¬ w.Interferes th) → Spares e t w (w.step t)
  /-- While others move the current epoch stays what it is. -/
  keeps : ∀ u, w.running = true → Relation.ReflTransGen Aloof w u → u.present? = w.present?
  /-- The number of temporary workers is zero while the pool is stopped. -/
  stopped : w.running = false → w.tempWorkers = 0
  /-- While it runs these are the temporary workers of the current epoch that have not given their
  places back. -/
  temps : ∀ e, w.current = some e → w.tempWorkers = (w.keepers e).card ∧
    ∀ t ∈ w.keepers e, ∃ state, w.tasks[t]? = some (.worker e .temporary state)

/-- Whatever goes on in epochs that are over, it is nothing to the current one: a start makes the
pool what a new pool is, no task of another epoch changes that but by a call of the pool, and only
temporary workers of the current epoch are counted. -/
theorem isolated_of_reachable (h : Reachable settings hook w) : w.Isolated := by
  have hw := h.evolved
  have sound := hw.sound
  refine ⟨fun t task th ht hth hact hr hh => renewed_of_start sound ht hth hact hr hh,
    fun e t task hc ht hhome hq => spares_step sound ht hc hhome hq, ?_, ?_, ?_⟩
  · intro u hr others
    obtain ⟨e, hc⟩ := sound.exists_current hr
    obtain ⟨_, hcu, hepoch, hstaff⟩ := hw.keeps hc others
    rw [present?, present?, hcu, hc, Option.map_some, Option.map_some, hepoch, hstaff]
  · intro hr
    have hc : w.current = none := by simpa [hr] using sound.running_eq
    simp only [tempWorkers, hc]
  · intro e hc
    refine ⟨by simp only [tempWorkers, hc, hw.housed.count], fun t ht => ?_⟩
    obtain ⟨task, htask, hkeeps⟩ := mem_those.1 ht
    simp only [Task.keepsPlace, Bool.and_eq_true] at hkeeps
    obtain ⟨htemp, _⟩ := hkeeps
    unfold Task.isTemp at htemp
    split at htemp
    · obtain rfl := eq_of_beq htemp
      exact ⟨_, htask⟩
    · cases htemp

/-- A narrow pool to which a client submitted three jobs, and which it has stopped and is about to
start again, before any worker began. -/
def halfway : World Nat :=
  (List.replicate 9 1).foldl step
    (({ settings := narrow : World Nat }.launch).spawn
      (.client { body := ⟨List.replicate 3 (.submit ⟨[], .ok ()⟩ ⟨[], .ok ()⟩ 0 1 2) ++
        [.deed .stop, .deed .start], .ok ()⟩ }))

/-- As the pool is started it is what a new pool is, while a temporary worker of the first epoch has
still its job to run; as this worker begins it takes a place there and none in the second epoch. -/
theorem isolated_of_reachable_halfway :
    Reachable narrow none halfway ∧ Renewed halfway (halfway.step 1) 1 ∧
      (halfway.step 1).current = some 1 ∧ Spares 1 2 (halfway.step 1) ((halfway.step 1).step 2) ∧
      (((halfway.step 1).step 2).epoch 0).temps = 1 ∧
      ((halfway.step 1).step 2).tempWorkers = 0 ∧ halfway.Isolated := by
  have reachable : Reachable narrow none halfway :=
    (Reachable.launch _ narrow_valid).call _ (List.replicate 9 1)
  have later := reachable.move (.step halfway 1)
  have isolated := isolated_of_reachable reachable
  have renewed : Renewed halfway (halfway.step 1) 1 :=
    isolated.renewed 1 (.client ⟨[], ⟨[.deed .start], .ok ()⟩, .nothing⟩) _ rfl rfl rfl
      (by decide) (by decide)
  have spares : Spares 1 2 (halfway.step 1) ((halfway.step 1).step 2) :=
    (isolated_of_reachable later).spares 1 2
      (.worker 0 .temporary (.seeded 1 ⟨2, ⟨⟨[], .ok ()⟩, ⟨[], .ok ()⟩⟩⟩)) renewed.current rfl
      (by decide) (by simp [Task.thread?])
  exact ⟨reachable, renewed, renewed.current, spares, by decide, by decide, isolated⟩

end World

end WorkerPool
