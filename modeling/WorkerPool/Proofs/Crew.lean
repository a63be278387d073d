import Mathlib.Data.List.Nodup
import Mathlib.Data.List.Range
import WorkerPool.Proofs.Line

/-!
# The crew of an epoch

Every epoch keeps the crew that it began with: one permanent worker for each index and, if temporary
workers are limited, one dispatcher. A task never changes its post, and nobody holds a post twice.
-/

namespace WorkerPool

variable {ν : Type}

/-- A place in the crew of an epoch. -/
inductive Post where
  | permanent (epoch : EpochId) (index : Nat)
  | dispatcher (epoch : EpochId)
  deriving DecidableEq, Repr

/-- The post that a task holds. -/
def Task.post? : Task ν → Option Post
  | worker home (.permanent index) _ => some (.permanent home index)
  | worker _ .temporary _ => none
  | dispatcher home _ => some (.dispatcher home)
  | client _ => none

/-- The posts of epoch `e`. -/
def Settings.posts (s : Settings) (e : EpochId) : List Post :=
  (List.range s.minWorkers).map (.permanent e) ++
    if s.maxTemps.isSome then [.dispatcher e] else []

@[simp] theorem Task.post?_withThread (th : Thread ν) (task : Task ν) :
    (task.withThread th).post? = task.post? := by
  rcases task with ⟨home, _ | _, _ | _ | _ | _ | _ | _⟩ | ⟨home, _ | _ | _ | _ | _ | _⟩ | _ <;> rfl

/-- The posts of an epoch are its permanent workers and, if temporary workers are limited, its
dispatcher. -/
theorem Settings.mem_posts {s : Settings} {e : EpochId} {p : Post} : p ∈ s.posts e ↔
    (∃ i < s.minWorkers, p = .permanent e i) ∨ s.maxTemps.isSome ∧ p = .dispatcher e := by
  unfold Settings.posts
  cases h : s.maxTemps <;> simp [eq_comm]

/-- No post of an epoch is counted twice. -/
theorem Settings.nodup_posts (s : Settings) (e : EpochId) : (s.posts e).Nodup := by
  refine List.Nodup.append ?_ ?_ ?_
  · exact (List.nodup_range).map fun i j h => by simpa using h
  · split <;> simp
  · intro p hp hd
    obtain ⟨i, _, rfl⟩ := List.mem_map.1 hp
    split at hd <;> simp at hd

/-- Epochs share no posts. -/
theorem Settings.disjoint_posts (s : Settings) {e i : EpochId} (h : e ≠ i) :
    List.Disjoint (s.posts e) (s.posts i) := by
  intro p hp hi
  obtain ⟨_, _, rfl⟩ | ⟨_, rfl⟩ := mem_posts.1 hp <;>
    obtain ⟨_, _, hi⟩ | ⟨_, hi⟩ := mem_posts.1 hi <;> simp_all

namespace World

/-- The posts that tasks hold, in the order of the tasks. -/
def posts (w : World ν) : List Post := w.tasks.toList.filterMap Task.post?

/-- Every post of every epoch is held. -/
def Manned (w : World ν) : Prop :=
  w.posts = (List.range w.epochs.size).flatMap w.settings.posts

section Posts

variable (w : World ν)

@[simp] theorem posts_recordAll (os : List (Occurrence ν)) : (w.recordAll os).posts = w.posts := by
  rw [posts, tasks_recordAll, ← posts]

/-- A task that keeps its post leaves the posts alone. -/
theorem posts_setTask {t : TaskId} {old task : Task ν} (ht : w.tasks[t]? = some old)
    (h : task.post? = old.post?) : (w.setTask t task).posts = w.posts := by
  have hset : (w.tasks.toList.set t task).map Task.post? = w.tasks.toList.map Task.post? := by
    rw [List.map_set, h]
    apply List.ext_getElem?
    intro i
    rw [List.getElem?_set]
    split
    · rename_i hi
      subst hi
      rw [List.getElem?_map, Array.getElem?_toList, ht, if_pos (by
        simpa using (Array.getElem?_eq_some_iff.1 ht).1)]
      rfl
    · rfl
  have hid : ∀ l : List (Task ν), l.filterMap Task.post? = (l.map Task.post?).filterMap id := by
    simp
  rw [posts, posts, setTask, Array.toList_setIfInBounds, hid, hset, ← hid]

/-- Temporary workers and clients hold no post. -/
theorem posts_spawn {task : Task ν} (h : task.post? = none) : (w.spawn task).posts = w.posts := by
  simp [posts, spawn, h]

/-- A new epoch adds its posts. -/
theorem posts_launch : w.launch.posts = w.posts ++ w.settings.posts w.epochs.size := by
  have hcrew : (crew w.settings w.epochs.size : List (Task ν)).filterMap Task.post? =
      w.settings.posts w.epochs.size := by
    unfold crew Settings.posts
    split <;> simp [List.filterMap_append, List.filterMap_map, Function.comp_def, Task.post?]
  simp [posts, hcrew]

end Posts

variable {w u : World ν}

/-- What adds no epoch and no post keeps every post held. -/
theorem Manned.of_same (h : w.Manned) (hs : u.settings = w.settings)
    (he : u.epochs.size = w.epochs.size) (hp : u.posts = w.posts) : u.Manned := by
  rw [Manned, hp, he, hs]
  exact h

/-- A new epoch comes fully manned. -/
theorem Manned.launch (h : w.Manned) : w.launch.Manned := by
  rw [Manned, posts_launch, h, size_epochs_launch, settings_launch, List.range_succ,
    List.flatMap_append]
  simp

/-- Code keeps every post held. -/
theorem Shift.manned {t : TaskId} {a : Option Nat} {th th' : Thread ν} {w' : World ν}
    (h : Shift t a th w th' w') (hm : w.Manned) : w'.Manned := by
  cases h with
  | launched => exact hm.launch
  | aside ha => exact hm.of_same ha.settings (by rw [ha.epochs]) (by rw [posts, ha.tasks, ← posts])
  | hired => exact hm.of_same rfl (by simp [hire]) (posts_spawn _ rfl)
  | _ =>
    refine hm.of_same ?_ ?_ ?_
    · first | rfl | simp
    · first | rfl | simp [handOver, giveUp]
    · first | rfl | simp

/-- Every elementary change keeps every post held. -/
theorem Change.manned (c : Change w u) (hm : w.Manned) : u.Manned := by
  have still : ∀ {v : World ν} {t : TaskId} {old task : Task ν}, v.settings = w.settings →
      v.epochs.size = w.epochs.size → v.tasks = w.tasks → w.tasks[t]? = some old →
      task.post? = old.post? → (v.setTask t task).Manned := by
    intro v t old task hs he hv ht hp
    refine hm.of_same hs he ?_
    rw [v.posts_setTask (hv ▸ ht) hp, posts, hv, ← posts]
  cases c with
  | aside ha => exact hm.of_same ha.settings (by rw [ha.epochs]) (by rw [posts, ha.tasks, ← posts])
  | posted => exact hm.of_same rfl rfl (posts_spawn _ rfl)
  | @code w' t task _ _ ht _ h =>
    have ht' := (h.getElem?_tasks (Array.getElem?_eq_some_iff.1 ht).1).trans ht
    exact (h.manned hm).of_same rfl rfl (w'.posts_setTask ht' (by simp))
  | brokenOff ht => exact still rfl rfl rfl ht rfl
  | began ht => exact still rfl rfl rfl ht rfl
  | @welcomed t e kind live x ht =>
    exact (@still (w.recordAll _) t _ (.worker e kind (.busy .seed x.ticket { body := x.job.run }))
      (by simp) (by simp) (by simp) ht (by cases kind <;> rfl)).of_same rfl rfl rfl
  | @lost t e kind _ _ ht => exact still (by simp) (by simp) (by simp) ht (by cases kind <;> rfl)
  | @claimed t e kind _ _ _ ep ht =>
    exact (still (v := w.modifyEpoch e fun _ => ep) rfl (by simp) rfl ht
      (by cases kind <;> rfl)).of_same rfl rfl rfl
  | @finished t e kind _ _ _ _ _ ht =>
    exact still (by simp) (by simp) (by simp) ht (by cases kind <;> rfl)
  | @quit t e kind _ ht => exact still rfl rfl rfl ht (by cases kind <;> rfl)
  | left ht => exact still rfl rfl rfl ht rfl
  | retired ht => exact still (by simp) (by simp) (by simp) ht rfl
  | dispatching ht => exact still rfl rfl rfl ht rfl
  | flushed ht => exact still (by simp) (by simp) (by simp) ht rfl
  | woken ht => exact still rfl (by simp) rfl ht rfl
  | tookIn ht => exact still rfl (by simp [takeIn]) rfl ht rfl
  | shut ht => exact still rfl (by simp) rfl ht rfl
  | collected ht => exact still rfl (by simp [takeIn]) rfl ht rfl
  | expecting ht => exact still rfl rfl rfl ht rfl
  | discarding ht => exact still rfl rfl rfl ht rfl
  | discarded ht => exact still rfl (by simp) rfl ht rfl
  | dispersed ht => exact still rfl rfl rfl ht rfl

/-- In every state that a pool comes to every post is held. -/
theorem Evolved.manned {settings : Settings} {hook : Option Hook} (h : Evolved settings hook w) :
    w.Manned := by
  induction h with
  | opened => exact Manned.launch (by simp [Manned, posts])
  | next _ c ih => exact c.manned ih

/-- Somebody holds each post of each epoch. -/
theorem Manned.exists_task (h : w.Manned) {e : EpochId} (he : e < w.epochs.size) {p : Post}
    (hp : p ∈ w.settings.posts e) :
    ∃ (t : TaskId) (task : Task ν), w.tasks[t]? = some task ∧ task.post? = some p := by
  have hm : p ∈ w.posts := by
    rw [h]
    exact List.mem_flatMap.2 ⟨e, List.mem_range.2 he, hp⟩
  obtain ⟨task, htask, hpost⟩ := List.mem_filterMap.1 hm
  obtain ⟨t, ht⟩ := List.mem_iff_getElem?.1 htask
  exact ⟨t, task, by simpa using ht, hpost⟩

/-- Every permanent worker of every epoch is there. -/
theorem Manned.exists_permanent (h : w.Manned) {e : EpochId} (he : e < w.epochs.size) {i : Nat}
    (hi : i < w.settings.minWorkers) :
    ∃ (t : TaskId) (state : WorkerState ν),
      w.tasks[t]? = some (.worker e (.permanent i) state) := by
  obtain ⟨t, task, ht, hp⟩ := h.exists_task he (Settings.mem_posts.2 (.inl ⟨i, hi, rfl⟩))
  rcases task with ⟨home, _ | _, state⟩ | _ | _ <;> simp [Task.post?] at hp
  obtain ⟨rfl, rfl⟩ := hp
  exact ⟨t, state, ht⟩

/-- The dispatcher of every epoch is there if temporary workers are limited. -/
theorem Manned.exists_dispatcher (h : w.Manned) {e : EpochId} (he : e < w.epochs.size)
    (hm : w.settings.maxTemps.isSome) : ∃ (t : TaskId) (state : DispatcherState ν),
      w.tasks[t]? = some (.dispatcher e state) := by
  obtain ⟨t, task, ht, hp⟩ := h.exists_task he (Settings.mem_posts.2 (.inr ⟨hm, rfl⟩))
  rcases task with ⟨home, _ | _, state⟩ | ⟨home, state⟩ | _ <;> simp [Task.post?] at hp
  obtain rfl := hp
  exact ⟨t, state, ht⟩

/-- No post is held by two. -/
theorem Manned.unique (h : w.Manned) {t i : TaskId} {task other : Task ν} {p : Post}
    (ht : w.tasks[t]? = some task) (hi : w.tasks[i]? = some other) (hp : task.post? = some p)
    (ho : other.post? = some p) : t = i := by
  have hnodup : w.posts.Nodup := by
    rw [h, List.nodup_flatMap]
    refine ⟨fun e _ => w.settings.nodup_posts e, ?_⟩
    exact List.nodup_range.pairwise_of_forall_ne fun e _ i _ hne =>
      w.settings.disjoint_posts hne
  have hpair := List.pairwise_filterMap.1 hnodup
  rw [List.pairwise_iff_getElem] at hpair
  have apart : ∀ {j k : TaskId} {a b : Task ν}, w.tasks[j]? = some a → w.tasks[k]? = some b →
      a.post? = some p → b.post? = some p → ¬ j < k := by
    intro j k a b hj hk ha hb hlt
    obtain ⟨hjs, rfl⟩ := Array.getElem?_eq_some_iff.1 hj
    obtain ⟨hks, rfl⟩ := Array.getElem?_eq_some_iff.1 hk
    exact hpair j k (by simpa using hjs) (by simpa using hks) hlt p (by simpa using ha) p
      (by simpa using hb) rfl
  exact Nat.le_antisymm (Nat.not_lt.1 (apart hi ht ho hp)) (Nat.not_lt.1 (apart ht hi hp ho))

/-- Whoever holds a post holds one that the settings provide for. -/
theorem Manned.mem_posts (h : w.Manned) {t : TaskId} {task : Task ν} {p : Post}
    (ht : w.tasks[t]? = some task) (hp : task.post? = some p) : ∃ e, p ∈ w.settings.posts e := by
  have hm : p ∈ w.posts := List.mem_filterMap.2 ⟨_, List.mem_of_getElem? (by simpa using ht), hp⟩
  rw [h] at hm
  obtain ⟨e, _, he⟩ := List.mem_flatMap.1 hm
  exact ⟨e, he⟩

/-- An epoch whose temporary workers are not limited has no dispatcher. -/
theorem Manned.isSome_maxTemps (h : w.Manned) {t : TaskId} {e : EpochId} {state : DispatcherState ν}
    (ht : w.tasks[t]? = some (.dispatcher e state)) : w.settings.maxTemps.isSome := by
  obtain ⟨_, hi⟩ := h.mem_posts ht rfl
  obtain ⟨_, _, hp⟩ | ⟨hs, _⟩ := Settings.mem_posts.1 hi
  · cases hp
  · exact hs

/-- There are no more permanent workers than the settings provide for. -/
theorem Manned.index_lt (h : w.Manned) {t : TaskId} {e : EpochId} {i : Nat} {state : WorkerState ν}
    (ht : w.tasks[t]? = some (.worker e (.permanent i) state)) : i < w.settings.minWorkers := by
  obtain ⟨_, hi⟩ := h.mem_posts ht rfl
  obtain ⟨j, hj, hp⟩ | ⟨_, hp⟩ := Settings.mem_posts.1 hi
  · obtain ⟨_, rfl⟩ := Post.permanent.inj hp
    exact hj
  · cases hp

end World

end WorkerPool
