import WorkerPool.Proofs.Crew

/-!
# The life of a worker

Every elementary change leaves a worker as it is or is one turn of its life: it begins, claims a
job, works on it, finishes it, leaves its loop, or is over. A worker keeps its epoch and its kind
through all of its turns, and tells the hook nothing but what its turns say.
-/

namespace WorkerPool

variable {ν : Type}

/-- What a worker has told the hook, in order: each call with the panic that it ended with. -/
abbrev History := List (HookCall × Option Panic)

/-- The call of the hook by worker `t` that an occurrence is, and the panic it ended with. -/
def Occurrence.callBy? (t : TaskId) : Occurrence ν → Option (HookCall × Option Panic)
  | hook _ worker call panic => if worker = t then some (call, panic) else none
  | _ => none

/-- What a task is, all its life. -/
inductive Role where
  | worker (home : EpochId) (kind : WorkerKind)
  | dispatcher (home : EpochId)
  | client
  deriving DecidableEq, Repr

/-- What a task is. -/
def Task.role : Task ν → Role
  | worker home kind _ => .worker home kind
  | dispatcher home _ => .dispatcher home
  | client _ => .client

@[simp] theorem Task.role_withThread (th : Thread ν) (task : Task ν) :
    (task.withThread th).role = task.role := by
  rcases task with ⟨home, kind, _ | _ | _ | _ | _ | _⟩ | ⟨home, _ | _ | _ | _ | _ | _⟩ | _ <;> rfl

/-- A worker is in some state. -/
theorem Task.role_eq_worker {task : Task ν} {e : EpochId} {kind : WorkerKind} :
    task.role = .worker e kind ↔ ∃ state, task = .worker e kind state := by
  cases task <;> simp [Task.role]

namespace World

/-- What worker `t` has told the hook. -/
abbrev told (w : World ν) (t : TaskId) : History := w.picked (Occurrence.callBy? t)

/-- The next call of the hook, if there is one, with the panic that it ends with. -/
def answer (w : World ν) (call : HookCall) : History :=
  match w.hook with
  | none => []
  | some hook => [(call, hook w.hookCalls call)]

section Told

variable (w : World ν) (t i : TaskId)

/-- The next call of the hook, if there is one, is all that it answers. -/
@[simp] theorem toList_bind_hook (call : HookCall) :
    (w.hook.bind fun hook => some (call, hook w.hookCalls call)).toList = w.answer call := by
  unfold answer
  cases w.hook <;> rfl

/-- A worker hears the answers to its own calls. -/
@[simp] theorem toList_bind_hook_ite (call : HookCall) :
    (w.hook.bind fun hook => if i = t then some (call, hook w.hookCalls call) else none).toList =
      if i = t then w.answer call else [] := by
  by_cases h : i = t <;> simp [h]

/-- A call of the hook fails exactly if the answer is a panic. -/
theorem callHook_eq_true {e : EpochId} {call : HookCall} :
    (w.callHook e t call).1 = true ↔ ∃ p, w.answer call = [(call, some p)] := by
  unfold callHook answer
  cases w.hook <;> simp [Option.isSome_iff_exists]

/-- A call of the hook that does not fail is answered without a panic. -/
theorem callHook_eq_false {e : EpochId} {call : HookCall} :
    (w.callHook e t call).1 = false ↔
      w.answer call = if w.hook.isSome then [(call, none)] else [] := by
  unfold callHook answer
  cases w.hook <;> simp

end Told

variable {w u : World ν} {t : TaskId} {e : EpochId} {kind : WorkerKind}

/-- Nothing that passes beside the jobs is told to the hook. -/
theorem Aside.told (h : Aside w u) (t : TaskId) : u.told t = w.told t :=
  h.picked (fun _ => rfl) fun _ _ => rfl

/-- Code tells the hook nothing. -/
theorem Shift.told {a : Option Nat} {th th' : Thread ν} {w' : World ν}
    (h : Shift t a th w th' w') (i : TaskId) : w'.told i = w.told i := by
  cases h with
  | aside ha => exact ha.told i
  | _ => simp [hire, handOver, giveUp, Occurrence.callBy?]

/-- A task remains what it is. -/
theorem Change.role_eq (c : Change w u) {task : Task ν} (ht : w.tasks[t]? = some task) :
    ∃ task', u.tasks[t]? = some task' ∧ task'.role = task.role := by
  have hlt : t < w.tasks.size := (Array.getElem?_eq_some_iff.1 ht).1
  have set : ∀ {v : World ν} {i : TaskId} {old new : Task ν}, v.tasks = w.tasks →
      w.tasks[i]? = some old → new.role = old.role →
        ∃ task', (v.setTask i new).tasks[t]? = some task' ∧ task'.role = task.role := by
    intro v i old new hv hi hr
    by_cases hti : t = i
    · subst hti
      obtain rfl : task = old := Option.some.inj (ht.symm.trans hi)
      exact ⟨new, getElem?_setTask_self _ _ _ (hv ▸ hlt), hr⟩
    · exact ⟨task, by rw [getElem?_setTask_of_ne _ _ _ hti, hv, ht], rfl⟩
  cases c with
  | aside ha => exact ⟨task, ha.tasks ▸ ht, rfl⟩
  | posted => exact ⟨task, (getElem?_spawn _ _ hlt).trans ht, rfl⟩
  | @code w' i old _ th' hi _ h =>
    by_cases hti : t = i
    · subst hti
      obtain rfl : task = old := Option.some.inj (ht.symm.trans hi)
      exact ⟨_, getElem?_setTask_self _ _ _ (Nat.lt_of_lt_of_le hlt h.grows.tasks), by simp⟩
    · exact ⟨task, ((getElem?_setTask_of_ne _ _ _ hti).trans (h.getElem?_tasks hlt)).trans ht, rfl⟩
  | brokenOff hi => exact set rfl hi rfl
  | began hi => exact set rfl hi rfl
  | welcomed hi => exact set (by simp) hi rfl
  | lost hi => exact set (by simp) hi rfl
  | claimed hi => exact set rfl hi rfl
  | finished hi => exact set (by simp) hi rfl
  | quit hi => exact set rfl hi rfl
  | left hi => exact set rfl hi rfl
  | retired hi => exact set (by simp) hi rfl
  | dispatching hi => exact set rfl hi rfl
  | flushed hi => exact set (by simp) hi rfl
  | woken hi => exact set rfl hi rfl
  | tookIn hi => exact set rfl hi rfl
  | @shut i e state hi => exact set (v := w.modifyEpoch e _) rfl hi rfl
  | collected hi => exact set rfl hi rfl
  | expecting hi => exact set rfl hi rfl
  | discarding hi => exact set rfl hi rfl
  | discarded hi => exact set rfl hi rfl
  | dispersed hi => exact set rfl hi rfl

/-- One elementary change from `w` to `u` as worker `t` of epoch `e` goes through it: the state of
the worker before and after, and what it tells the hook meanwhile. -/
inductive Turn (w u : World ν) (t : TaskId) (e : EpochId) (kind : WorkerKind) :
    WorkerState ν → WorkerState ν → History → Prop
  /-- The change is none of its own. -/
  | still {state : WorkerState ν} : Turn w u t e kind state state []
  /-- A permanent worker begins. -/
  | begins (hk : kind ≠ .temporary) : Turn w u t e kind .hired (.idle none) []
  /-- It begins the job it was hired for. -/
  | joins {live : Nat} {x : Entry ν} (hh : (w.callHook e t (.join live)).1 = false)
      (hs : .started e x.ticket t .seed ∈ u.occurrences) :
      Turn w u t e kind (.seeded live x) (.busy .seed x.ticket { body := x.job.run })
        (w.answer (.join live))
  /-- The hook ends it before it begins. -/
  | fails {live : Nat} {x : Entry ν} (hh : (w.callHook e t (.join live)).1 = true)
      (hl : .lost e x.ticket t ∈ u.occurrences) :
      Turn w u t e kind (.seeded live x) (.gone true) (w.answer (.join live))
  /-- It claims a job. -/
  | claims {alarm : Option Nat} {tier : Tier} {x : Entry ν} {ep : Epoch ν}
      (ho : (w.epoch e).closed = false)
      (hc : (w.epoch e).claim? (kind != .temporary) = some (tier, x, ep))
      (hs : .started e x.ticket t (.tier tier) ∈ u.occurrences) :
      Turn w u t e kind (.idle alarm) (.busy (.tier tier) x.ticket { body := x.job.run }) []
  /-- It goes on with its job. -/
  | works {source : Source} {k : Nat} {th th' : Thread ν} {w' : World ν}
      (h : Shift t (some k) th w th' w') :
      Turn w u t e kind (.busy source k th) (.busy source k th') []
  /-- Its job is over; it rests, or is ended by its hook or by an alarm that the clock cannot
  show. -/
  | finishes {source : Source} {k : Nat} {th : Thread ν} {state : WorkerState ν}
      {cs : History} (ho : th.isOver = true)
      (hf : .finished e k th.body.ending ∈ u.occurrences)
      (hcs : th.body.ending = .ok () ∧ cs = [] ∨ ∃ p, th.body.ending = .error p ∧
        cs = w.answer (.panicked p.message))
      (hs : state = .idle none ∧ kind ≠ .temporary ∨
        (∃ deadline, state = .idle (some deadline) ∧ kind = .temporary) ∨
        state = .gone true ∧
          ((∃ p, th.body.ending = .error p ∧
              (w.callHook e t (.panicked p.message)).1 = true) ∨
            kind = .temporary ∧ source ≠ .seed ∧
              w.deadline? w.settings.idleTimeout = none))
      (hr : ∀ p, th.body.ending = .error p →
        (w.callHook e t (.panicked p.message)).1 = true → state = .gone true) :
      Turn w u t e kind (.busy source k th) state cs
  /-- It leaves its loop. -/
  | quits {state : WorkerState ν}
      (hq : (∃ alarm, state = .idle alarm ∧ ((w.epoch e).closed = true ∨
          (∃ deadline, alarm = some deadline ∧ deadline ≤ w.clock) ∧
            (w.epoch e).claim? (kind != .temporary) = none)) ∨
        state = .hired ∧ kind = .temporary) : Turn w u t e kind state .leaving []
  /-- A permanent worker is over. -/
  | leaves (hk : kind ≠ .temporary) : Turn w u t e kind .leaving (.gone false) []
  /-- A temporary worker gives its place back and is over. -/
  | retires (hk : kind = .temporary) :
      Turn w u t e kind .leaving (.gone (w.callHook e t (.leave ((w.epoch e).temps - 1))).1)
        (w.answer (.leave ((w.epoch e).temps - 1)))

/-- A change that sets one worker anew and tells the hook only what that worker tells it is a turn
of every worker if it is one of that worker. -/
theorem Turn.of_set {v : World ν} {i : TaskId} {home : EpochId} {kind' : WorkerKind}
    {state old new : WorkerState ν} {cs : History}
    (hi : w.tasks[i]? = some (.worker home kind' old)) (hv : v.tasks = w.tasks)
    (hu : u.tasks = (v.setTask i (.worker home kind' new)).tasks)
    (htold : ∀ j, u.told j = w.told j ++ if i = j then cs else [])
    (h : Turn w u i home kind' old new cs) (ht : w.tasks[t]? = some (.worker e kind state)) :
    ∃ state' cs, u.tasks[t]? = some (.worker e kind state') ∧ u.told t = w.told t ++ cs ∧
      Turn w u t e kind state state' cs := by
  by_cases hti : t = i
  · subst hti
    rw [ht, Option.some.injEq, Task.worker.injEq] at hi
    obtain ⟨rfl, rfl, rfl⟩ := hi
    have hlt : t < v.tasks.size := hv ▸ (Array.getElem?_eq_some_iff.1 ht).1
    exact ⟨new, cs, hu ▸ getElem?_setTask_self _ _ _ hlt, by simp [htold], h⟩
  · refine ⟨state, [], ?_, by simp [htold, Ne.symm hti], .still⟩
    rw [hu, getElem?_setTask_of_ne _ _ _ hti, hv, ht]

/-- Every elementary change is a turn of every worker. -/
theorem Change.turn (c : Change w u) {state : WorkerState ν}
    (ht : w.tasks[t]? = some (.worker e kind state)) : ∃ state' cs,
      u.tasks[t]? = some (.worker e kind state') ∧ u.told t = w.told t ++ cs ∧
        Turn w u t e kind state state' cs := by
  have hlt : t < w.tasks.size := (Array.getElem?_eq_some_iff.1 ht).1
  have still : u.tasks[t]? = w.tasks[t]? → u.told t = w.told t → ∃ state' cs,
      u.tasks[t]? = some (.worker e kind state') ∧ u.told t = w.told t ++ cs ∧
        Turn w u t e kind state state' cs :=
    fun hu hc => ⟨state, [], hu.trans ht, by rw [hc, List.append_nil], .still⟩
  have other : ∀ {v : World ν} {i : TaskId} {old new : Task ν}, v.tasks = w.tasks →
      w.tasks[i]? = some old → old.role ≠ .worker e kind →
        (v.setTask i new).tasks[t]? = w.tasks[t]? := by
    intro v i old new hv hi hr
    have hne : t ≠ i := by
      rintro rfl
      obtain rfl := Option.some.inj (hi.symm.trans ht)
      exact hr rfl
    rw [getElem?_setTask_of_ne _ _ _ hne, hv]
  cases c with
  | aside ha => exact still (by rw [ha.tasks]) (ha.told t)
  | posted => exact still (getElem?_spawn _ _ hlt) rfl
  | @code w' i task th th' hi hth h =>
    by_cases hti : t = i
    · subst hti
      obtain rfl : task = .worker e kind state := Option.some.inj (hi.symm.trans ht)
      obtain ⟨_, _, source, k, htask⟩ | ⟨_, _, htask, _⟩ | htask := Task.thread?_eq_some hth
      · cases htask
        exact ⟨_, [], getElem?_setTask_self _ _ _ (Nat.lt_of_lt_of_le hlt h.grows.tasks),
          by simp [h.told], .works h⟩
      · cases htask
      · cases htask
    · exact still ((getElem?_setTask_of_ne _ _ _ hti).trans (h.getElem?_tasks hlt)) (h.told t)
  | brokenOff hi => exact still (other rfl hi (by simp [Task.role])) rfl
  | began hi => exact Turn.of_set hi rfl rfl (by simp) (.begins (by simp)) ht
  | @welcomed i home kind live x hi hh =>
    exact Turn.of_set (v := w.recordAll _) hi (by simp) rfl
      (by simp [World.assign, Occurrence.callBy?]) (.joins hh (by simp [World.assign])) ht
  | lost hi hh =>
    exact Turn.of_set hi (by simp) rfl (by simp [Occurrence.callBy?]) (.fails hh (by simp)) ht
  | @claimed i home kind alarm tier x ep hi ho hc =>
    exact Turn.of_set (v := w.modifyEpoch home _) hi rfl rfl
      (by simp [World.assign, Occurrence.callBy?]) (.claims ho hc (by simp [World.assign])) ht
  | @finished i home kind source k th os state' hi ho hos hs hr =>
    obtain ⟨hend, rfl⟩ | ⟨p, hend, rfl⟩ := hos
    · exact Turn.of_set hi (by simp) rfl (by simp [Occurrence.callBy?])
        (.finishes ho (by simp) (.inl ⟨hend, rfl⟩) hs hr) ht
    · exact Turn.of_set hi (by simp) rfl (by simp [Occurrence.callBy?])
        (.finishes ho (by simp) (.inr ⟨p, hend, rfl⟩) hs hr) ht
  | quit hi hq => exact Turn.of_set hi rfl rfl (by simp) (.quits hq) ht
  | left hi => exact Turn.of_set hi rfl rfl (by simp) (.leaves (by simp)) ht
  | retired hi =>
    exact Turn.of_set hi (by simp) rfl (by simp [Occurrence.callBy?]) (.retires rfl) ht
  | dispatching hi => exact still (other rfl hi (by simp [Task.role])) rfl
  | flushed hi =>
    refine still (other (by simp) hi (by simp [Task.role])) ?_
    simp [Occurrence.callBy?, List.filterMap_map, Function.comp_def]
  | woken hi => exact still (other rfl hi (by simp [Task.role])) rfl
  | tookIn hi =>
    exact still (other rfl hi (by simp [Task.role])) (by simp [takeIn, Occurrence.callBy?])
  | @shut i home _ hi =>
    exact still (other (v := w.modifyEpoch home _) rfl hi (by simp [Task.role])) rfl
  | collected hi =>
    exact still (other rfl hi (by simp [Task.role])) (by simp [takeIn, Occurrence.callBy?])
  | expecting hi => exact still (other rfl hi (by simp [Task.role])) rfl
  | discarding hi => exact still (other rfl hi (by simp [Task.role])) rfl
  | discarded hi =>
    exact still (other rfl hi (by simp [Task.role])) (by simp [Occurrence.callBy?])
  | dispersed hi => exact still (other rfl hi (by simp [Task.role])) rfl

/-- How a worker comes into a pool, in a change from `w` to `u`: with the crew of a new epoch, or
hired for a job that finds both queues full. -/
inductive Hired (w u : World ν) (t : TaskId) (e : EpochId) : WorkerKind → WorkerState ν → Prop
  | crew {i : Nat} (he : e = w.epochs.size) : Hired w u t e (.permanent i) .hired
  | seed {x : Entry ν} (hc : w.current = some e)
      (hb : ∀ limit, w.settings.maxTemps = some limit → (w.epoch e).temps < limit)
      (hs : .seeded e x.ticket t ∈ u.occurrences) :
      Hired w u t e .temporary (.seeded ((w.epoch e).temps + 1) x)

/-- A worker of a new epoch is one of its crew. -/
theorem Hired.launch {state : WorkerState ν} (hu : w.launch.tasks[t]? = some (.worker e kind state))
    (hn : w.tasks[t]? = none) : Hired w w.launch t e kind state := by
  obtain ⟨_, hm⟩ | hold := getElem?_launch_cases hu
  · obtain ⟨i, _, hm⟩ | ⟨_, hm⟩ := mem_crew.1 hm
    · obtain ⟨rfl, rfl, rfl⟩ := Task.worker.inj hm
      exact .crew rfl
    · cases hm
  · rw [hn] at hold
    cases hold

/-- A worker that is new after a change of code has just been hired. -/
theorem Shift.hired_of_new {i : TaskId} {a : Option Nat} {th th' : Thread ν} {w' : World ν}
    (h : Shift i a th w th' w') {state : WorkerState ν}
    (hu : w'.tasks[t]? = some (.worker e kind state)) (hn : w.tasks[t]? = none) :
    Hired w w' t e kind state := by
  cases h with
  | aside ha =>
    rw [ha.tasks, hn] at hu
    cases hu
  | launched => exact .launch hu hn
  | hired job _ _ _ hc _ hb =>
    obtain ⟨rfl, hnew⟩ | hold := getElem?_spawn_cases hu
    · obtain ⟨rfl, rfl, rfl⟩ := Task.worker.inj hnew
      exact .seed hc hb (by simp [hire])
    · simp [hn] at hold
  | _ => simp [handOver, giveUp, hn] at hu

/-- A worker that is new after a change has just been hired. -/
theorem Change.hired_of_new (c : Change w u) {state : WorkerState ν}
    (hu : u.tasks[t]? = some (.worker e kind state)) (hn : w.tasks[t]? = none) :
    Hired w u t e kind state := by
  have old : ∀ {v : World ν} {i : TaskId} {task : Task ν}, v.tasks = w.tasks →
      (v.setTask i task).tasks[t]? ≠ some (.worker e kind state) := by
    intro v i task hv ht
    have hlt : t < (v.setTask i task).tasks.size := (Array.getElem?_eq_some_iff.1 ht).1
    rw [size_setTask, hv] at hlt
    exact Nat.not_lt.2 (Array.getElem?_eq_none_iff.1 hn) hlt
  cases c with
  | aside ha =>
    rw [ha.tasks, hn] at hu
    cases hu
  | posted =>
    obtain ⟨_, hnew⟩ | hold := getElem?_spawn_cases hu
    · cases hnew
    · rw [hn] at hold
      cases hold
  | @code w' i _ _ _ hi _ h =>
    have hne : t ≠ i := by
      rintro rfl
      rw [hn] at hi
      cases hi
    rw [getElem?_setTask_of_ne _ _ _ hne] at hu
    cases h.hired_of_new hu hn with
    | crew he => exact .crew he
    | seed hc hb hs => exact .seed hc hb hs
  | welcomed => exact absurd hu (old (by simp))
  | claimed => exact absurd hu (old rfl)
  | _ => exact absurd hu (old (by simp [takeIn]))

/-- Who is no task tells the hook nothing. -/
theorem Change.told_of_none (c : Change w u) (hn : w.tasks[t]? = none) :
    u.told t = w.told t := by
  have other : ∀ {i : TaskId} {task : Task ν}, w.tasks[i]? = some task → i ≠ t := by
    rintro i task hi rfl
    rw [hn] at hi
    cases hi
  cases c with
  | aside ha => exact ha.told t
  | code _ _ h => exact h.told t
  | welcomed hi => simp [World.assign, Occurrence.callBy?, other hi]
  | lost hi => simp [Occurrence.callBy?, other hi]
  | finished hi _ hos =>
    obtain ⟨_, rfl⟩ | ⟨p, _, rfl⟩ := hos <;> simp [Occurrence.callBy?, other hi]
  | retired hi => simp [Occurrence.callBy?, other hi]
  | flushed => simp [Occurrence.callBy?, List.filterMap_map, Function.comp_def]
  | claimed => simp [World.assign, Occurrence.callBy?]
  | _ => simp [takeIn, shutIntake, Occurrence.callBy?]

/-- Who is no task has told the hook nothing. -/
theorem Evolved.told_eq_nil {settings : Settings} {hook : Option Hook}
    (h : Evolved settings hook w) (hn : w.tasks[t]? = none) : w.told t = [] := by
  induction h with
  | opened =>
    rw [told, picked_launch]
    rfl
  | @next w u _ c ih =>
    have hw : w.tasks[t]? = none := Array.getElem?_eq_none_iff.2
      (Nat.le_trans c.grows.tasks (Array.getElem?_eq_none_iff.1 hn))
    rw [c.told_of_none hw, ih hw]

/-- What holds of every worker as it is hired, and survives each of its turns, holds of every worker
in every state. -/
theorem Evolved.worker {settings : Settings} {hook : Option Hook}
    {P : World ν → TaskId → EpochId → WorkerKind → WorkerState ν → Prop}
    (hired : ∀ {w u : World ν} {t e kind state}, u.settings = settings → Hired w u t e kind state →
      w.settings = settings → u.told t = [] → P u t e kind state)
    (turn : ∀ {w u : World ν} {t e kind state state' cs}, Evolved settings hook w → Change w u →
      w.tasks[t]? = some (.worker e kind state) → u.told t = w.told t ++ cs →
        Turn w u t e kind state state' cs → P w t e kind state → P u t e kind state')
    (h : Evolved settings hook w) {state : WorkerState ν}
    (ht : w.tasks[t]? = some (.worker e kind state)) : P w t e kind state := by
  induction h generalizing t e kind state with
  | opened =>
    refine hired (by simp) (.launch ht (by simp)) rfl ?_
    rw [told, picked_launch]
    rfl
  | @next w u h c ih =>
    cases hw : w.tasks[t]? with
    | none =>
      exact hired ((c.grows.settings).trans h.same.1) (c.hired_of_new ht hw) h.same.1
        ((c.told_of_none hw).trans (h.told_eq_nil hw))
    | some task =>
      obtain ⟨task', hu, hrole⟩ := c.role_eq hw
      rw [ht, Option.some.injEq] at hu
      subst hu
      obtain ⟨old, rfl⟩ := Task.role_eq_worker.1 hrole.symm
      obtain ⟨state', cs, hu, hcs, ht'⟩ := c.turn hw
      rw [ht, Option.some.injEq, Task.worker.injEq] at hu
      obtain ⟨_, _, rfl⟩ := hu
      exact turn h c hw hcs ht' (ih hw)

end World

end WorkerPool
