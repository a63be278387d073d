import Mathlib.Algebra.BigOperators.Group.Finset.Piecewise
import Mathlib.Algebra.Order.BigOperators.Group.Finset
import WorkerPool.Proofs.Slots
import WorkerPool.Proofs.Stillness

/-!
# Who joins also leaves

If the hook never panics, a temporary worker that has joined is at work, or it has left its loop,
given its place back and said so. There is one exception: after a job that was queued a worker sets
its alarm anew, and where the clock cannot show that time, a panic ends it with its place still
taken and its farewell unsaid.
-/

namespace WorkerPool

open scoped BigOperators

variable {ν : Type}

/-- A worker says that it joins. -/
def HookCall.isJoin : HookCall → Bool
  | join _ => true
  | _ => false

namespace HookCall

@[simp] theorem isJoin_join (live : Nat) : (join live).isJoin = true := rfl
@[simp] theorem isJoin_panicked (message : String) : (panicked message).isJoin = false := rfl
@[simp] theorem isJoin_leave (live : Nat) : (leave live).isJoin = false := rfl

end HookCall

/-- A call of the hook of this description by a worker of epoch `e`. -/
def Occurrence.isCall (e : EpochId) (q : HookCall → Bool) : Occurrence ν → Bool
  | hook home _ call _ => home == e && q call
  | _ => false

namespace Task

/-- A worker of epoch `e`. -/
def worksFor (e : EpochId) (task : Task ν) : Bool :=
  match task with
  | worker home _ _ => home == e
  | _ => false

/-- A worker that has begun and is not over. -/
def isInService : Task ν → Bool
  | worker _ _ (.idle _) => true
  | worker _ _ (.busy ..) => true
  | worker _ _ .leaving => true
  | _ => false

end Task

/-- The calls of an epoch are the calls of its workers. -/
theorem countP_isCall {e : EpochId} (q : HookCall → Bool) {s : Finset TaskId}
    {os : List (Occurrence ν)}
    (h : ∀ i t call panic, .hook i t call panic ∈ os → (i = e ↔ t ∈ s)) :
    os.countP (Occurrence.isCall e q) =
      ∑ t ∈ s, (os.filterMap (Occurrence.callBy? t)).countP fun c => q c.1 := by
  induction os with
  | nil => simp
  | cons o os ih =>
    have later := ih fun i t call panic hm => h i t call panic (List.mem_cons_of_mem _ hm)
    cases o with
    | hook i t call panic =>
      have hown := h i t call panic List.mem_cons_self
      have split : ∀ j ∈ s, ((.hook i t call panic :: os).filterMap
          (Occurrence.callBy? j)).countP (fun c => q c.1) =
            (os.filterMap (Occurrence.callBy? j)).countP (fun c => q c.1) +
              if t = j then (if q call then 1 else 0) else 0 := by
        intro j _
        by_cases hj : t = j <;> simp [Occurrence.callBy?, hj, List.countP_cons]
      rw [List.countP_cons, later, Finset.sum_congr rfl split, Finset.sum_add_distrib,
        Finset.sum_ite_eq]
      congr 1
      by_cases hi : i = e
      · simp [Occurrence.isCall, hi, hown.1 hi]
      · have hn : t ∉ s := fun hm => hi (hown.2 hm)
        simp [Occurrence.isCall, hi, hn]
    | _ => simpa [List.countP_cons, List.filterMap_cons, Occurrence.isCall, Occurrence.callBy?]
        using later

/-- A worker in service has joined once if it is a temporary one, and has not taken its leave. -/
theorem InService.countP_eq {hook : Option Hook} {kind : WorkerKind} {cs : History}
    (h : InService hook kind cs) (hh : hook.isSome) :
    (cs.countP fun c => c.1.isJoin) = (if kind = .temporary then 1 else 0) ∧
      (cs.countP fun c => c.1.isLeave) = 0 := by
  induction h with
  | fresh hk => simp [hk]
  | joined hk live => simp [Hook.returned, hh, hk]
  | panicked _ message ih => simp [Hook.returned, hh, ih.1, ih.2]

/-- If no call panicked, a worker that is over has joined once if it was a temporary one. -/
theorem Ended.countP_isJoin {hook : Option Hook} {untimed : Prop} {kind : WorkerKind}
    {crashed : Bool} {cs : History} (h : Ended hook untimed kind crashed cs) (hh : hook.isSome)
    (hc : cs.isCalm = true) :
    (cs.countP fun c => c.1.isJoin) = if kind = .temporary then 1 else 0 := by
  cases h with
  | left _ hs => exact (hs.countP_eq hh).1
  | retired _ hs => simp [(hs.countP_eq hh).1, Hook.returned, hh]
  | overrun _ hs => exact (hs.countP_eq hh).1
  | failed => cases hc
  | upset => simp at hc
  | slammed => simp at hc

/-- A temporary worker in service joined first, and has told of panics of its jobs since. -/
theorem InService.exists_eq {hook : Option Hook} {cs : History} (h : InService hook .temporary cs)
    (hh : hook.isSome) : ∃ (live : Nat) (messages : List String),
      cs = (.join live, none) :: messages.map fun m => (.panicked m, none) := by
  induction h with
  | fresh hk => exact absurd rfl hk
  | joined _ live => exact ⟨live, [], by simp [Hook.returned, hh]⟩
  | panicked _ message ih =>
    obtain ⟨live, messages, rfl⟩ := ih
    exact ⟨live, messages ++ [message], by simp [Hook.returned, hh]⟩

/-- If no call panicked, a temporary worker that has joined and has not said that it leaves is in
service, or the clock ended it. -/
theorem WorkerState.Tells.countP_eq {hook : Option Hook} {untimed : Prop} {kind : WorkerKind}
    {cs : History} {state : WorkerState ν} (h : state.Tells hook untimed kind cs)
    (hh : hook.isSome) (hc : cs.isCalm = true) (e : EpochId) :
    (cs.countP fun c => c.1.isJoin) = (cs.countP fun c => c.1.isLeave) +
      if (Task.worker e kind state).isTemp e &&
        ((Task.worker e kind state).isInService || (Task.worker e kind state).isCrashed)
      then 1 else 0 := by
  have working : InService hook kind cs → (cs.countP fun c => c.1.isJoin) =
      (cs.countP fun c => c.1.isLeave) +
        if (Task.worker e kind state).isTemp e then 1 else 0 := by
    intro hs
    obtain ⟨hj, hl⟩ := hs.countP_eq hh
    rw [hj, hl]
    cases kind <;> simp [Task.isTemp]
  cases state with
  | hired =>
    obtain ⟨_, rfl⟩ := h
    simp [Task.isInService, Task.isCrashed]
  | seeded =>
    obtain ⟨_, rfl⟩ := h
    simp [Task.isInService, Task.isCrashed]
  | idle => simpa [Task.isInService] using working h
  | busy => simpa [Task.isInService] using working h
  | leaving => simpa [Task.isInService] using working h
  | gone crashed =>
    cases (show Ended hook untimed kind crashed cs from h) with
    | left hk hs =>
      obtain ⟨hj, hl⟩ := hs.countP_eq hh
      simp [hj, hl, hk, Task.isInService, Task.isCrashed]
    | retired hk hs live =>
      obtain ⟨hj, hl⟩ := hs.countP_eq hh
      simp [hj, hl, hk, Hook.returned, hh, Task.isInService, Task.isCrashed]
    | failed => cases hc
    | upset => simp at hc
    | slammed => simp at hc
    | overrun _ hs => simpa [Task.isCrashed] using working hs

namespace World

variable {w u : World ν} {t : TaskId} {e : EpochId}

/-- How often a worker of epoch `e` said that it joins. -/
def joins (w : World ν) (e : EpochId) : Nat :=
  w.occurrences.countP (Occurrence.isCall e HookCall.isJoin)

/-- How often a worker of epoch `e` said that it leaves. -/
def leaves (w : World ν) (e : EpochId) : Nat :=
  w.occurrences.countP (Occurrence.isCall e HookCall.isLeave)

/-- The temporary workers of an epoch that have joined and are not over. -/
def joined (w : World ν) (e : EpochId) : Finset TaskId :=
  w.those fun _ task => task.isTemp e && task.isInService

/-- Tasks remain what they are. -/
theorem Changes.role_eq (h : Changes w u) {task : Task ν} (ht : w.tasks[t]? = some task) :
    ∃ task', u.tasks[t]? = some task' ∧ task'.role = task.role := by
  induction h with
  | refl => exact ⟨task, ht, rfl⟩
  | tail _ c ih =>
    obtain ⟨middle, hm, hrole⟩ := ih
    obtain ⟨task', hu, hrole'⟩ := c.role_eq hm
    exact ⟨task', hu, hrole'.trans hrole⟩

/-- Whoever called the hook is a worker of the epoch that it said. -/
theorem Evolved.worker_of_hook {settings : Settings} {hook : Option Hook}
    (h : Evolved settings hook w) {call : HookCall} {panic : Option Panic}
    (hm : .hook e t call panic ∈ w.occurrences) :
    ∃ kind state, w.tasks[t]? = some (.worker e kind state) := by
  induction h with
  | opened =>
    rw [occurrences_launch] at hm
    simp [occurrences] at hm
  | @next v u _ c ih =>
    have still : ∀ {kind state}, v.tasks[t]? = some (.worker e kind state) →
        ∃ kind state, u.tasks[t]? = some (.worker e kind state) := by
      intro kind state ht
      obtain ⟨task', hu, hrole⟩ := c.role_eq ht
      obtain ⟨state', rfl⟩ := Task.role_eq_worker.1 hrole
      exact ⟨kind, state', hu⟩
    obtain hold | hc := c.hook_mem hm
    · obtain ⟨kind, state, ht⟩ := ih hold
      exact still ht
    · cases hc with
      | join ht => exact still ht
      | panicked ht => exact still ht
      | leave ht => exact still ht

/-- The calls of an epoch are those in the histories of its workers. -/
theorem Evolved.countP_isCall {settings : Settings} {hook : Option Hook}
    (h : Evolved settings hook w) (e : EpochId) (q : HookCall → Bool) :
    w.occurrences.countP (Occurrence.isCall e q) =
      ∑ t ∈ w.those fun _ => Task.worksFor e, (w.told t).countP fun c => q c.1 := by
  apply WorkerPool.countP_isCall q
  intro i t call panic hm
  obtain ⟨kind, state, ht⟩ := h.worker_of_hook hm
  rw [mem_those_of_task ht]
  simp [Task.worksFor]

/-- If the hook never panicked in an epoch, every worker that joined has said that it leaves, but
for those in service and those that the clock ended. -/
theorem Evolved.joins_eq {settings : Settings} {hook : Option Hook}
    (h : Evolved settings hook w) (hh : hook.isSome)
    (calm : ∀ t kind state, w.tasks[t]? = some (.worker e kind state) →
      History.isCalm (w.told t) = true) :
    w.joins e = w.leaves e + (w.joined e).card + (w.overrun e).card := by
  have each : ∀ t ∈ w.those fun _ => Task.worksFor e,
      ((w.told t).countP fun c => c.1.isJoin) = ((w.told t).countP fun c => c.1.isLeave) +
        if t ∈ w.joined e ∪ w.overrun e then 1 else 0 := by
    intro t ht
    obtain ⟨task, htask, hp⟩ := mem_those.1 ht
    rcases task with ⟨home, kind, state⟩ | _ | _
    · obtain rfl : home = e := by simpa [Task.worksFor] using hp
      have hc := calm t kind state htask
      have hcount := (h.tells htask).countP_eq hh hc home
      have hmem : t ∈ w.joined home ∪ w.overrun home ↔
          (Task.isTemp home (.worker home kind state) &&
            ((Task.worker home kind state).isInService ||
              (Task.worker home kind state).isCrashed)) = true := by
        rw [Finset.mem_union, joined, overrun, mem_those_of_task htask, mem_those_of_task htask, hc,
          Bool.and_true, Bool.and_or_distrib_left, Bool.or_eq_true]
      simp only [hcount, hmem]
    · cases hp
    · cases hp
  have apart : Disjoint (w.joined e) (w.overrun e) := by
    rw [Finset.disjoint_left]
    intro t ht ho
    obtain ⟨task, htask, hp⟩ := mem_those.1 ht
    rw [overrun, mem_those_of_task htask] at ho
    rcases task with ⟨home, kind, _ | _ | _ | _ | _ | _⟩ | _ | _ <;>
      simp [Task.isInService, Task.isCrashed] at hp ho
  have sub : w.joined e ∪ w.overrun e ⊆ w.those fun _ => Task.worksFor e := by
    have temp : ∀ {task : Task ν}, task.isTemp e = true → task.worksFor e = true := by
      rintro (⟨home, _ | _, state⟩ | _ | _) h
      · cases h
      · exact h
      · cases h
      · cases h
    intro t ht
    rcases Finset.mem_union.1 ht with ht | ht <;> obtain ⟨task, htask, hp⟩ := mem_those.1 ht <;>
      simp only [Bool.and_eq_true] at hp
    · exact mem_those.2 ⟨task, htask, temp hp.1⟩
    · exact mem_those.2 ⟨task, htask, temp hp.1.1⟩
  rw [joins, leaves, h.countP_isCall, h.countP_isCall, Finset.sum_congr rfl each,
    Finset.sum_add_distrib, Finset.sum_ite_mem, Finset.inter_eq_right.2 sub,
    ← Finset.card_eq_sum_ones, Finset.card_union_of_disjoint apart, Nat.add_assoc]

/-- In one turn a worker calls the hook once at most. -/
theorem Turn.said {kind : WorkerKind} {state state' : WorkerState ν} {cs : History}
    (h : Turn w u t e kind state state' cs) : cs = [] ∨ ∃ call, cs = w.answer call := by
  cases h with
  | joins => exact .inr ⟨_, rfl⟩
  | fails => exact .inr ⟨_, rfl⟩
  | finishes _ _ hcs =>
    obtain ⟨_, rfl⟩ | ⟨p, _, rfl⟩ := hcs
    · exact .inl rfl
    · exact .inr ⟨_, rfl⟩
  | retires => exact .inr ⟨_, rfl⟩
  | _ => exact .inl rfl

/-- A calm hook never panicked. -/
theorem Evolved.isCalm_told {settings : Settings} {hook : Option Hook} (h : Evolved settings hook w)
    (calm : Calm hook) {kind : WorkerKind} {state : WorkerState ν}
    (ht : w.tasks[t]? = some (.worker e kind state)) : History.isCalm (w.told t) = true := by
  refine h.worker (P := fun w t _ _ _ => History.isCalm (w.told t) = true) ?_ ?_ ht
  · intro w u t e kind state _ _ _ htold
    rw [htold]
    rfl
  · intro w u t e kind state state' cs hw _ _ htold turn ih
    rw [htold, History.isCalm_append, ih, Bool.true_and]
    obtain rfl | ⟨call, rfl⟩ := turn.said
    · rfl
    · unfold answer
      rw [hw.same.2]
      split
      · rfl
      · simp [calm _ rfl]

/-- A worker that a panic ended under a calm hook was ended by the clock. -/
theorem Evolved.mem_overrun {settings : Settings} {hook : Option Hook} (h : Evolved settings hook w)
    (calm : Calm hook) {kind : WorkerKind}
    (ht : w.tasks[t]? = some (.worker e kind (.gone true))) :
    t ∈ w.overrun e ∧ w.Untimed := by
  have hc := h.isCalm_told calm ht
  have ended : Ended hook w.Untimed kind true (w.told t) := h.tells ht
  rw [overrun, mem_those_of_task ht]
  generalize w.told t = cs at hc ended
  cases ended with
  | failed => cases hc
  | upset => simp at hc
  | slammed => simp at hc
  | overrun hk _ hu => exact ⟨by simp [hk, hc, Task.isTemp, Task.isCrashed], hu⟩

/-- A worker whose job is over can go on. -/
theorem ready_of_isOver (hw : w.Sound) {kind : WorkerKind} {source : Source} {k : Nat}
    {th : Thread ν} (ht : w.tasks[t]? = some (.worker e kind (.busy source k th)))
    (ho : th.isOver = true) : w.ready t = true := by
  have hfits := ((hw.tasks t _ ht).thread th rfl).fits
  have ha : th.body.acts = [] := by
    simp only [Thread.isOver, Bool.and_eq_true, List.isEmpty_iff] at ho
    exact ho.2
  have hwait : th.wait = .nothing := by
    cases hwait : th.wait <;> simp [Thread.Fits, hwait, ha] at hfits ⊢
  simp [ready, ht, threadReady, bodyReady, hwait, ha]

/-- A temporary worker whose queued job is over is ended if the clock cannot show the end of its
idle time. -/
theorem step_of_untimed (hw : w.Sound) (calm : Calm w.hook) (hu : w.Untimed) {tier : Tier} {k : Nat}
    {th : Thread ν} (ht : w.tasks[t]? = some (.worker e .temporary (.busy (.tier tier) k th)))
    (ho : th.isOver = true) :
    (w.step t).tasks[t]? = some (.worker e .temporary (.gone true)) := by
  have hlt : t < w.tasks.size := (Array.getElem?_eq_some_iff.1 ht).1
  have ended : ∀ v : World ν, v.tasks = w.tasks → v.clock = w.clock → v.settings = w.settings →
      (v.rest t e .temporary (.tier tier)).tasks[t]? =
        some (.worker e .temporary (.gone true)) := by
    intro v hv hc hs
    have hd : v.deadline? v.settings.idleTimeout = none := by
      rw [hs, deadline?_congr hc]
      exact hu
    simp only [rest, hd, dismiss, leave, tasks_record]
    exact getElem?_setTask_self _ _ _ (hv ▸ hlt)
  simp only [step, ready_of_isOver hw ht ho, if_true, ht, stepWorker, ho, finish]
  split
  · exact ended _ rfl rfl rfl
  · rename_i p _
    generalize hv : (w.record (.finished e k th.body.ending)).log (.jobPanicked p.message) = v
    have hcalm : (v.callHook e t (.panicked p.message)).1 = false :=
      v.callHook_of_calm e t (hv ▸ calm) _
    obtain ⟨n, hn⟩ := v.callHook_eq e t (.panicked p.message)
    split
    · rename_i x hh
      rw [hh] at hcalm
      cases hcalm
    · rename_i x hh
      rw [hh] at hn
      subst hv hn
      exact ended _ (tasks_recordAll _ _) (clock_recordAll _ _) (settings_recordAll _ _)

/-- What becomes of the temporary workers of an epoch if the hook never panics. -/
structure Attended (w : World ν) (e : EpochId) : Prop where
  /-- Whoever joined is in service, has said that it leaves, or was ended by the clock. -/
  joins : w.joins e = w.leaves e + (w.joined e).card + (w.overrun e).card
  /-- A place is kept by each temporary worker that is not over, and by each the clock ended. -/
  places : (w.epoch e).temps = (w.alive e).card + (w.overrun e).card
  /-- A panic ends a worker only if it is a temporary one and the clock cannot show the end of its
  idle time. -/
  crashed : ∀ (t : TaskId) (kind : WorkerKind),
    w.tasks[t]? = some (.worker e kind (.gone true)) →
      t ∈ w.overrun e ∧ w.deadline? w.settings.idleTimeout = none
  /-- Any other temporary worker that is over said first that it joins and last that it leaves. -/
  left : ∀ t : TaskId, w.tasks[t]? = some (.worker e .temporary (.gone false)) →
    ∃ (live remaining : Nat) (messages : List String), w.told t = (.join live, none) ::
      messages.map (fun m => (.panicked m, none)) ++ [(.leave remaining, none)]
  /-- If the clock cannot show the end of its idle time, a temporary worker is ended as soon as a
  queued job of it is over. -/
  ends : ∀ (t : TaskId) (tier : Tier) (k : Nat) (th : Thread ν),
    w.tasks[t]? = some (.worker e .temporary (.busy (.tier tier) k th)) → th.isOver = true →
      w.deadline? w.settings.idleTimeout = none →
        (w.step t).tasks[t]? = some (.worker e .temporary (.gone true))

/-- Under a hook that never panics, temporary workers join and leave in pairs, and no worker is
ended by a panic, but for those whose idle time the clock cannot show: such a worker is ended after
its first queued job, without a farewell and with its place still taken. -/
theorem attended_of_calm {settings : Settings} {hook : Hook} (h : Reachable settings (some hook) w)
    (calm : ∀ n call, hook n call = none) (e : EpochId) : w.Attended e := by
  have evolved := h.evolved
  have calm' : Calm (some hook) := fun f hf => by
    cases hf
    exact calm
  have hhook : w.hook = some hook := evolved.same.2
  refine ⟨evolved.joins_eq rfl fun t kind state ht => evolved.isCalm_told calm' ht, ?_,
    fun t kind ht => evolved.mem_overrun calm' ht, fun t ht => ?_,
    fun t tier k th ht ho hu => step_of_untimed evolved.sound (hhook ▸ calm') hu ht ho⟩
  · have none_leaked : w.leaked e = ∅ := by
      rw [Finset.eq_empty_iff_forall_notMem]
      intro t hm
      obtain ⟨task, ht, hp⟩ := mem_those.1 hm
      rcases task with ⟨home, kind, state⟩ | _ | _
      · have hc := evolved.isCalm_told calm' ht
        simp [History.isStruck_of_isCalm hc] at hp
      · simp [Task.isTemp] at hp
      · simp [Task.isTemp] at hp
    rw [evolved.housed.count, evolved.card_keepers, none_leaked, Finset.card_empty, Nat.add_zero]
  · have ended : Ended (some hook) w.Untimed .temporary false (w.told t) := evolved.tells ht
    generalize w.told t = cs at ended
    cases ended with
    | left hk => exact absurd rfl hk
    | retired _ hs remaining =>
      obtain ⟨live, messages, rfl⟩ := hs.exists_eq rfl
      exact ⟨live, remaining, messages, rfl⟩

/-- An idle time that no clock can show. -/
def patient : Settings := { narrow with idleTimeout := .ofSeconds 18446744073709551615 }

/-- A hook that always returns. -/
def polite : Hook := fun _ _ => none

/-- A narrow pool with this idle time to which a client submitted three jobs before its worker
began. The temporary worker that was hired for the third one ran that and the second one. -/
def outOfTime : World Nat :=
  [1, 1, 1, 2, 2, 2, 2].foldl step
    (({ settings := patient, hook := some polite : World Nat }.launch).spawn
      (.client { body := ⟨List.replicate 3 (.submit ⟨[], .ok ()⟩ ⟨[], .ok ()⟩ 0 1 2), .ok ()⟩ }))

/-- The temporary worker joined and was ended by a panic, so it never said that it leaves and keeps
its place. -/
theorem attended_of_calm_outOfTime :
    patient.Valid ∧ Reachable patient (some polite) outOfTime ∧ outOfTime.joins 0 = 1 ∧
      outOfTime.leaves 0 = 0 ∧ outOfTime.joined 0 = ∅ ∧ outOfTime.overrun 0 = {2} ∧
      (outOfTime.epoch 0).temps = 1 ∧ outOfTime.alive 0 = ∅ ∧ outOfTime.Attended 0 := by
  have valid : patient.Valid := ⟨by decide, by decide, by decide, by decide⟩
  have reachable : Reachable patient (some polite) outOfTime :=
    (Reachable.launch _ valid).call _ [1, 1, 1, 2, 2, 2, 2]
  exact ⟨valid, reachable, by decide, by decide, by decide, by decide, by decide, by decide,
    attended_of_calm reachable (fun _ _ => rfl) 0⟩

end World

end WorkerPool
