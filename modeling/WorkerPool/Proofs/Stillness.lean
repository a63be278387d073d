import WorkerPool.Proofs.Conservation
import WorkerPool.Proofs.Dispatch

/-!
# An open epoch that stands still

When no task of an open epoch can take a step, everything that still waits there waits for a worker
that is inside of a job: nobody stands at the intake, a backlog means that both queues are full, and
a queued job means that every worker who could claim it is busy. No wake-up is lost on the way.
-/

namespace WorkerPool

variable {ν : Type}

/-- A hook that never panics, or no hook. -/
def Calm (hook : Option Hook) : Prop := ∀ f, hook = some f → ∀ n call, f n call = none

/-- A permanent worker leaves its epoch only once that is closed, and never tires of waiting. -/
def WorkerState.Stays (ep : Epoch ν) : WorkerState ν → Prop
  | hired | busy .. => True
  | seeded .. => False
  | idle alarm => alarm = none
  | leaving | gone _ => ep.closed = true

/-- Who stays in an epoch stays while that is not opened again. -/
theorem WorkerState.Stays.mono {ep ep' : Epoch ν} {state : WorkerState ν} (h : state.Stays ep)
    (hc : ep.closed = true → ep'.closed = true) : state.Stays ep' := by
  cases state with
  | hired => trivial
  | busy => trivial
  | seeded => exact h
  | idle => exact h
  | leaving => exact hc h
  | gone => exact hc h

namespace World

/-- Every permanent worker stays while its epoch is open. -/
def Staffed (w : World ν) : Prop := ∀ (t : TaskId) (e : EpochId) (i : Nat) (state : WorkerState ν),
  w.tasks[t]? = some (.worker e (.permanent i) state) → state.Stays (w.epoch e)

variable {w u : World ν} {e : EpochId}

/-- What grows keeps its permanent workers, whichever is new or was set anew. -/
theorem Staffed.grow (h : w.Staffed) (hw : w.Sound) (g : Grows w u)
    (ht : ∀ (t : TaskId) (e : EpochId) (i : Nat) (state : WorkerState ν),
      u.tasks[t]? = some (.worker e (.permanent i) state) →
        state.Stays (u.epoch e) ∨ w.tasks[t]? = some (.worker e (.permanent i) state)) :
    u.Staffed := by
  intro t e i state hstate
  rcases ht t e i state hstate with hnew | hold
  · exact hnew
  · exact (h t e i state hold).mono (g.closed e (hw.home_lt hold rfl))

/-- A permanent worker that is set anew and stays leaves the others alone. -/
theorem Staffed.setTask (h : w.Staffed) (hw : w.Sound) {v : World ν} (g : Grows w v)
    (hv : v.tasks = w.tasks) {t : TaskId} {task : Task ν}
    (ht : ∀ e i state, task = .worker e (.permanent i) state → state.Stays (v.epoch e)) :
    (v.setTask t task).Staffed := by
  apply h.grow hw (g.trans (.setTask v t task))
  intro j e i state hj
  obtain ⟨rfl, hself⟩ | ⟨_, hother⟩ := getElem?_setTask_cases hj
  · exact .inl (ht e i state hself.symm)
  · exact .inr (hv ▸ hother)

/-- A worker that begins a job is busy. -/
theorem Staffed.assign (h : w.Staffed) (hw : w.Sound) {v : World ν} (g : Grows w v)
    (hv : v.tasks = w.tasks) (t : TaskId) (e : EpochId) (kind : WorkerKind) (source : Source)
    (x : Entry ν) : (v.assign t e kind source x).Staffed := by
  apply h.grow hw (g.trans ((Grows.setTask v t _).trans (.record _ _)))
  intro j e' i state hj
  obtain ⟨rfl, hself⟩ | ⟨_, hother⟩ := getElem?_setTask_cases hj
  · obtain ⟨_, _, rfl⟩ : _ ∧ _ ∧ state = .busy source x.ticket { body := x.job.run } := by
      simpa using hself
    exact .inl trivial
  · exact .inr (hv ▸ hother)

/-- A worker that runs code is busy before and after. -/
theorem Shift.staffed {t : TaskId} {task : Task ν} {th th' : Thread ν} {w' : World ν}
    (h : Shift t task.author? th w th' w') (hth : task.thread? = some th) (hw : w.Sound)
    (hs : w.Staffed) : (w'.setTask t (task.withThread th')).Staffed := by
  apply hs.grow hw (h.grows.trans (.setTask _ _ _))
  intro j e i state hj
  obtain ⟨rfl, hself⟩ | ⟨_, hother⟩ := getElem?_setTask_cases hj
  · obtain ⟨_, _, _, _, rfl⟩ | ⟨_, _, rfl, _⟩ | rfl := Task.thread?_eq_some hth
    · simp only [Task.withThread, Task.worker.injEq] at hself
      obtain ⟨rfl, rfl, rfl⟩ := hself
      exact .inl trivial
    · cases hself
    · cases hself
  · obtain hold | hcrew | ⟨_, _, _, hseeded⟩ := h.getElem?_cases hother
    · exact .inr hold
    · obtain ⟨_, _, hm⟩ | ⟨_, hm⟩ := mem_crew.1 hcrew
      · obtain ⟨_, _, rfl⟩ : _ ∧ _ ∧ state = .hired := by simpa using hm
        exact .inl trivial
      · cases hm
    · simp at hseeded

/-- If the hook is calm, every elementary change keeps the permanent workers. -/
theorem Change.staffed (c : Change w u) (hw : w.Sound) (calm : Calm w.hook) (hs : w.Staffed) :
    u.Staffed := by
  have temporary : ∀ {v : World ν} {t : TaskId} {task : Task ν}, Grows w v → v.tasks = w.tasks →
      (∀ e i state, task ≠ .worker e (.permanent i) state) → (v.setTask t task).Staffed :=
    fun g hv hn => hs.setTask hw g hv fun e i state h => absurd h (hn e i state)
  cases c with
  | aside ha => exact hs.grow hw (.aside ha) fun t e i state h => .inr (ha.tasks ▸ h)
  | posted =>
    refine hs.grow hw (.spawn _ _) fun t e i state h => .inr ?_
    obtain ⟨_, hnew⟩ | hold := getElem?_spawn_cases h
    · cases hnew
    · exact hold
  | code _ hth h => exact h.staffed hth hw hs
  | brokenOff => exact temporary (.refl w) rfl (by simp)
  | began =>
    apply hs.setTask hw (.refl w) rfl
    intro e i state h
    obtain ⟨_, _, rfl⟩ : _ ∧ _ ∧ _ = state := by simpa using h
    rfl
  | welcomed => exact hs.assign hw (.recordAll _ _) (by simp) _ _ _ _ _
  | @lost t e kind live x ht =>
    cases kind with
    | permanent i => exact (hs t e i _ ht).elim
    | temporary => exact temporary (.recordAll _ _) (by simp) (by simp)
  | @claimed t e kind _ _ _ ep _ _ hc =>
    have hclosed := (Epoch.claim_frame hc).1
    exact hs.assign hw (.modifyEpoch w e _ hclosed) rfl _ _ _ _ _
  | @finished t e kind source k th os state ht _ _ hstate =>
    apply hs.setTask hw (.recordAll _ _) (by simp)
    intro e' i state' h
    obtain ⟨rfl, rfl, rfl⟩ : e = e' ∧ kind = .permanent i ∧ state = state' := by simpa using h
    obtain ⟨rfl, _⟩ | ⟨_, _, hk⟩ | ⟨rfl, ⟨p, _, hp⟩ | ⟨hk, _⟩⟩ := hstate
    · rfl
    · cases hk
    · rw [callHook_of_calm w e t calm] at hp
      cases hp
    · cases hk
  | @quit t e kind state ht hq =>
    apply hs.setTask hw (.refl w) rfl
    intro e' i state' h
    obtain ⟨rfl, rfl, rfl⟩ : e = e' ∧ kind = .permanent i ∧ _ = state' := by simpa using h
    have stays := hs t e i state ht
    obtain ⟨alarm, rfl, hclosed | ⟨⟨deadline, rfl, _⟩, _⟩⟩ | ⟨_, hk⟩ := hq
    · exact hclosed
    · cases stays
    · cases hk
  | @left t e i ht =>
    apply hs.setTask hw (.refl w) rfl
    intro e' i' state' h
    obtain ⟨rfl, rfl, rfl⟩ : e = e' ∧ i = i' ∧ _ = state' := by simpa using h
    have stays : (WorkerState.leaving : WorkerState ν).Stays (w.epoch e) := hs t e i _ ht
    exact stays
  | retired =>
    exact temporary ((Grows.modifyEpoch w _ _ rfl).trans (.recordAll _ _)) (by simp) (by simp)
  | dispatching => exact temporary (.refl w) rfl (by simp)
  | flushed =>
    exact temporary ((Grows.modifyEpoch w _ _ (Epoch.flushes_flush _ _).closed).trans
      (.recordAll _ _)) (by simp) (by simp)
  | woken => exact temporary (.modifyEpoch w _ _ rfl) rfl (by simp)
  | tookIn => exact temporary ((Grows.modifyEpoch w _ _ rfl).trans (.record _ _)) rfl (by simp)
  | shut => exact temporary (.modifyEpoch w _ _ rfl) rfl (by simp)
  | collected => exact temporary ((Grows.modifyEpoch w _ _ rfl).trans (.record _ _)) rfl (by simp)
  | expecting => exact temporary (.refl w) rfl (by simp)
  | discarding => exact temporary (.refl w) rfl (by simp)
  | discarded => exact temporary ((Grows.modifyEpoch w _ _ rfl).trans (.record _ _)) rfl (by simp)
  | dispersed => exact temporary (.refl w) rfl (by simp)

/-- A pool with a calm hook keeps its permanent workers. -/
theorem Evolved.staffed {settings : Settings} {hook : Option Hook} (h : Evolved settings hook w)
    (calm : Calm hook) : w.Staffed := by
  induction h with
  | opened =>
    intro t e i state ht
    obtain ⟨_, hm⟩ | ht := getElem?_launch_cases ht
    · obtain ⟨_, _, hm⟩ | ⟨_, hm⟩ := mem_crew.1 hm
      · obtain ⟨_, _, rfl⟩ : _ ∧ _ ∧ state = .hired := by simpa using hm
        trivial
      · cases hm
    · simp at ht
  | next h c ih => exact c.staffed h.sound (by rw [h.same.2]; exact calm) ih

/-- No task that works for the epoch or waits for its intake can take a step. -/
def StillIn (w : World ν) (e : EpochId) : Prop := ∀ (t : TaskId) (task : Task ν),
  w.tasks[t]? = some task → task.home? = some e ∨ w.WaitsFor e t → w.ready t = false

/-- What is left to do in an epoch is left because workers are inside of jobs. -/
structure Served (w : World ν) (e : EpochId) : Prop where
  /-- No job is in the intake, and nobody waits for it. -/
  intake : (w.epoch e).intake.slot = none ∧ (w.epoch e).intake.granted = none ∧
    (w.epoch e).intake.line = [] ∧ ∀ t, ¬ w.WaitsFor e t
  /-- The dispatcher holds jobs only if both queues are full. -/
  backlog : (w.epoch e).backlog ≠ [] →
    (w.epoch e).primary.length = w.settings.primaryCapacity ∧
      (w.epoch e).temp.length = w.settings.tempCapacity
  /-- Jobs are queued only if all permanent workers are there and each is inside of a job. -/
  permanent : (w.epoch e).primary ≠ [] ∨ (w.epoch e).temp ≠ [] → ∀ i < w.settings.minWorkers,
    ∃ (t : TaskId) (source : Source) (k : Nat) (th : Thread ν),
      w.tasks[t]? = some (.worker e (.permanent i) (.busy source k th))
  /-- Jobs are in the temporary queue only if each temporary worker that is not over is inside of a
  job as well. -/
  temporary : (w.epoch e).temp ≠ [] → ∀ (t : TaskId) (state : WorkerState ν),
    w.tasks[t]? = some (.worker e .temporary state) →
      (∃ crashed, state = .gone crashed) ∨ ∃ source k th, state = .busy source k th

/-- Where nobody can take a step no one does. -/
theorem Settled.stillIn (h : w.Settled) (e : EpochId) : w.StillIn e := fun t _ _ _ => h t

/-- A dispatcher that stands still in an open epoch is parked. -/
theorem StillIn.parked (h : w.StillIn e) (hd : w.Dispatched) (ho : (w.epoch e).closed = false)
    {t : TaskId} {state : DispatcherState ν} (ht : w.tasks[t]? = some (.dispatcher e state)) :
    state = .parked := by
  have hready := h t _ ht (.inl rfl)
  have hfits := hd.fits t e state ht
  simp only [ready, ht] at hready
  cases state with
  | hired => cases hready
  | flushing => cases hready
  | parked => rfl
  | collecting => cases hready
  | expecting => simp [DispatcherState.Fits, ho] at hfits
  | discarding => cases hready
  | gone => simp [DispatcherState.Fits, ho] at hfits

/-- Who waits for an intake can go on once the epoch is closed, the intake is shut, or the place is
granted to it. -/
theorem ready_of_line? (hw : w.Sound) {t : TaskId} {k : Nat} (hl : w.line? t = some (e, k))
    (hr : (w.epoch e).closed = true ∨ (w.epoch e).intake.shut = true ∨
      (w.epoch e).intake.granted = some t) : w.ready t = true := by
  rw [line?, Option.bind_eq_some_iff] at hl
  obtain ⟨task, ht, hl⟩ := hl
  rw [Task.line?, Option.bind_eq_some_iff] at hl
  obtain ⟨th, hth, hl⟩ := hl
  have hwait : th.wait = .inLine e k := by
    cases hwait : th.wait <;> simp_all [Wait.line?]
  have hready : w.threadReady t th = true := by
    simp only [threadReady, bodyReady, hwait, Intake.isGrantedTo]
    obtain hr | hr | hr := hr <;> simp [hr]
  have hover : th.isOver = false := by
    by_contra hover
    have := ((hw.tasks t _ ht).thread th hth).fits.line?_eq_none_of_isOver (by simpa using hover)
    rw [hl] at this
    cases this
  obtain ⟨_, _, _, _, rfl⟩ | ⟨_, _, rfl, _⟩ | rfl := Task.thread?_eq_some hth
  · simp [ready, ht, hready]
  · simp [ready, ht]
  · simp [ready, ht, hready, hover]

/-- Nobody waits for the intake of an open epoch that stands still, and no job is in it. -/
theorem StillIn.intake (h : w.StillIn e) (hw : w.Sound) (hl : w.Orderly) (hm : w.Manned)
    (hd : w.Dispatched) (he : e < w.epochs.size) (ho : (w.epoch e).closed = false) :
    (w.epoch e).intake.isFree = true ∧ ∀ t, ¬ w.WaitsFor e t := by
  have waits : ∀ {t : TaskId}, w.WaitsFor e t → (w.epoch e).intake.shut = true ∨
      (w.epoch e).intake.granted = some t → False := by
    rintro t ⟨k, hk⟩ hr
    have hready := ready_of_line? hw hk (.inr hr)
    obtain ⟨task, ht, _⟩ := Option.bind_eq_some_iff.1 hk
    rw [h t task ht (.inr ⟨k, hk⟩)] at hready
    cases hready
  have free : (w.epoch e).intake.isFree = true := by
    cases hn : w.settings.maxTemps with
    | none => exact (hd.unused hn e).2
    | some limit =>
      obtain ⟨t, state, ht⟩ := hm.exists_dispatcher he (by simp [hn])
      obtain rfl := h.parked hd ho ht
      have hready := h t _ ht (.inl rfl)
      simp only [ready, ht, ho, Bool.false_or, Bool.or_eq_false_iff, Option.isSome_eq_false_iff,
        Option.isNone_iff_eq_none] at hready
      refine Intake.isFree_iff.2 ⟨hready.1, ?_⟩
      by_contra hg
      obtain ⟨s, hs⟩ := Option.ne_none_iff_exists'.1 hg
      exact waits ((hl e).waiting s (.inr hs)) (.inr hs)
  refine ⟨free, fun t ht => ?_⟩
  obtain ⟨hslot, hgranted⟩ := Intake.isFree_iff.1 free
  cases hshut : (w.epoch e).intake.shut with
  | true => exact waits ht (.inl hshut)
  | false =>
    have hmem := (hl e).lined hshut t ht
    simp [(hl e).line_eq hslot hgranted, hgranted] at hmem

/-- The dispatcher of an open epoch that stands still holds jobs only if both queues are full. -/
theorem StillIn.backlog (h : w.StillIn e) (hm : w.Manned) (hd : w.Dispatched)
    (he : e < w.epochs.size) (ho : (w.epoch e).closed = false) (hb : (w.epoch e).backlog ≠ []) :
    (w.epoch e).primary.length = w.settings.primaryCapacity ∧
      (w.epoch e).temp.length = w.settings.tempCapacity := by
  cases hn : w.settings.maxTemps with
  | none => exact absurd (hd.unused hn e).1 hb
  | some limit =>
    obtain ⟨t, state, ht⟩ := hm.exists_dispatcher he (by simp [hn])
    obtain rfl := h.parked hd ho ht
    have hready := h t _ ht (.inl rfl)
    simp only [ready, ht, ho, Bool.false_or, Bool.or_eq_false_iff] at hready
    have hfreed : (w.epoch e).freed = false := by simpa [hb] using hready.2
    have hfits := (hd.fits t e _ ht).2
    have hfull : (w.epoch e).Full w.settings := by simpa [hb, hfreed, ho] using hfits
    have hbounded := hd.bounded e
    exact ⟨Nat.le_antisymm hbounded.1 hfull.1, Nat.le_antisymm hbounded.2 hfull.2⟩

/-- A worker that stands still next to a job that it may claim is inside of a job, or over. -/
theorem StillIn.worker (h : w.StillIn e) {t : TaskId} {kind : WorkerKind} {state : WorkerState ν}
    (ht : w.tasks[t]? = some (.worker e kind state))
    (hq : (w.epoch e).hasWork (kind != .temporary) = true) :
    (∃ crashed, state = .gone crashed) ∨ ∃ source k th, state = .busy source k th := by
  have hready := h t _ ht (.inl rfl)
  simp only [ready, ht] at hready
  cases state with
  | hired => cases hready
  | seeded => cases hready
  | idle => simp [hq] at hready
  | busy source k th => exact .inr ⟨source, k, th, rfl⟩
  | leaving => cases hready
  | gone crashed => exact .inl ⟨crashed, rfl⟩

/-- The permanent workers of an open epoch that stands still next to a queued job are all there, and
each is inside of a job. -/
theorem StillIn.permanent (h : w.StillIn e) (hm : w.Manned) (hs : w.Staffed)
    (he : e < w.epochs.size) (ho : (w.epoch e).closed = false)
    (hq : (w.epoch e).primary ≠ [] ∨ (w.epoch e).temp ≠ []) {i : Nat}
    (hi : i < w.settings.minWorkers) :
    ∃ (t : TaskId) (source : Source) (k : Nat) (th : Thread ν),
      w.tasks[t]? = some (.worker e (.permanent i) (.busy source k th)) := by
  obtain ⟨t, state, ht⟩ := hm.exists_permanent he hi
  have hwork : (w.epoch e).hasWork (WorkerKind.permanent i != .temporary) = true := by
    simpa [Epoch.hasWork, or_comm] using hq
  obtain ⟨crashed, rfl⟩ | ⟨source, k, th, rfl⟩ := h.worker ht hwork
  · have stays := hs t e i _ ht
    simp [WorkerState.Stays, ho] at stays
  · exact ⟨t, source, k, th, ht⟩

/-- No wake-up is lost. If the hook never panics, then whenever no task of an open epoch can take a
step, nobody waits at the intake, and all jobs that are queued or buffered wait for workers that are
inside of jobs. -/
theorem served_of_stillIn {settings : Settings} {hook : Option Hook} (h : Reachable settings hook w)
    (calm : Calm hook) (he : e < w.epochs.size) (ho : (w.epoch e).closed = false)
    (hs : w.StillIn e) : w.Served e := by
  have evolved := h.evolved
  have manned := evolved.manned
  obtain ⟨hfree, hwaits⟩ := hs.intake evolved.sound evolved.orderly manned evolved.dispatched he ho
  obtain ⟨hslot, hgranted⟩ := Intake.isFree_iff.1 hfree
  refine ⟨⟨hslot, hgranted, (evolved.orderly e).line_eq hslot hgranted, hwaits⟩, ?_, ?_, ?_⟩
  · exact hs.backlog manned evolved.dispatched he ho
  · intro hq i hi
    exact hs.permanent manned (evolved.staffed calm) he ho hq hi
  · intro hq t state ht
    exact hs.worker ht (by simpa [Epoch.hasWork] using hq)

/-- A narrow pool without temporary workers to which a client submits four jobs that all wait at a
gate: one is run, each queue holds one, and the dispatcher holds the last. -/
def congested : World Nat :=
  [0, 1, 1, 2, 0, 2, 2, 2, 1, 1, 1, 1].foldl step
    (({ settings := { narrow with maxTemps := some 0 } : World Nat }.launch).spawn
      (.client { body := ⟨List.replicate 4 (.submit ⟨[.pass 0], .ok ()⟩ ⟨[], .ok ()⟩ 0 1 2),
        .ok ()⟩ }))

/-- The congested pool stands still, and its backlog waits for two full queues. -/
theorem served_of_stillIn_congested :
    Reachable { narrow with maxTemps := some 0 } none congested ∧ congested.StillIn 0 ∧
      (congested.epoch 0).backlog.length = 1 ∧ (congested.epoch 0).primary.length = 1 ∧
      congested.Served 0 := by
  have reachable : Reachable { narrow with maxTemps := some 0 } none congested :=
    (Reachable.launch none ⟨by decide, by decide, by decide, by decide⟩).call _
      [0, 1, 1, 2, 0, 2, 2, 2, 1, 1, 1, 1]
  have still : congested.StillIn 0 := by
    intro t task ht _
    have hlt : t < 3 := (Array.getElem?_eq_some_iff.1 ht).1
    have hall : ∀ i < 3, congested.ready i = false := by decide
    exact hall t hlt
  refine ⟨reachable, still, by decide, by decide, ?_⟩
  exact served_of_stillIn reachable (by simp [Calm]) (by decide) (by decide) still

end World

end WorkerPool
