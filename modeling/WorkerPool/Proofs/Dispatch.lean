import WorkerPool.Proofs.Crew

/-!
# What a dispatcher may rely on

While a dispatcher is in one of its states its epoch is in a condition that only the dispatcher
itself can end. The one that matters most is that of a parked dispatcher: if it holds jobs, then
both queues are full, or somebody has said that there is room, or the epoch is closed.
-/

namespace WorkerPool

variable {ν : Type}

/-- The condition of an epoch while its dispatcher is in a state. -/
def DispatcherState.Fits (s : Settings) (ep : Epoch ν) : DispatcherState ν → Prop
  | hired | flushing => ep.intake.shut = false
  | parked => ep.intake.shut = false ∧
      (ep.backlog = [] ∨ ep.freed = true ∨ ep.closed = true ∨ ep.Full s)
  | collecting => ep.intake.shut = true ∧ ep.closed = true ∧ ep.intake.line = []
  | expecting => ep.intake.shut = true ∧ ep.closed = true ∧ ep.intake.line = [] ∧
      ep.intake.slot = none
  | discarding _ => ep.intake.shut = true ∧ ep.closed = true ∧ ep.intake.isFree = true
  | gone => ep.intake.shut = true ∧ ep.closed = true ∧ ep.intake.isFree = true ∧ ep.backlog = []

/-- What all but its own dispatcher may do to an epoch. -/
structure Epoch.Steady (s : Settings) (ep ep' : Epoch ν) : Prop where
  shut : ep'.intake.shut = ep.intake.shut
  closed : ep.closed = true → ep'.closed = true
  backlog : ep'.backlog = ep.backlog
  /-- Room in the queues does not come about unnoticed. -/
  room : ep.freed = true ∨ ep.Full s → ep'.freed = true ∨ ep'.closed = true ∨ ep'.Full s
  /-- Jobs are handed over in an open epoch alone, and only if temporary workers are limited. -/
  slot : ep.closed = true ∨ s.maxTemps = none → ep.intake.slot = none → ep'.intake.slot = none
  /-- A place that is kept for nobody is granted by the dispatcher alone. -/
  granted : ep.intake.granted = none → ep'.intake.granted = none
  line : ep.closed = true → ep.intake.line = [] → ep'.intake.line = []
  bounded : ep.Bounded s → ep'.Bounded s

namespace Epoch

variable {s : Settings} {ep ep' : Epoch ν}

protected theorem Steady.refl (s : Settings) (ep : Epoch ν) : ep.Steady s ep :=
  ⟨rfl, id, rfl, fun h => h.imp id .inr, fun _ => id, id, fun _ => id, id⟩

/-- A free place stays free in a closed epoch, and if temporary workers are not limited. -/
theorem Steady.free (h : ep.Steady s ep') (hc : ep.closed = true ∨ s.maxTemps = none)
    (hf : ep.intake.isFree = true) : ep'.intake.isFree = true := by
  obtain ⟨hs, hg⟩ := Intake.isFree_iff.1 hf
  exact Intake.isFree_iff.2 ⟨h.slot hc hs, h.granted hg⟩

/-- A change that leaves queues, intake and backlog alone. -/
theorem Steady.of_same (hc : ep.closed = true → ep'.closed = true) (hf : ep'.freed = ep.freed)
    (hp : ep'.primary = ep.primary) (ht : ep'.temp = ep.temp) (hi : ep'.intake = ep.intake)
    (hb : ep'.backlog = ep.backlog) : ep.Steady s ep' where
  shut := by rw [hi]
  closed := hc
  backlog := hb
  room h := by
    rw [Full, hp, ht, hf, ← Full]
    exact h.imp id .inr
  slot _ := by
    rw [hi]
    exact id
  granted := by
    rw [hi]
    exact id
  line _ := by
    rw [hi]
    exact id
  bounded h := by rwa [Bounded, hp, ht]

/-- A claim says that there is room. -/
theorem Steady.of_claim {b : Bool} {tier : Tier} {x : Entry ν}
    (h : ep.claim? b = some (tier, x, ep')) : ep.Steady s ep' := by
  obtain ⟨_, _, rest, hp, rfl⟩ | ⟨_, _, rest, ht, rfl⟩ := claim?_eq_some.1 h
  · refine ⟨rfl, id, rfl, fun _ => .inl rfl, fun _ => id, id, fun _ => id, fun hb => ⟨?_, hb.2⟩⟩
    have := hb.1
    rw [hp, List.length_cons] at this
    exact Nat.le_of_succ_le this
  · refine ⟨rfl, id, rfl, fun _ => .inl rfl, fun _ => id, id, fun _ => id, fun hb => ⟨hb.1, ?_⟩⟩
    have := hb.2
    rw [ht, List.length_cons] at this
    exact Nat.le_of_succ_le this

/-- A drain makes room, but only in a closed epoch. -/
theorem Steady.of_drain {x : Entry ν} (hc : ep.closed = true) (h : ep.drain? = some (x, ep')) :
    ep.Steady s ep' := by
  obtain ⟨rest, hp, rfl⟩ | ⟨_, rest, ht, rfl⟩ := drain?_eq_some.1 h
  · refine ⟨rfl, id, rfl, fun _ => .inr (.inl hc), fun _ => id, id, fun _ => id,
      fun hb => ⟨?_, hb.2⟩⟩
    have := hb.1
    rw [hp, List.length_cons] at this
    exact Nat.le_of_succ_le this
  · refine ⟨rfl, id, rfl, fun _ => .inr (.inl hc), fun _ => id, id, fun _ => id,
      fun hb => ⟨hb.1, ?_⟩⟩
    have := hb.2
    rw [ht, List.length_cons] at this
    exact Nat.le_of_succ_le this

/-- Queues that are full take no job. -/
theorem Steady.of_placed {tier : Tier} {x : Entry ν} (h : ep.offer s x = .placed tier ep') :
    ep.Steady s ep' := by
  obtain ⟨_, hf, _, hi, hb, hbounded⟩ := offer_frame h
  obtain ⟨hc, hroom⟩ := offer_eq_placed.1 h
  refine ⟨by rw [hi], by simp [hc], hb, ?_, fun _ => by rw [hi]; exact id, by rw [hi]; exact id,
    fun _ => by rw [hi]; exact id, hbounded⟩
  rintro (hfreed | ⟨hp, ht⟩)
  · exact .inl (hf.trans hfreed)
  · obtain ⟨_, hlt, _⟩ | ⟨_, _, hlt, _⟩ := hroom <;> omega

/-- A job is handed over to an open epoch, and only if temporary workers are limited. -/
theorem Steady.of_put (hc : ep.closed = false) (hm : s.maxTemps ≠ none) (x : Entry ν) :
    ep.Steady s { ep with intake := ep.intake.put x } :=
  ⟨rfl, id, rfl, fun h => h.imp id .inr, fun h => by simp [hc, hm] at h, fun _ => rfl,
    fun _ => id, id⟩

/-- The line of an open epoch may grow. -/
theorem Steady.of_join (hc : ep.closed = false) (t : TaskId) :
    ep.Steady s { ep with intake := ep.intake.join t } :=
  ⟨rfl, id, rfl, fun h => h.imp id .inr, fun _ => id, id, fun h => by simp [hc] at h, id⟩

/-- Who gives up takes no place and no job. -/
theorem Steady.of_leave (t : TaskId) : ep.Steady s { ep with intake := ep.intake.leave t } := by
  refine ⟨?_, id, rfl, fun h => h.imp id .inr, fun _ => by simp, fun hg => ?_, fun _ hl => ?_, id⟩
  · simp only [Intake.leave]
    split <;> simp
  · simp [Intake.leave, hg]
  · simp only [Intake.leave, Intake.grantNext, hl]
    split <;> simp

end Epoch

/-- The condition of an epoch lasts while its dispatcher does nothing. -/
theorem DispatcherState.Fits.steady {s : Settings} {ep ep' : Epoch ν} {state : DispatcherState ν}
    (h : state.Fits s ep) (hs : ep.Steady s ep') : state.Fits s ep' := by
  cases state with
  | hired => exact hs.shut.trans h
  | flushing => exact hs.shut.trans h
  | parked =>
    refine ⟨hs.shut.trans h.1, ?_⟩
    obtain hb | hf | hc | hfull := h.2
    · exact .inl (hs.backlog.trans hb)
    · exact .inr (hs.room (.inl hf))
    · exact .inr (.inr (.inl (hs.closed hc)))
    · exact .inr (hs.room (.inr hfull))
  | collecting => exact ⟨hs.shut.trans h.1, hs.closed h.2.1, hs.line h.2.1 h.2.2⟩
  | expecting =>
    exact ⟨hs.shut.trans h.1, hs.closed h.2.1, hs.line h.2.1 h.2.2.1, hs.slot (.inl h.2.1) h.2.2.2⟩
  | discarding => exact ⟨hs.shut.trans h.1, hs.closed h.2.1, hs.free (.inl h.2.1) h.2.2⟩
  | gone =>
    exact ⟨hs.shut.trans h.1, hs.closed h.2.1, hs.free (.inl h.2.1) h.2.2.1,
      hs.backlog.trans h.2.2.2⟩

/-- A dispatcher that runs code abandons its backlog. -/
theorem Task.eq_dispatcher_of_withThread {task : Task ν} {th th' : Thread ν} {e : EpochId}
    {state : DispatcherState ν} (hth : task.thread? = some th)
    (h : task.withThread th' = .dispatcher e state) :
    ∃ layers, task = .dispatcher e (.discarding layers) ∧ state = .discarding th'.layers := by
  obtain ⟨_, _, _, _, rfl⟩ | ⟨home, layers, rfl, rfl⟩ | rfl := Task.thread?_eq_some hth
  · cases h
  · obtain ⟨rfl, rfl⟩ : home = e ∧ .discarding th'.layers = state := by
      simpa [Task.withThread] using h
    exact ⟨layers, rfl, rfl⟩
  · cases h

/-- What one change can make of the state of a dispatcher, seen from its epoch before. -/
inductive DispatcherState.Next (ep : Epoch ν) : DispatcherState ν → DispatcherState ν → Prop
  | begins : Next ep .hired .flushing
  | parks : Next ep .flushing .parked
  | wakes (ho : ep.closed = false) : Next ep .parked .flushing
  | shuts {state : DispatcherState ν} (hs : state = .flushing ∨ state = .parked)
      (hc : ep.closed = true) : Next ep state .collecting
  | collects {state : DispatcherState ν} (hs : state = .collecting ∨ state = .expecting)
      (hi : ep.intake.slot ≠ none) : Next ep state .collecting
  | expects (hi : ep.intake.slot = none) (hf : ep.intake.isFree = false) :
      Next ep .collecting .expecting
  | discards (hf : ep.intake.isFree = true) : Next ep .collecting (.discarding [])
  | abandons (layers layers' : List (Layer ν)) : Next ep (.discarding layers) (.discarding layers')
  | ends : Next ep (.discarding []) .gone

/-- Whether the dispatcher has begun to abandon what it holds. -/
def DispatcherState.isAbandoning : DispatcherState ν → Bool
  | discarding _ | gone => true
  | _ => false

/-- A dispatcher that has begun to abandon what it holds does nothing else any more. -/
theorem DispatcherState.Next.isAbandoning {ep : Epoch ν} {state state' : DispatcherState ν}
    (h : state.Next ep state') (hs : state.isAbandoning = true) : state'.isAbandoning = true := by
  cases h with
  | shuts h => obtain rfl | rfl := h <;> cases hs
  | collects h => obtain rfl | rfl := h <;> cases hs
  | abandons => rfl
  | ends => rfl
  | _ => cases hs

namespace World

/-- Every epoch is in the condition that its dispatcher relies on. -/
structure Dispatched (w : World ν) : Prop where
  fits : ∀ (t : TaskId) (e : EpochId) (state : DispatcherState ν),
    w.tasks[t]? = some (.dispatcher e state) → state.Fits w.settings (w.epoch e)
  bounded : ∀ e, (w.epoch e).Bounded w.settings
  /-- Without a dispatcher there is nothing to dispatch. -/
  unused : w.settings.maxTemps = none →
    ∀ e, (w.epoch e).backlog = [] ∧ (w.epoch e).intake.isFree = true

variable {w u : World ν}

/-- A change of one epoch is steady for all if it is for that one. -/
theorem steady_modifyEpoch {s : Settings} (e : EpochId) {f : Epoch ν → Epoch ν}
    (h : (w.epoch e).Steady s (f (w.epoch e))) (i : EpochId) :
    (w.epoch i).Steady s ((w.modifyEpoch e f).epoch i) := by
  obtain hi | ⟨rfl, hi⟩ := w.epoch_modifyEpoch_cases e f i
  · rw [hi]
    exact .refl _ _
  · rwa [hi]

/-- What is steady for every epoch keeps their conditions, whichever dispatcher is new. -/
theorem Dispatched.steady (h : w.Dispatched) (hs : u.settings = w.settings)
    (he : ∀ e, (w.epoch e).Steady w.settings (u.epoch e))
    (ht : ∀ (t : TaskId) (e : EpochId) (state : DispatcherState ν),
      u.tasks[t]? = some (.dispatcher e state) →
        state.Fits u.settings (u.epoch e) ∨ w.tasks[t]? = some (.dispatcher e state)) :
    u.Dispatched where
  fits t e state htask := by
    rcases ht t e state htask with hf | hw
    · exact hf
    · rw [hs]
      exact (h.fits t e state hw).steady (he e)
  bounded e := by
    rw [hs]
    exact (he e).bounded (h.bounded e)
  unused hm e := by
    rw [hs] at hm
    obtain ⟨hb, hf⟩ := h.unused hm e
    exact ⟨(he e).backlog.trans hb, (he e).free (.inr hm) hf⟩

/-- A dispatcher that looks for what is still under way has shut its intake, and nobody stands in
line there any more. -/
theorem Dispatched.collects (h : w.Dispatched) {t : TaskId} {e : EpochId}
    {state : DispatcherState ν} (ht : w.tasks[t]? = some (.dispatcher e state))
    (hs : state = .collecting ∨ state = .expecting) : (w.epoch e).intake.shut = true ∧
      (w.epoch e).closed = true ∧ (w.epoch e).intake.line = [] := by
  have hf := h.fits t e state ht
  obtain rfl | rfl := hs
  · exact hf
  · exact ⟨hf.1, hf.2.1, hf.2.2.1⟩

/-- The conditions depend on the epochs and the dispatchers alone. -/
theorem Dispatched.of_same (h : w.Dispatched) (hs : u.settings = w.settings)
    (he : ∀ e, u.epoch e = w.epoch e) (ht : u.tasks = w.tasks) : u.Dispatched :=
  h.steady hs (fun e => (he e).symm ▸ .refl _ _) fun _ _ _ hi => .inr (ht ▸ hi)

/-- A worker is no dispatcher, so that it may go to any state if all else is steady. -/
theorem Dispatched.setWorker (h : w.Dispatched) {v : World ν} (hs : v.settings = w.settings)
    (hv : v.tasks = w.tasks) (he : ∀ e, (w.epoch e).Steady w.settings (v.epoch e)) {t : TaskId}
    {e : EpochId} {kind : WorkerKind} {state : WorkerState ν} :
    (v.setTask t (.worker e kind state)).Dispatched := by
  refine h.steady hs he fun i e' state' hi => .inr ?_
  obtain ⟨_, hself⟩ | ⟨_, hother⟩ := getElem?_setTask_cases hi
  · cases hself
  · rwa [hv] at hother

/-- A dispatcher may go to any state that fits. -/
theorem Dispatched.setDispatcher (h : w.Dispatched) {t : TaskId} {e : EpochId}
    {state : DispatcherState ν} (hf : state.Fits w.settings (w.epoch e)) :
    (w.setTask t (.dispatcher e state)).Dispatched := by
  refine h.steady rfl (fun _ => .refl _ _) fun i e' state' hi => ?_
  obtain ⟨rfl, hself⟩ | ⟨_, hother⟩ := getElem?_setTask_cases hi
  · obtain ⟨rfl, rfl⟩ : e' = e ∧ state' = state := by simpa using hself
    exact .inl hf
  · exact .inr hother

/-- A dispatcher may do to its epoch what it likes if it goes to a state that fits. -/
theorem Dispatched.act (h : w.Dispatched) (hm : w.Manned) {t : TaskId} {e : EpochId}
    {old state : DispatcherState ν} (ht : w.tasks[t]? = some (.dispatcher e old))
    (he : e < w.epochs.size) (f : Epoch ν → Epoch ν) (os : List (Occurrence ν))
    (hb : (w.epoch e).Bounded w.settings → (f (w.epoch e)).Bounded w.settings)
    (hf : state.Fits w.settings (f (w.epoch e))) :
    (((w.modifyEpoch e f).recordAll os).setTask t (.dispatcher e state)).Dispatched where
  fits i e' state' hi := by
    rw [settings_setTask, settings_recordAll, settings_modifyEpoch, epoch_setTask,
      epoch_recordAll]
    obtain ⟨rfl, hself⟩ | ⟨hne, hother⟩ := getElem?_setTask_cases hi
    · obtain ⟨rfl, rfl⟩ : e' = e ∧ state' = state := by simpa using hself
      rwa [epoch_modifyEpoch_self _ _ _ he]
    · rw [tasks_recordAll, tasks_modifyEpoch] at hother
      have hee : e' ≠ e := by
        rintro rfl
        exact hne (hm.unique hother ht rfl rfl)
      rw [epoch_modifyEpoch_of_ne _ _ _ hee]
      exact h.fits i e' state' hother
  bounded i := by
    rw [settings_setTask, settings_recordAll, settings_modifyEpoch, epoch_setTask,
      epoch_recordAll]
    obtain hi | ⟨rfl, hi⟩ := w.epoch_modifyEpoch_cases e f i
    · rw [hi]
      exact h.bounded i
    · rw [hi]
      exact hb (h.bounded i)
  unused hn := by
    have hsome := hm.isSome_maxTemps ht
    rw [settings_setTask, settings_recordAll, settings_modifyEpoch] at hn
    simp [hn] at hsome

/-- Code is steady for every epoch. -/
theorem Shift.steady {t : TaskId} {a : Option Nat} {th th' : Thread ν} {w' : World ν}
    (h : Shift t a th w th' w') (hth : th.Sound w) (hu : w.settings.maxTemps = none →
      ∀ e, (w.epoch e).intake.isFree = true) (e : EpochId) :
    (w.epoch e).Steady w.settings (w'.epoch e) := by
  cases h with
  | @abandoned i n rest x ep hl hd =>
    have hc := (hth.drains i n (by simp [hl])).2
    exact steady_modifyEpoch (f := fun _ => ep) i (.of_drain hc hd) e
  | @halted i =>
    exact steady_modifyEpoch (f := fun ep => { ep with closed := true }) i
      (.of_same (fun _ => rfl) rfl rfl rfl rfl rfl) e
  | launched =>
    rw [epoch_launch]
    exact .refl _ _
  | aside ha =>
    rw [epoch, epoch, ha.epochs]
    exact .refl _ _
  | @queued job _ _ _ _ i tier ep _ _ _ _ ho =>
    exact steady_modifyEpoch (w := w.draw job) (f := fun _ => ep) i (.of_placed ho) e
  | @hired job _ _ _ _ i =>
    exact steady_modifyEpoch (w := w.draw job) (f := fun ep => { ep with temps := ep.temps + 1 }) i
      (.of_same id rfl rfl rfl rfl rfl) e
  | @handedOver job _ _ _ _ i limit _ _ _ _ ho hb =>
    exact steady_modifyEpoch (w := w.draw job) i
      (.of_put (Epoch.offer_eq_full.1 ho).1 (by simp [hb]) ⟨w.nextTicket, job⟩) e
  | @joined job _ _ _ _ i _ _ _ _ _ ho =>
    exact steady_modifyEpoch (w := w.draw job) i (.of_join (Epoch.offer_eq_full.1 ho).1 t) e
  | @granted job _ _ _ _ i k _ _ _ hc _ hg =>
    refine steady_modifyEpoch i (.of_put hc (fun hm => ?_) ⟨k, job⟩) e
    have := (Intake.isFree_iff.1 (hu hm i)).2
    rw [hg] at this
    cases this
  | @gaveUp i => exact steady_modifyEpoch i (.of_leave t) e
  | _ =>
    first
      | exact .refl _ _
      | (rw [epoch_recordAll]; exact .refl _ _)

/-- The dispatchers that code adds have not begun. -/
theorem Shift.new_dispatcher {t : TaskId} {a : Option Nat} {th th' : Thread ν} {w' : World ν}
    (h : Shift t a th w th' w') {i : TaskId} {e : EpochId} {state : DispatcherState ν}
    (hi : w'.tasks[i]? = some (.dispatcher e state)) :
    w.tasks[i]? = some (.dispatcher e state) ∨ e = w.epochs.size ∧ state = .hired := by
  obtain hold | hcrew | ⟨_, _, _, hseeded⟩ := h.getElem?_cases hi
  · exact .inl hold
  · obtain ⟨_, _, hm⟩ | ⟨_, hm⟩ := mem_crew.1 hcrew
    · cases hm
    · exact .inr (by simpa using hm)
  · cases hseeded

/-- Code keeps the conditions that dispatchers rely on. -/
theorem Shift.dispatched {t : TaskId} {task : Task ν} {th th' : Thread ν} {w' : World ν}
    (h : Shift t task.author? th w th' w') (ht : w.tasks[t]? = some task)
    (hth : task.thread? = some th) (hw : w.Sound) (hd : w.Dispatched) :
    (w'.setTask t (task.withThread th')).Dispatched := by
  have hsteady := h.steady ((hw.tasks t task ht).thread th hth) fun hn e => (hd.unused hn e).2
  refine hd.steady h.grows.settings hsteady fun i e state hi => ?_
  obtain ⟨rfl, hself⟩ | ⟨_, hother⟩ := getElem?_setTask_cases hi
  · left
    rw [settings_setTask, h.grows.settings, epoch_setTask]
    obtain ⟨layers, rfl, rfl⟩ := Task.eq_dispatcher_of_withThread hth hself.symm
    have hf : (DispatcherState.discarding layers).Fits w.settings (w.epoch e) := hd.fits i e _ ht
    exact @DispatcherState.Fits.steady _ _ _ _ (.discarding th'.layers) hf (hsteady e)
  · rcases h.new_dispatcher hother with hold | ⟨rfl, rfl⟩
    · exact .inr hold
    · refine .inl ((hsteady _).shut.trans ?_)
      rw [epoch_of_size_le _ _ le_rfl]

/-- Every elementary change keeps the conditions that dispatchers rely on. -/
theorem Change.dispatched (c : Change w u) (hw : w.Sound) (hm : w.Manned) (hd : w.Dispatched) :
    u.Dispatched := by
  have still : ∀ e, (w.epoch e).Steady w.settings (w.epoch e) := fun e => .refl _ _
  cases c with
  | aside ha =>
    refine hd.steady ha.settings (fun e => ?_) fun t e state hi => .inr (ha.tasks ▸ hi)
    rw [epoch, epoch, ha.epochs]
    exact .refl _ _
  | posted =>
    refine hd.steady rfl still fun t e state hi => .inr ?_
    obtain ⟨_, hself⟩ | hold := getElem?_spawn_cases hi
    · cases hself
    · exact hold
  | code ht hth h => exact h.dispatched ht hth hw hd
  | brokenOff =>
    refine hd.steady rfl still fun t e state hi => .inr ?_
    obtain ⟨_, hself⟩ | ⟨_, hother⟩ := getElem?_setTask_cases hi
    · cases hself
    · exact hother
  | began => exact hd.setWorker rfl rfl still
  | welcomed =>
    exact (hd.setWorker (v := w.recordAll _) (by simp) (by simp) (by simpa using still)).of_same
      rfl (fun _ => rfl) rfl
  | lost => exact hd.setWorker (by simp) (by simp) (by simpa using still)
  | @claimed t e kind _ _ _ ep _ _ hc =>
    exact (hd.setWorker (v := w.modifyEpoch e fun _ => ep) rfl rfl
      (steady_modifyEpoch (f := fun _ => ep) e (.of_claim hc))).of_same rfl (fun _ => rfl) rfl
  | finished => exact hd.setWorker (by simp) (by simp) (by simpa using still)
  | quit => exact hd.setWorker rfl rfl still
  | left => exact hd.setWorker rfl rfl still
  | @retired t e =>
    refine hd.setWorker (by simp) (by simp) fun i => ?_
    rw [epoch_recordAll]
    exact steady_modifyEpoch (f := fun ep => { ep with temps := ep.temps - 1 }) e
      (.of_same id rfl rfl rfl rfl rfl) i
  | @dispatching t e ht =>
    have hf : (w.epoch e).intake.shut = false := hd.fits t e _ ht
    exact hd.setDispatcher hf
  | @flushed t e ht ho =>
    have spec := Epoch.flushes_flush w.settings (w.epoch e)
    refine hd.act hm ht (hw.home_lt ht rfl) (fun _ => ((w.epoch e).flush w.settings).epoch) _
      spec.bounded ⟨?_, ?_⟩
    · rw [spec.intake]
      exact hd.fits t e _ ht
    · exact (Epoch.full_or_nil_of_flush ho).imp id fun hf => .inr (.inr hf)
  | @woken t e ht =>
    exact hd.act hm ht (hw.home_lt ht rfl) (fun ep => { ep with freed := false }) [] id
      (hd.fits t e _ ht).1
  | @tookIn t e x intake ht _ hi =>
    refine hd.act hm ht (hw.home_lt ht rfl)
      (fun ep => { ep with intake, backlog := ep.backlog ++ [x] }) [.buffered e x.ticket] id ?_
    obtain ⟨_, rfl⟩ := Intake.take?_eq_some.1 hi
    exact (Intake.shut_grantNext _).trans (hd.fits t e _ ht).1
  | @shut t e state ht _ hc =>
    exact hd.act hm ht (hw.home_lt ht rfl) (fun ep => { ep with intake := ep.intake.close }) [] id
      ⟨rfl, hc, rfl⟩
  | @collected t e state x intake ht hs hi =>
    have hf := hd.collects ht hs
    refine hd.act hm ht (hw.home_lt ht rfl)
      (fun ep => { ep with intake, backlog := ep.backlog ++ [x] }) [.buffered e x.ticket] id ?_
    obtain ⟨_, rfl⟩ := Intake.take?_eq_some.1 hi
    exact ⟨(Intake.shut_grantNext _).trans hf.1, hf.2.1, by simp [Intake.grantNext, hf.2.2]⟩
  | @expecting t e ht hi =>
    have hf := hd.collects ht (.inl rfl)
    exact hd.setDispatcher ⟨hf.1, hf.2.1, hf.2.2, hi⟩
  | @discarding t e ht hf =>
    have hc := hd.collects ht (.inl rfl)
    exact hd.setDispatcher ⟨hc.1, hc.2.1, hf⟩
  | @discarded t e x rest ht =>
    exact hd.act hm ht (hw.home_lt ht rfl) (fun ep => { ep with backlog := rest })
      [.abandoned e x.ticket] id (hd.fits t e _ ht)
  | @dispersed t e ht hb =>
    obtain ⟨hs, hc, hf⟩ := hd.fits t e _ ht
    exact hd.setDispatcher ⟨hs, hc, hf, hb⟩

/-- A dispatcher that is set anew goes on from where it was; so do all others. -/
theorem next_of_set {v : World ν} {t i : TaskId} {e home : EpochId}
    {state old new : DispatcherState ν} (hi : w.tasks[i]? = some (.dispatcher home old))
    (hv : v.tasks = w.tasks) (h : old.Next (w.epoch home) new)
    (ht : w.tasks[t]? = some (.dispatcher e state)) :
    ∃ state', (v.setTask i (.dispatcher home new)).tasks[t]? = some (.dispatcher e state') ∧
      (state' = state ∨ state.Next (w.epoch e) state') := by
  by_cases hti : t = i
  · subst hti
    rw [ht, Option.some.injEq, Task.dispatcher.injEq] at hi
    obtain ⟨rfl, rfl⟩ := hi
    have hlt : t < v.tasks.size := hv ▸ (Array.getElem?_eq_some_iff.1 ht).1
    exact ⟨new, getElem?_setTask_self _ _ _ hlt, .inr h⟩
  · exact ⟨state, by rw [getElem?_setTask_of_ne _ _ _ hti, hv, ht], .inl rfl⟩

/-- Every elementary change lets every dispatcher be or brings it to its next state. -/
theorem Change.next_of_dispatcher (c : Change w u) {t : TaskId} {e : EpochId}
    {state : DispatcherState ν} (ht : w.tasks[t]? = some (.dispatcher e state)) :
    ∃ state', u.tasks[t]? = some (.dispatcher e state') ∧
      (state' = state ∨ state.Next (w.epoch e) state') := by
  have hlt : t < w.tasks.size := (Array.getElem?_eq_some_iff.1 ht).1
  have still : u.tasks[t]? = w.tasks[t]? → ∃ state', u.tasks[t]? = some (.dispatcher e state') ∧
      (state' = state ∨ state.Next (w.epoch e) state') := fun hu => ⟨state, hu.trans ht, .inl rfl⟩
  have other : ∀ {v : World ν} {i : TaskId} {old new : Task ν}, v.tasks = w.tasks →
      w.tasks[i]? = some old → (∀ state, old ≠ .dispatcher e state) →
        (v.setTask i new).tasks[t]? = w.tasks[t]? := by
    intro v i old new hv hi hr
    have hne : t ≠ i := by
      rintro rfl
      exact hr state (Option.some.inj (hi.symm.trans ht))
    rw [getElem?_setTask_of_ne _ _ _ hne, hv]
  cases c with
  | aside ha => exact still (by rw [ha.tasks])
  | posted => exact still (getElem?_spawn _ _ hlt)
  | @code w' i task th th' hi hth h =>
    by_cases hti : t = i
    · subst hti
      obtain rfl : task = .dispatcher e state := Option.some.inj (hi.symm.trans ht)
      obtain ⟨_, _, _, _, htask⟩ | ⟨_, layers, htask, _⟩ | htask := Task.thread?_eq_some hth
      · cases htask
      · cases htask
        exact ⟨.discarding th'.layers,
          getElem?_setTask_self _ _ _ (Nat.lt_of_lt_of_le hlt h.grows.tasks),
          .inr (.abandons layers th'.layers)⟩
      · cases htask
    · exact still ((getElem?_setTask_of_ne _ _ _ hti).trans (h.getElem?_tasks hlt))
  | brokenOff hi => exact still (other rfl hi (by simp))
  | began hi => exact still (other rfl hi (by simp))
  | welcomed hi => exact still (other (v := w.recordAll _) (by simp) hi (by simp))
  | lost hi => exact still (other (by simp) hi (by simp))
  | @claimed _ i _ _ _ _ ep hi =>
    exact still (other (v := w.modifyEpoch i fun _ => ep) rfl hi (by simp))
  | finished hi => exact still (other (by simp) hi (by simp))
  | quit hi => exact still (other rfl hi (by simp))
  | left hi => exact still (other rfl hi (by simp))
  | retired hi => exact still (other (by simp) hi (by simp))
  | dispatching hi => exact next_of_set hi rfl .begins ht
  | flushed hi => exact next_of_set hi (by simp) .parks ht
  | woken hi ho => exact next_of_set hi rfl (.wakes ho) ht
  | tookIn hi ho => exact next_of_set hi rfl (.wakes ho) ht
  | @shut i home old hi hs hc =>
    exact next_of_set (v := w.modifyEpoch home _) hi rfl (.shuts hs hc) ht
  | @collected i home old x intake hi hs hq =>
    obtain ⟨hslot, _⟩ := Intake.take?_eq_some.1 hq
    exact next_of_set (v := w.takeIn home x intake) hi rfl (.collects hs (by simp [hslot])) ht
  | expecting hi hq hf => exact next_of_set hi rfl (.expects hq hf) ht
  | discarding hi hf => exact next_of_set hi rfl (.discards hf) ht
  | discarded hi => exact next_of_set hi rfl (.abandons _ _) ht
  | dispersed hi => exact next_of_set hi rfl .ends ht

/-- A dispatcher that expects a job is left alone: in a closed epoch none comes any more. -/
theorem Change.expecting_of_expecting (c : Change w u) (hd : w.Dispatched) {t : TaskId}
    {e : EpochId} (ht : w.tasks[t]? = some (.dispatcher e .expecting)) :
    u.tasks[t]? = some (.dispatcher e .expecting) := by
  obtain ⟨state, hu, rfl | hnext⟩ := c.next_of_dispatcher ht
  · exact hu
  · have hslot := (hd.fits t e _ ht).2.2.2
    cases hnext with
    | shuts hs => simp at hs
    | collects _ hi => exact absurd hslot hi

/-- The place at the intake of a closed epoch that is kept for nobody is granted to nobody any
more. -/
theorem Change.granted_eq_none (c : Change w u) (hw : w.Sound) (hd : w.Dispatched) {e : EpochId}
    (hc : (w.epoch e).closed = true) (hg : (w.epoch e).intake.granted = none) :
    (u.epoch e).intake.granted = none := by
  have keeps : ∀ {i : EpochId} {f : Epoch ν → Epoch ν}, ((w.epoch i).closed = true →
      (w.epoch i).intake.granted = none → (f (w.epoch i)).intake.granted = none) →
        ((w.modifyEpoch i f).epoch e).intake.granted = none := by
    intro i f h
    obtain hi | ⟨rfl, hi⟩ := w.epoch_modifyEpoch_cases i f e
    · rwa [hi]
    · rw [hi]
      exact h hc hg
  cases c with
  | aside ha => rwa [epoch, ha.epochs]
  | code ht hth h =>
    exact (h.steady ((hw.tasks _ _ ht).thread _ hth) (fun hn i => (hd.unused hn i).2) e).granted hg
  | claimed _ _ hq => exact keeps fun _ => (Epoch.Steady.of_claim (s := w.settings) hq).granted
  | retired =>
    rw [epoch_setTask, epoch_recordAll]
    exact keeps fun _ => id
  | @flushed t i =>
    rw [epoch_setTask, epoch_recordAll]
    refine keeps fun _ hg => ?_
    rwa [(Epoch.flushes_flush w.settings (w.epoch i)).intake]
  | woken => exact keeps fun _ => id
  | tookIn _ ho => exact keeps fun hi => absurd (ho.symm.trans hi) (by decide)
  | shut => exact keeps fun _ => id
  | collected ht hs hi =>
    obtain ⟨_, rfl⟩ := Intake.take?_eq_some.1 hi
    exact keeps fun _ _ => by simp [Intake.grantNext, (hd.collects ht hs).2.2]
  | discarded => exact keeps fun _ => id
  | welcomed => rwa [World.assign, epoch_record, epoch_setTask, epoch_recordAll]
  | lost => simpa using hg
  | finished => simpa using hg
  | _ => exact hg

/-- In every state that a pool comes to its dispatchers may rely on their epochs. -/
theorem Evolved.dispatched {settings : Settings} {hook : Option Hook}
    (h : Evolved settings hook w) : w.Dispatched := by
  induction h with
  | opened =>
    refine ⟨fun t e state ht => ?_, fun e => ?_, fun _ e => ?_⟩
    · obtain ⟨_, hm⟩ | ht := getElem?_launch_cases ht
      · obtain ⟨_, _, hm⟩ | ⟨_, hm⟩ := mem_crew.1 hm
        · cases hm
        · obtain ⟨rfl, rfl⟩ : e = 0 ∧ state = .hired := by simpa using hm
          rw [epoch_launch]
          rfl
      · simp at ht
    · rw [epoch_launch]
      exact ⟨Nat.zero_le _, Nat.zero_le _⟩
    · rw [epoch_launch]
      exact ⟨rfl, rfl⟩
  | next h c ih => exact c.dispatched h.sound h.manned ih

end World

end WorkerPool
