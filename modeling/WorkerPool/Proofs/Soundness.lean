import WorkerPool.Proofs.Growth

/-!
# Sound worlds

What the parts of a world promise each other in every state: the pool runs exactly while an epoch is
current, that epoch is the only open one, every epoch that a task or a wait speaks of exists, drains
are of closed epochs, and what a thread waits for fits the act that its body has come to.
-/

namespace WorkerPool

variable {ν : Type}

/-- What a thread waits for belongs to the act that its body has come to. -/
def Thread.Fits (th : Thread ν) : Prop :=
  match th.wait with
  | .nothing => True
  | .alarm _ => ∃ time rest, th.body.acts = .sleep time :: rest
  | .inLine _ _ => ∃ job accepted refused gone rest,
      th.body.acts = .submit (Job.run job) job.abandon accepted refused gone :: rest
  | .closing _ | .exits _ _ => ∃ timeout done late gone rest,
      th.body.acts = .shutdown timeout done late gone :: rest

/-- Only a submission stands in line. -/
theorem Thread.Fits.line?_eq_none {th : Thread ν} {act : Act ν} {rest : List (Act ν)}
    (h : th.Fits) (ha : th.body.acts = act :: rest)
    (hs : ∀ run abandon accepted refused gone, act ≠ .submit run abandon accepted refused gone) :
    th.wait.line? = none := by
  cases hw : th.wait with
  | inLine e k =>
    rw [Thread.Fits, hw] at h
    obtain ⟨job, accepted, refused, gone, rest', h⟩ := h
    rw [ha, List.cons.injEq] at h
    exact absurd h.1 (hs _ _ _ _ _)
  | _ => rfl

/-- A body that is done waits for nothing in line. -/
theorem Thread.Fits.line?_eq_none_of_isOver {th : Thread ν} (h : th.Fits)
    (ho : th.isOver = true) : th.wait.line? = none := by
  have ha : th.body.acts = [] := by
    simp only [Thread.isOver, Bool.and_eq_true, List.isEmpty_iff] at ho
    exact ho.2
  cases hw : th.wait with
  | inLine e k =>
    rw [Thread.Fits, hw] at h
    obtain ⟨job, accepted, refused, gone, rest, h⟩ := h
    rw [ha] at h
    cases h
  | _ => rfl

/-- A thread that fits and speaks only of epochs that exist, and drains only closed ones. -/
structure Thread.Sound (w : World ν) (th : Thread ν) : Prop where
  fits : th.Fits
  line_lt : ∀ e k, th.wait.line? = some (e, k) → e < w.epochs.size
  drains : ∀ e n, .drain e n ∈ th.layers → e < w.epochs.size ∧ (w.epoch e).closed = true

/-- A task that works for an epoch that exists and runs a sound thread, if any. -/
structure Task.Sound (w : World ν) (task : Task ν) : Prop where
  home_lt : ∀ e, task.home? = some e → e < w.epochs.size
  thread : ∀ th, task.thread? = some th → th.Sound w

namespace World

/-- A property that every task has. -/
def EveryTask (w : World ν) (P : TaskId → Task ν → Prop) : Prop :=
  ∀ t task, w.tasks[t]? = some task → P t task

/-- A world whose parts keep what they promise each other. -/
structure Sound (w : World ν) : Prop where
  running_eq : w.running = w.current.isSome
  current_lt : ∀ e, w.current = some e → e < w.epochs.size
  current_open : ∀ e, w.current = some e → (w.epoch e).closed = false
  open_current : ∀ e, e < w.epochs.size → (w.epoch e).closed = false → w.current = some e
  tasks : w.EveryTask fun _ => Task.Sound w

namespace EveryTask

variable {w : World ν} {P Q : TaskId → Task ν → Prop}

theorem mono (h : w.EveryTask P) (hpq : ∀ t task, P t task → Q t task) : w.EveryTask Q :=
  fun t task ht => hpq t task (h t task ht)

theorem of_tasks_eq {u : World ν} (h : w.EveryTask P) (hu : u.tasks = w.tasks) :
    u.EveryTask P := by
  intro t task ht
  rw [hu] at ht
  exact h t task ht

theorem setTask (h : w.EveryTask P) {t : TaskId} {task : Task ν} (ht : P t task) :
    (w.setTask t task).EveryTask P := by
  intro i other hi
  obtain ⟨rfl, rfl⟩ | ⟨_, hi⟩ := getElem?_setTask_cases hi
  · exact ht
  · exact h i other hi

theorem spawn (h : w.EveryTask P) {task : Task ν} (ht : P w.tasks.size task) :
    (w.spawn task).EveryTask P := by
  intro i other hi
  obtain ⟨rfl, rfl⟩ | hi := getElem?_spawn_cases hi
  · exact ht
  · exact h i other hi

theorem launch (h : w.EveryTask P)
    (hc : ∀ t, w.tasks.size ≤ t → ∀ task ∈ crew w.settings w.epochs.size, P t task) :
    w.launch.EveryTask P := by
  intro i other hi
  obtain ⟨hs, hm⟩ | hi := getElem?_launch_cases hi
  · exact hc i hs other hm
  · exact h i other hi

end EveryTask

end World

open World

/-- Soundness of a thread survives growth. -/
theorem Thread.Sound.mono {w u : World ν} {th : Thread ν} (h : th.Sound w) (g : Grows w u) :
    th.Sound u where
  fits := h.fits
  line_lt e k hl := Nat.lt_of_lt_of_le (h.line_lt e k hl) g.epochs
  drains e n hd :=
    have hw := h.drains e n hd
    ⟨Nat.lt_of_lt_of_le hw.1 g.epochs, g.closed e hw.1 hw.2⟩

/-- Soundness of a task survives growth. -/
theorem Task.Sound.mono {w u : World ν} {task : Task ν} (h : task.Sound w) (g : Grows w u) :
    task.Sound u :=
  ⟨fun e he => Nat.lt_of_lt_of_le (h.home_lt e he) g.epochs, fun th hth => (h.thread th hth).mono g⟩

/-- A thread that waits for nothing is sound if its layers are. -/
theorem Thread.Sound.of_nothing {w : World ν} {th : Thread ν} (hw : th.wait = .nothing)
    (hd : ∀ e n, .drain e n ∈ th.layers → e < w.epochs.size ∧ (w.epoch e).closed = true) :
    th.Sound w where
  fits := by simp [Thread.Fits, hw]
  line_lt e k hl := by simp [hw, Wait.line?] at hl
  drains := hd

/-- A thread that has done an act and has no layers is sound. -/
theorem Thread.Sound.next {w : World ν} {th : Thread ν} (hl : th.layers = []) :
    th.next.Sound w :=
  .of_nothing rfl (by simp [Thread.next, hl])

/-- A sound thread stays sound if layers go away or change into callbacks and drains of one epoch
that it drains already. -/
theorem Thread.Sound.of_layers {w u : World ν} {th : Thread ν} {layers : List (Layer ν)}
    (h : th.Sound w) (g : Grows w u)
    (hd : ∀ e n, .drain e n ∈ layers → ∃ m, .drain e m ∈ th.layers) :
    { th with layers : Thread ν }.Sound u where
  fits := h.fits
  line_lt := (h.mono g).line_lt
  drains e n he := by
    obtain ⟨m, hm⟩ := hd e n he
    exact (h.mono g).drains e m hm

namespace Task

@[simp] theorem home?_withThread (th : Thread ν) (task : Task ν) :
    (task.withThread th).home? = task.home? := by
  rcases task with ⟨home, kind, _ | _ | _ | _ | _ | _⟩ | ⟨home, _ | _ | _ | _ | _ | _⟩ | _ <;> rfl

/-- The thread that is put into a task is what the task runs, but for a dispatcher that takes only
its layers. -/
theorem thread?_withThread {task : Task ν} {th th' th'' : Thread ν} (h : task.thread? = some th)
    (h' : (task.withThread th').thread? = some th'') :
    th'' = th' ∨ th'' = { layers := th'.layers, body := ⟨[], .ok ()⟩ } := by
  obtain ⟨_, _, _, _, rfl⟩ | ⟨_, _, rfl, _⟩ | rfl := thread?_eq_some h
  · exact .inl (Option.some.inj h').symm
  · exact .inr (Option.some.inj h').symm
  · exact .inl (Option.some.inj h').symm

/-- A task that runs another sound thread instead is sound. -/
theorem Sound.withThread {w : World ν} {task : Task ν} {th th' : Thread ν} (h : task.Sound w)
    (ht : task.thread? = some th) (h' : th'.Sound w) : (task.withThread th').Sound w where
  home_lt e he := h.home_lt e (by simpa using he)
  thread th'' ht'' := by
    obtain rfl | rfl := thread?_withThread ht ht''
    · exact h'
    · exact .of_nothing rfl h'.drains

/-- A task of an epoch that exists is sound if it runs no code. -/
theorem Sound.of_thread?_eq_none {w : World ν} {task : Task ν} (hn : task.thread? = none)
    (hh : ∀ e, task.home? = some e → e < w.epochs.size) : task.Sound w :=
  ⟨hh, by simp [hn]⟩

end Task

namespace World

variable {w u : World ν}

/-- A world that has the same epochs open and the same one current is as sound as its tasks. -/
theorem Sound.of_same (h : w.Sound) (hr : u.running = w.running) (hc : u.current = w.current)
    (he : u.epochs.size = w.epochs.size) (ho : ∀ e, (u.epoch e).closed = (w.epoch e).closed)
    (ht : u.EveryTask fun _ => Task.Sound u) : u.Sound where
  running_eq := by rw [hr, hc, h.running_eq]
  current_lt e h' := by
    rw [he]
    exact h.current_lt e (hc ▸ h')
  current_open e h' := by
    rw [ho]
    exact h.current_open e (hc ▸ h')
  open_current e hlt hopen := by
    rw [hc]
    exact h.open_current e (he ▸ hlt) ((ho e) ▸ hopen)
  tasks := ht

/-- Recording keeps a world sound. -/
theorem Sound.recordAll (h : w.Sound) (os : List (Occurrence ν)) : (w.recordAll os).Sound :=
  h.of_same (by simp) (by simp) (by simp) (by simp)
    ((h.tasks.mono fun _ _ ht => ht.mono (.recordAll w os)).of_tasks_eq (by simp))

theorem Sound.record (h : w.Sound) (o : Occurrence ν) : (w.record o).Sound := h.recordAll [o]

/-- A sound task may be set. -/
theorem Sound.setTask (h : w.Sound) (t : TaskId) {task : Task ν} (ht : task.Sound w) :
    (w.setTask t task).Sound :=
  h.of_same rfl rfl rfl (fun _ => rfl)
    ((h.tasks.mono fun _ _ ht => ht.mono (.setTask w t task)).setTask (ht.mono (.setTask w t task)))

/-- A sound task may be added. -/
theorem Sound.spawn (h : w.Sound) {task : Task ν} (ht : task.Sound w) : (w.spawn task).Sound :=
  h.of_same rfl rfl rfl (fun _ => rfl)
    ((h.tasks.mono fun _ _ ht => ht.mono (.spawn w task)).spawn (ht.mono (.spawn w task)))

/-- An epoch may change, but for being closed. -/
theorem Sound.modifyEpoch (h : w.Sound) (e : EpochId) {f : Epoch ν → Epoch ν}
    (hf : (f (w.epoch e)).closed = (w.epoch e).closed) : (w.modifyEpoch e f).Sound :=
  h.of_same rfl rfl (by simp) (w.modifyEpoch_keeps e f Epoch.closed hf)
    ((h.tasks.mono fun _ _ ht => ht.mono (.modifyEpoch w e f hf)).of_tasks_eq rfl)

theorem Sound.draw (h : w.Sound) (job : Job ν) : (w.draw job).Sound :=
  h.of_same rfl rfl rfl (fun _ => rfl) (h.tasks.mono fun _ _ ht => ht.mono (.draw w job))

theorem Sound.aside (h : w.Sound) (ha : Aside w u) : u.Sound :=
  h.of_same ha.running ha.current (by rw [ha.epochs]) (fun e => by rw [epoch, ha.epochs, ← epoch])
    ((h.tasks.mono fun _ _ ht => ht.mono (.aside ha)).of_tasks_eq ha.tasks)

/-- A start of a stopped pool leaves one epoch open, the new one. -/
theorem Sound.launch (h : w.Sound) (hr : w.running = false) : w.launch.Sound where
  running_eq := by simp
  current_lt e he := by simp_all
  current_open e he := by
    obtain rfl : w.epochs.size = e := by simpa using he
    simp [epoch_of_size_le]
  open_current e he ho := by
    have hn : w.current = none := by simpa [hr] using h.running_eq
    by_cases hlt : e < w.epochs.size
    · have := h.open_current e hlt (by simpa using ho)
      simp_all
    · simp at he ⊢
      omega
  tasks := by
    refine (h.tasks.mono fun _ _ ht => ht.mono (.launch w)).launch fun t _ task hm => ?_
    obtain ⟨_, _, rfl⟩ | ⟨_, rfl⟩ := mem_crew.1 hm
    · exact .of_thread?_eq_none rfl (by simp [Task.home?])
    · exact .of_thread?_eq_none rfl (by simp [Task.home?])

/-- A stop leaves no epoch open. -/
theorem Sound.stop (h : w.Sound) {e : EpochId} (hc : w.current = some e) : (w.stop e).Sound where
  running_eq := by simp
  current_lt i hi := by simp at hi
  current_open i hi := by simp at hi
  open_current i hi ho := by
    rw [size_stop] at hi
    by_cases hie : i = e
    · subst hie
      simp [epoch_stop_self _ _ hi] at ho
    · rw [epoch_stop_of_ne _ _ hie] at ho
      have := h.open_current i hi ho
      rw [hc, Option.some.injEq] at this
      exact absurd this.symm hie
  tasks := (h.tasks.mono fun _ _ ht => ht.mono (.stop w e)).of_tasks_eq rfl

/-- Code keeps a world sound, and its own thread. -/
theorem Shift.sound {t : TaskId} {a : Option Nat} {th th' : Thread ν} {w' : World ν}
    (h : Shift t a th w th' w') (hw : w.Sound) (hth : th.Sound w) : w'.Sound ∧ th'.Sound w' := by
  have grows := h.grows
  cases h with
  | deed hl => exact ⟨hw.recordAll _, .next hl⟩
  | callbackDeed hl =>
    refine ⟨hw.recordAll _, hth.of_layers grows fun e n he => ⟨n, ?_⟩⟩
    rw [hl]
    simpa using he
  | paused hl => exact ⟨hw, .next hl⟩
  | asleep _ ha => exact ⟨hw, ⟨⟨_, _, ha⟩, by simp [Wait.line?], hth.drains⟩⟩
  | awaiting _ hwait =>
    refine ⟨hw, ⟨?_, by simp [Wait.line?], hth.drains⟩⟩
    have fits := hth.fits
    obtain hwait | ⟨_, hwait⟩ := hwait <;> rw [Thread.Fits, hwait] at fits <;> exact fits
  | answered hl => exact ⟨hw.record _, .next hl⟩
  | returned hl =>
    refine ⟨hw, hth.of_layers grows fun e n he => ⟨n, ?_⟩⟩
    rw [hl]
    exact List.mem_cons_of_mem _ he
  | @abandoned e n rest x ep hl hd =>
    have hc := (Epoch.drain_frame hd).1
    refine ⟨(hw.modifyEpoch e hc).record _, hth.of_layers grows fun i m hi => ?_⟩
    rw [hl]
    simp only [List.mem_cons, reduceCtorEq, Layer.drain.injEq, false_or] at hi ⊢
    obtain ⟨rfl, rfl⟩ | hi := hi
    · exact ⟨n, .inl ⟨rfl, rfl⟩⟩
    · exact ⟨m, .inr hi⟩
  | drained hl =>
    refine ⟨hw, hth.of_layers grows fun e n he => ⟨n, ?_⟩⟩
    rw [hl]
    exact List.mem_cons_of_mem _ he
  | @halted e wait hr hc hwait =>
    have hlt := hw.current_lt e hc
    refine ⟨hw.stop hc, ⟨?_, ?_, fun i n hi => ?_⟩⟩
    · obtain rfl | ⟨rfl, _, ha⟩ := hwait
      · exact hth.fits
      · exact ha
    · obtain rfl | ⟨rfl, _, _⟩ := hwait
      · exact (hth.mono grows).line_lt
      · simp [Wait.line?]
    · simp only [List.mem_cons, Layer.drain.injEq] at hi
      obtain ⟨rfl, rfl⟩ | hi := hi
      · simp [epoch_stop_self _ _ hlt, hlt]
      · exact (hth.mono grows).drains i n hi
  | launched hr => exact ⟨hw.launch hr, hth.mono grows⟩
  | aside ha => exact ⟨hw.aside ha, hth.mono grows⟩
  | @queued job _ _ _ _ e _ ep _ _ _ _ ho =>
    have hc : ep.closed = ((w.draw job).epoch e).closed :=
      (Epoch.offer_frame ho).1.trans (Epoch.offer_eq_placed.1 ho).1.symm
    exact ⟨((hw.draw job).modifyEpoch e hc).record _, hth.mono grows⟩
  | @hired job _ _ _ _ e _ _ _ hc =>
    refine ⟨(((hw.draw job).modifyEpoch e rfl).record _).spawn ?_, hth.mono grows⟩
    exact .of_thread?_eq_none rfl (by simpa [Task.home?] using hw.current_lt e hc)
  | @handedOver job _ _ _ _ e =>
    exact ⟨((hw.draw job).modifyEpoch e rfl).record _, hth.mono grows⟩
  | @refused job => exact ⟨(hw.draw job).record _, hth.mono grows⟩
  | @joined job _ _ _ _ e _ _ ha _ hc =>
    refine ⟨(hw.draw job).modifyEpoch e rfl, ⟨⟨_, _, _, _, _, ha⟩, ?_, (hth.mono grows).drains⟩⟩
    intro i k hi
    simp only [Wait.line?, Option.some.injEq, Prod.mk.injEq] at hi
    obtain ⟨rfl, rfl⟩ := hi
    simpa using hw.current_lt _ hc
  | @granted job _ _ _ _ e k =>
    exact ⟨(hw.modifyEpoch e rfl).record _, .of_nothing rfl (hth.mono grows).drains⟩
  | @gaveUp e k =>
    exact ⟨(hw.modifyEpoch e rfl).record _, .of_nothing rfl (hth.mono grows).drains⟩

/-- The epoch of a task exists. -/
theorem Sound.home_lt (hw : w.Sound) {t : TaskId} {task : Task ν} {e : EpochId}
    (ht : w.tasks[t]? = some task) (he : task.home? = some e) : e < w.epochs.size :=
  (hw.tasks t task ht).home_lt e he

/-- A task that runs no code takes the place of another one of its epoch. -/
theorem Sound.setTask_of_idle (hw : w.Sound) {v : World ν} (g : Grows w v) (hv : v.Sound)
    {t : TaskId} {task other : Task ν} (ht : w.tasks[t]? = some task)
    (hh : other.home? = task.home?) (hn : other.thread? = none) : (v.setTask t other).Sound :=
  hv.setTask _ (.of_thread?_eq_none hn fun _ he =>
    Nat.lt_of_lt_of_le (hw.home_lt ht (hh ▸ he)) g.epochs)

/-- Every elementary change keeps a world sound. -/
theorem Change.sound (c : Change w u) (hw : w.Sound) : u.Sound := by
  cases c with
  | aside h => exact hw.aside h
  | posted code =>
    refine hw.spawn ⟨by simp [Task.home?], fun th hth => ?_⟩
    obtain rfl : _ = th := by simpa [Task.thread?] using hth
    exact .of_nothing rfl (by simp)
  | code ht hth h =>
    have hs := h.sound hw ((hw.tasks _ _ ht).thread _ hth)
    exact hs.1.setTask _ (((hw.tasks _ _ ht).mono h.grows).withThread hth hs.2)
  | brokenOff ht =>
    refine hw.setTask _ ⟨by simp [Task.home?], fun th hth => ?_⟩
    obtain rfl : _ = th := by simpa [Task.thread?] using hth
    exact .of_nothing rfl (by simp)
  | began ht => exact hw.setTask_of_idle (.refl w) hw ht rfl rfl
  | welcomed ht =>
    refine (Sound.setTask (hw.recordAll _) _ ⟨fun e he => ?_, fun th hth => ?_⟩).record _
    · simpa using hw.home_lt ht he
    · obtain rfl : _ = th := by simpa [Task.thread?] using hth
      exact .of_nothing rfl (by simp)
  | lost ht => exact hw.setTask_of_idle (.recordAll w _) (hw.recordAll _) ht rfl rfl
  | @claimed _ e _ _ _ _ ep ht _ hc =>
    have hce := (Epoch.claim_frame hc).1
    refine (Sound.setTask (hw.modifyEpoch e hce) _ ⟨fun e he => ?_, fun th hth => ?_⟩).record _
    · simpa using hw.home_lt ht he
    · obtain rfl : _ = th := by simpa [Task.thread?] using hth
      exact .of_nothing rfl (by simp)
  | finished ht _ _ hs =>
    refine hw.setTask_of_idle (.recordAll w _) (hw.recordAll _) ht rfl ?_
    obtain ⟨rfl, _⟩ | ⟨_, rfl, _⟩ | ⟨rfl, _⟩ := hs <;> rfl
  | quit ht => exact hw.setTask_of_idle (.refl w) hw ht rfl rfl
  | left ht => exact hw.setTask_of_idle (.refl w) hw ht rfl rfl
  | @retired _ e ht =>
    exact hw.setTask_of_idle ((Grows.modifyEpoch w e _ rfl).trans (.recordAll _ _))
      ((hw.modifyEpoch e rfl).recordAll _) ht rfl rfl
  | dispatching ht => exact hw.setTask_of_idle (.refl w) hw ht rfl rfl
  | @flushed _ e ht =>
    have hc := (Epoch.flushes_flush w.settings (w.epoch e)).closed
    exact hw.setTask_of_idle ((Grows.modifyEpoch w e _ hc).trans (.recordAll _ _))
      ((hw.modifyEpoch e hc).recordAll _) ht rfl rfl
  | @woken _ e ht =>
    exact hw.setTask_of_idle (.modifyEpoch w e _ rfl) (hw.modifyEpoch e rfl) ht rfl rfl
  | @tookIn _ e _ _ ht =>
    exact hw.setTask_of_idle ((Grows.modifyEpoch w e _ rfl).trans (.record _ _))
      ((hw.modifyEpoch e rfl).record _) ht rfl rfl
  | @shut _ e _ ht =>
    exact hw.setTask_of_idle (.modifyEpoch w e _ rfl) (hw.modifyEpoch e rfl) ht rfl rfl
  | @collected _ e _ _ _ ht =>
    exact hw.setTask_of_idle ((Grows.modifyEpoch w e _ rfl).trans (.record _ _))
      ((hw.modifyEpoch e rfl).record _) ht rfl rfl
  | expecting ht => exact hw.setTask_of_idle (.refl w) hw ht rfl rfl
  | discarding ht =>
    refine hw.setTask _ ⟨fun e he => hw.home_lt ht he, fun th hth => ?_⟩
    obtain rfl : _ = th := by simpa [Task.thread?] using hth
    exact .of_nothing rfl (by simp)
  | @discarded _ e _ _ ht =>
    refine Sound.setTask ((hw.modifyEpoch e rfl).record _) _ ⟨fun i hi => ?_, fun th hth => ?_⟩
    · simpa using hw.home_lt ht hi
    · obtain rfl : _ = th := by simpa [Task.thread?] using hth
      exact .of_nothing rfl (by simp)
  | dispersed ht => exact hw.setTask_of_idle (.refl w) hw ht rfl rfl

/-- Every state that a pool comes to is sound. -/
theorem Evolved.sound {settings : Settings} {hook : Option Hook} (h : Evolved settings hook w) :
    w.Sound := by
  induction h with
  | opened =>
    exact Sound.launch ⟨rfl, by simp, by simp, by simp, by simp [EveryTask]⟩ rfl
  | next _ c ih => exact c.sound ih

end World

end WorkerPool
