import WorkerPool.Proofs.Hooks
import WorkerPool.Proofs.Papers
import WorkerPool.Proofs.Shutdown

/-!
# Code that leaves the pool alone

Code is docile if it neither starts nor stops the pool, takes or lets go of no handle, and submits
nothing. While all jobs of a pool are docile, its workers and its dispatcher only work off what they
were given: whether the pool runs, who holds it and what was submitted to it is up to its clients.
-/

namespace WorkerPool

variable {ν : Type}

/-- A deed that only writes something down. -/
def Deed.isDocile : Deed ν → Bool
  | note _ => true
  | log _ => true
  | _ => false

/-- An act that leaves the pool alone. -/
def Act.isDocile : Act ν → Bool
  | deed d => d.isDocile
  | pass _ => true
  | sleep _ => true
  | _ => false

/-- A job that leaves the pool alone, whether it is run or abandoned. -/
structure Job.Docile (job : Job ν) : Prop where
  run : ∀ act ∈ job.run.acts, act.isDocile = true
  abandon : ∀ d ∈ job.abandon.acts, d.isDocile = true

/-- Every callback of a thread is what is left of that of a job which was submitted. -/
def Thread.Answers (w : World ν) (th : Thread ν) : Prop :=
  ∀ k code, .callback k code ∈ th.layers →
    ∃ job, .submitted k job ∈ w.occurrences ∧ code.acts <:+ job.abandon.acts

/-- So is every callback of a task. -/
def Task.Answers (w : World ν) (task : Task ν) : Prop :=
  ∀ th, task.thread? = some th → th.Answers w

/-- What workers and dispatchers write down by themselves: not what calls of clients do to the pool,
nor what clients report. -/
def Occurrence.isInternal : Occurrence ν → Bool
  | note author _ => author.isSome
  | opened _ => false
  | closed _ => false
  | submitted .. => false
  | queued .. => false
  | seeded .. => false
  | handedOver .. => false
  | refused _ => false
  | _ => true

open World

theorem Thread.Answers.mono {w u : World ν} {th : Thread ν} (h : th.Answers w) (g : Grows w u) :
    th.Answers u := fun k code hm => (h k code hm).imp fun _ => And.imp_left g.mem

theorem Task.Answers.mono {w u : World ν} {task : Task ν} (h : task.Answers w) (g : Grows w u) :
    task.Answers u := fun th hth => (h th hth).mono g

/-- A task without layers has no callbacks. -/
theorem Task.Answers.of_layers_eq_nil {w : World ν} {task : Task ν}
    (h : ∀ th, task.thread? = some th → th.layers = []) : task.Answers w := by
  intro th hth k code hm
  rw [h th hth] at hm
  cases hm

namespace World

variable {w u v : World ν} {e : EpochId} {t : TaskId} {k : Nat}

section Callbacks

/-- A callback that is left after a shift was there before, perhaps with more to do, or it is that
of a job which a drain has just taken out. -/
theorem Shift.answers {a : Option Nat} {th th' : Thread ν} {w' : World ν}
    (h : Shift t a th w th' w') (hp : w.Papers) (ha : th.Answers w) : th'.Answers w' := by
  have kept := ha.mono h.grows
  intro k code hm
  cases h with
  | callbackDeed hl =>
    obtain heq | hm := List.mem_cons.1 hm
    · obtain ⟨rfl, rfl⟩ := by simpa using heq
      obtain ⟨job, hjob, hs⟩ := kept _ _ (hl ▸ List.mem_cons_self)
      exact ⟨job, hjob, (List.suffix_cons _ _).trans hs⟩
    · exact kept k code (hl ▸ List.mem_cons_of_mem _ hm)
  | returned hl => exact kept k code (hl ▸ List.mem_cons_of_mem _ hm)
  | drained hl => exact kept k code (hl ▸ List.mem_cons_of_mem _ hm)
  | @abandoned e n rest x ep hl hd =>
    obtain heq | hm := List.mem_cons.1 hm
    · obtain ⟨rfl, rfl⟩ := by simpa using heq
      have hx : x ∈ (w.epoch e).entries := (Epoch.perm_entries_of_drain hd).mem_iff.2 (by simp)
      exact ⟨x.job, by simpa using hp.stock e x hx, List.suffix_rfl⟩
    · obtain heq | hm := List.mem_cons.1 hm
      · cases heq
      · exact kept k code (hl ▸ List.mem_cons_of_mem _ hm)
  | halted =>
    obtain heq | hm := List.mem_cons.1 hm
    · cases heq
    · exact kept k code hm
  | _ => exact kept k code hm

/-- Every elementary change keeps callbacks those of jobs which were submitted. -/
theorem Change.answers (c : Change w u) (hp : w.Papers) (h : w.EveryTask fun _ => Task.Answers w) :
    u.EveryTask fun _ => Task.Answers u := by
  have kept : w.EveryTask fun _ => Task.Answers u := h.mono fun _ _ ht => ht.mono c.grows
  have set : ∀ {v : World ν} {t : TaskId} {task : Task ν}, v.tasks = w.tasks →
      (∀ th, task.thread? = some th → th.layers = []) →
        (v.setTask t task).EveryTask fun _ => Task.Answers u := fun hv hn =>
    (kept.of_tasks_eq hv).setTask (.of_layers_eq_nil hn)
  have crewed : ∀ {task : Task ν}, task ∈ crew w.settings w.epochs.size → task.Answers u := by
    intro task hm
    obtain ⟨_, _, rfl⟩ | ⟨_, rfl⟩ := mem_crew.1 hm <;>
      exact .of_layers_eq_nil (by simp [Task.thread?])
  cases c with
  | aside ha => exact kept.of_tasks_eq ha.tasks
  | posted code => exact kept.spawn (.of_layers_eq_nil (by simp [Task.thread?]))
  | @code w' t task th th' ht hth hs =>
    refine EveryTask.setTask (fun i other hi => ?_) fun th'' hth'' => ?_
    · obtain hi | hm | ⟨_, _, _, rfl⟩ := hs.getElem?_cases hi
      · exact kept i other hi
      · exact crewed hm
      · exact .of_layers_eq_nil (by simp [Task.thread?])
    · obtain rfl := Option.some.inj ((hs.thread?_withThread hth).symm.trans hth'')
      exact (hs.answers hp (h t task ht th hth)).mono (.setTask _ _ _)
  | welcomed => exact set (by simp) (by simp [Task.thread?])
  | finished _ _ _ hs =>
    refine set (by simp) ?_
    obtain ⟨rfl, _⟩ | ⟨_, rfl, _⟩ | ⟨rfl, _⟩ := hs <;> simp [Task.thread?]
  | @discarded t e x rest ht hb =>
    refine (kept.of_tasks_eq rfl).setTask fun th hth k code hm => ?_
    obtain rfl : _ = th := by simpa [Task.thread?] using hth
    obtain ⟨rfl, rfl⟩ : k = x.ticket ∧ code = x.job.abandon := by simpa using hm
    have hx : x ∈ (w.epoch e).entries := by simp [Epoch.entries, hb]
    exact ⟨x.job, by simpa using hp.stock e x hx, List.suffix_rfl⟩
  | lost | retired | flushed => exact set (by simp) (by simp [Task.thread?])
  | _ => exact set rfl (by simp [Task.thread?])

/-- In every state that a pool comes to, callbacks are those of jobs which were submitted. -/
theorem Evolved.answers {settings : Settings} {hook : Option Hook} (h : Evolved settings hook w) :
    w.EveryTask fun _ => Task.Answers w := by
  induction h with
  | opened =>
    intro t task ht
    obtain ⟨_, hm⟩ | ht := getElem?_launch_cases ht
    · obtain ⟨_, _, rfl⟩ | ⟨_, rfl⟩ := mem_crew.1 hm <;>
        exact .of_layers_eq_nil (by simp [Task.thread?])
    · simp at ht
  | next hw c ih => exact c.answers hw.papers ih

end Callbacks

/-- Nothing happens between `w` and `u` that is up to clients: the pool is neither started nor
stopped, nobody takes it or lets go of it, and nothing is submitted to it. -/
structure Internal (w u : World ν) : Prop where
  running : u.running = w.running
  current : u.current = w.current
  handles : u.handles = w.handles
  tickets : u.nextTicket = w.nextTicket
  size : u.epochs.size = w.epochs.size
  tasks : u.tasks.size = w.tasks.size
  closed : ∀ e, (u.epoch e).closed = (w.epoch e).closed
  /-- Places of temporary workers may be given back, but none is taken. -/
  temps : ∀ e, (u.epoch e).temps ≤ (w.epoch e).temps
  occurrences : ∃ os, u.occurrences = w.occurrences ++ os ∧ ∀ o ∈ os, o.isInternal = true

namespace Internal

theorem of_same (hr : u.running = w.running) (hc : u.current = w.current)
    (hh : u.handles = w.handles) (hn : u.nextTicket = w.nextTicket) (he : u.epochs = w.epochs)
    (ht : u.tasks.size = w.tasks.size) (ho : u.occurrences = w.occurrences) : Internal w u where
  running := hr
  current := hc
  handles := hh
  tickets := hn
  size := by rw [he]
  tasks := ht
  closed e := by rw [epoch, he, ← epoch]
  temps e := by rw [epoch, he, ← epoch]
  occurrences := ⟨[], by simp [ho], by simp⟩

theorem refl (w : World ν) : Internal w w := of_same rfl rfl rfl rfl rfl rfl rfl

theorem trans (h : Internal w u) (h' : Internal u v) : Internal w v := by
  obtain ⟨os, hos, hall⟩ := h.occurrences
  obtain ⟨os', hos', hall'⟩ := h'.occurrences
  exact {
    running := h'.running.trans h.running
    current := h'.current.trans h.current
    handles := h'.handles.trans h.handles
    tickets := h'.tickets.trans h.tickets
    size := h'.size.trans h.size
    tasks := h'.tasks.trans h.tasks
    closed := fun e => (h'.closed e).trans (h.closed e)
    temps := fun e => (h'.temps e).trans (h.temps e)
    occurrences := ⟨os ++ os', by rw [hos', hos, List.append_assoc],
      List.forall_mem_append.2 ⟨hall, hall'⟩⟩ }

theorem record (h : Internal w u) {o : Occurrence ν} (ho : o.isInternal = true) :
    Internal w (u.record o) :=
  h.trans { refl u with occurrences := ⟨[o], by simp, by simpa using ho⟩ }

theorem log (h : Internal w u) (notice : Notice) : Internal w (u.log notice) := h.record rfl

theorem recordAll (h : Internal w u) {os : List (Occurrence ν)}
    (hos : ∀ o ∈ os, o.isInternal = true) : Internal w (u.recordAll os) := by
  induction os generalizing u with
  | nil => exact h
  | cons o os ih =>
    obtain ⟨ho, hos⟩ := List.forall_mem_cons.1 hos
    exact ih (h.record ho) hos

theorem setTask (h : Internal w u) (t : TaskId) (task : Task ν) : Internal w (u.setTask t task) :=
  h.trans (of_same rfl rfl rfl rfl rfl (u.size_setTask t task) rfl)

theorem modifyEpoch (h : Internal w u) (e : EpochId) {f : Epoch ν → Epoch ν}
    (hc : (f (u.epoch e)).closed = (u.epoch e).closed)
    (ht : (f (u.epoch e)).temps ≤ (u.epoch e).temps) : Internal w (u.modifyEpoch e f) := by
  refine h.trans { refl u with size := size_modifyEpoch u e f, closed := ?_, temps := fun i => ?_ }
  · exact modifyEpoch_keeps u e f Epoch.closed hc
  · obtain hi | ⟨rfl, hi⟩ := epoch_modifyEpoch_cases u e f i
    · rw [hi]
    · rwa [hi]

theorem callHook (h : Internal w u) (e : EpochId) (t : TaskId) (call : HookCall) :
    Internal w (u.callHook e t call).2 := by
  obtain ⟨n, hn⟩ := u.callHook_eq e t call
  have told : ∀ o ∈ u.hookTrace e t call, o.isInternal = true := by
    intro o ho
    obtain ⟨p, rfl⟩ := u.mem_hookTrace e t ho
    rfl
  rw [hn]
  exact (h.recordAll told).trans (of_same rfl rfl rfl rfl rfl rfl rfl)

end Internal

section Code

/-- A docile deed is written down in the name of its author, and nothing else comes of it. -/
theorem internal_perform (w : World ν) (k : Nat) {d : Deed ν} (hd : d.isDocile = true) :
    Internal w (w.perform (some k) d).2 := by
  cases d with
  | note | log => exact (Internal.refl w).record rfl
  | _ => cases hd

/-- Drains and docile callbacks are nothing to clients. -/
theorem internal_stepLayers (w : World ν) {layers : List (Layer ν)}
    (hd : ∀ k code, .callback k code ∈ layers → ∀ d ∈ code.acts, d.isDocile = true) :
    Internal w (w.stepLayers layers).2 := by
  have refl := Internal.refl w
  rcases layers with _ | ⟨⟨e, n⟩ | ⟨k, _ | ⟨d, ds⟩, _ | p⟩, rest⟩
  · exact refl
  · simp only [stepLayers]
    split
    · rename_i x ep hx
      obtain ⟨hclosed, htemps, -⟩ := Epoch.drain_frame hx
      exact (refl.modifyEpoch e hclosed htemps.le).record rfl
    · dsimp only
      split_ifs
      · exact refl
      · exact refl.log _
  · exact refl.log _
  · exact refl
  all_goals exact w.internal_perform k (hd k _ List.mem_cons_self d List.mem_cons_self)

/-- Docile code of a job is nothing to clients. -/
theorem internal_stepThread (w : World ν) (t : TaskId) (k : Nat) {th : Thread ν}
    (hb : ∀ act ∈ th.body.acts, act.isDocile = true)
    (hl : ∀ k code, .callback k code ∈ th.layers → ∀ d ∈ code.acts, d.isDocile = true) :
    Internal w (w.stepThread t (some k) th).2 := by
  have refl := Internal.refl w
  unfold stepThread
  split
  · split
    · exact refl
    · rename_i act rest hacts
      have hact := hb act (hacts ▸ List.mem_cons_self)
      cases act with
      | deed d => exact w.internal_perform k hact
      | pass gate => exact .of_same rfl rfl rfl rfl rfl rfl rfl
      | sleep time =>
        simp only [stepAct]
        split <;> exact refl
      | _ => cases hact
  · exact w.internal_stepLayers hl

end Code

section Tasks

/-- A worker whose job is over rests or leaves. -/
theorem internal_finish (w : World ν) (t : TaskId) (e : EpochId) (kind : WorkerKind)
    (source : Source) (k : Nat) (ending : Except Panic Unit) :
    Internal w (w.finish t e kind source k ending) := by
  have rest : ∀ {v : World ν}, Internal w v → Internal w (v.rest t e kind source) := by
    intro v hv
    obtain ⟨state, _, h | h⟩ := v.rest_cases t e kind source <;> rw [h]
    · exact hv.setTask t _
    · exact (hv.setTask t _).record rfl
  have refl := Internal.refl w
  cases ending with
  | ok => exact rest (refl.record rfl)
  | error p =>
    have told := (((refl.record (o := .finished e k (.error p)) rfl).log
      (.jobPanicked p.message)).callHook e t (.panicked p.message))
    simp only [finish]
    split <;> rename_i hu <;> rw [hu] at told
    · exact (told.setTask t _).record rfl
    · exact rest told

/-- Every job that was submitted leaves the pool alone. -/
def Docile (w : World ν) : Prop := ∀ k job, .submitted k job ∈ w.occurrences → job.Docile

/-- The callbacks of a docile pool are docile. -/
theorem Docile.callback (h : w.Docile) {th : Thread ν} (ha : th.Answers w) (k : Nat)
    (code : Script (Deed ν) Unit) (hm : .callback k code ∈ th.layers) :
    ∀ d ∈ code.acts, d.isDocile = true := by
  obtain ⟨job, hjob, hs⟩ := ha k code hm
  exact fun d hd => (h k job hjob).abandon d (hs.subset hd)

variable {settings : Settings} {hook : Option Hook}

/-- A worker of a docile pool does nothing to clients. -/
theorem internal_stepWorker (hw : Evolved settings hook w) (hd : w.Docile) {kind : WorkerKind}
    {state : WorkerState ν} (ht : w.tasks[t]? = some (.worker e kind state)) :
    Internal w (w.stepWorker t e kind state) := by
  have refl := Internal.refl w
  cases state with
  | hired =>
    cases kind
    · exact (refl.log _).setTask t _
    · exact refl.setTask t _
  | seeded live x =>
    have told := refl.callHook e t (.join live)
    simp only [stepWorker]
    split <;> rename_i hu <;> rw [hu] at told
    · exact ((told.record rfl).setTask t _).record rfl
    · exact ((told.log _).setTask t _).record rfl
  | idle alarm =>
    have claimed : ∀ {tier x ep}, (w.epoch e).claim? (kind != .temporary) = some (tier, x, ep) →
        Internal w ((w.modifyEpoch e fun _ => ep).assign t e kind (.tier tier) x) := by
      intro tier x ep hc
      obtain ⟨hclosed, htemps, -⟩ := Epoch.claim_frame hc
      exact ((refl.modifyEpoch e hclosed htemps.le).setTask t _).record rfl
    simp only [stepWorker, stepIdle]
    split_ifs
    · exact refl.setTask t _
    all_goals split
    · exact claimed ‹_›
    · exact (refl.log _).setTask t _
    · exact claimed ‹_›
    · exact refl
  | busy source k th =>
    simp only [stepWorker]
    split_ifs
    · exact w.internal_finish t e kind source k _
    · obtain ⟨job, hjob, hs, -⟩ := (hw.papers.tasks t _ ht).body _ _ _ _ _ rfl
      have hbody : ∀ act ∈ th.body.acts, act.isDocile = true := fun act hact =>
        (hd k job hjob).run act (hs.subset hact)
      exact (w.internal_stepThread t k hbody
        (hd.callback (hw.answers t _ ht th rfl))).setTask t _
  | leaving =>
    cases kind
    · exact ((refl.log _).setTask t _).record rfl
    · have left := refl.modifyEpoch e (f := fun ep => { ep with temps := ep.temps - 1 }) rfl
        (Nat.sub_le _ _)
      exact (((left.log _).callHook e t _).setTask t _).record rfl
  | gone => exact refl

theorem internal_takeIn (w : World ν) (e : EpochId) (x : Entry ν) (i : Intake (Entry ν)) :
    Internal w (w.takeIn e x i) :=
  ((Internal.refl w).modifyEpoch e rfl le_rfl).record rfl

theorem internal_stepCollecting (w : World ν) (t : TaskId) (e : EpochId) :
    Internal w (w.stepCollecting t e) := by
  have refl := Internal.refl w
  simp only [stepCollecting]
  split
  · exact (w.internal_takeIn e _ _).setTask t _
  · split_ifs
    · exact refl.setTask t _
    · exact (refl.log _).setTask t _
    · exact refl.setTask t _

/-- The dispatcher of a docile pool does nothing to clients. -/
theorem internal_stepDispatcher (hw : Evolved settings hook w) (hd : w.Docile)
    {state : DispatcherState ν} (ht : w.tasks[t]? = some (.dispatcher e state)) :
    Internal w (w.stepDispatcher t e state) := by
  have refl := Internal.refl w
  rcases state with _ | _ | _ | _ | _ | (_ | ⟨layer, layers⟩) | _
  · exact (refl.log _).setTask t _
  · have spec := Epoch.flushes_flush w.settings (w.epoch e)
    have moved := refl.modifyEpoch e (f := fun _ => ((w.epoch e).flush w.settings).epoch)
      spec.closed spec.temps.le
    have listed : ∀ o ∈ ((w.epoch e).flush w.settings).moved.map fun o : Tier × Entry ν =>
        (.republished e o.2.ticket o.1 : Occurrence ν), o.isInternal = true := by
      intro o ho
      obtain ⟨_, _, rfl⟩ := List.mem_map.1 ho
      rfl
    have told := moved.recordAll listed
    simp only [stepDispatcher, stepFlushing_eq]
    split
    · exact told.setTask t _
    · exact (told.modifyEpoch e rfl le_rfl).setTask t _
  · simp only [stepDispatcher, stepParked]
    split_ifs
    · exact (refl.modifyEpoch e rfl le_rfl).setTask t _
    · exact (refl.modifyEpoch e rfl le_rfl).setTask t _
    · split
      · exact (internal_takeIn ..).setTask t _
      · exact refl
  · exact w.internal_stepCollecting t e
  · exact w.internal_stepCollecting t e
  · simp only [stepDispatcher]
    split
    · exact ((refl.log _).setTask t _).record rfl
    · exact ((refl.modifyEpoch e rfl le_rfl).record rfl).setTask t _
  · exact (w.internal_stepLayers (hd.callback (hw.answers t _ ht _ rfl))).setTask t _
  · exact refl

/-- Whatever is not a client's does nothing to clients while all jobs are docile. -/
theorem internal_step (hw : Evolved settings hook w) (hd : w.Docile) {task : Task ν}
    (ht : w.tasks[t]? = some task) (hc : ∀ th, task ≠ .client th) : Internal w (w.step t) := by
  unfold step
  split
  · rw [ht]
    cases task with
    | worker => exact internal_stepWorker hw hd ht
    | dispatcher => exact internal_stepDispatcher hw hd ht
    | client th => exact absurd rfl (hc th)
  · exact .refl w

end Tasks

end World

end WorkerPool
