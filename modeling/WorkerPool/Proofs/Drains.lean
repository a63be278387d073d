import WorkerPool.Proofs.Dispatch
import WorkerPool.Proofs.Papers

/-!
# Drains

A stop leaves a drain behind, and what is queued in a closed epoch waits for a drain of it. The
callback of an abandoned job runs right above the drain that abandoned it, or in the dispatcher that
did. So once no drain of an epoch is under way and its tasks are over, nothing is queued in it, and
no callback of its jobs is left.
-/

namespace WorkerPool

variable {ν : Type}

/-- The callbacks of a task are of abandoned jobs: each runs on top of a drain of the epoch that
abandoned the job, or alone in the dispatcher of that epoch. -/
def Task.Stacked (w : World ν) (task : Task ν) : Prop :=
  ∀ (th : Thread ν) (k : Nat) (code : Script (Deed ν) Unit) (rest : List (Layer ν)),
    task.thread? = some th → (.callback k code :: rest) <:+ th.layers →
      ∃ e, .abandoned e k ∈ w.occurrences ∧
        ((∃ n rest', rest = .drain e n :: rest') ∨ rest = [] ∧ ∃ state, task = .dispatcher e state)

/-- What is queued in an epoch. -/
def Epoch.queue (ep : Epoch ν) : List (Entry ν) := ep.primary ++ ep.temp

/-- A drain finds nothing exactly if nothing is queued. -/
theorem Epoch.drain?_eq_none_iff_queue {ep : Epoch ν} : ep.drain? = none ↔ ep.queue = [] := by
  rw [drain?_eq_none, queue, List.append_eq_nil_iff]

namespace World

/-- Some task drains the epoch. -/
def Draining (w : World ν) (e : EpochId) : Prop :=
  ∃ (t : TaskId) (task : Task ν) (th : Thread ν) (n : Nat),
    w.tasks[t]? = some task ∧ task.thread? = some th ∧ .drain e n ∈ th.layers

/-- Whatever is queued in a closed epoch is being drained, and only closed epochs abandon jobs. -/
structure Drained (w : World ν) : Prop where
  draining : ∀ e, (w.epoch e).closed = true → (w.epoch e).queue ≠ [] → w.Draining e
  stacked : w.EveryTask fun _ => Task.Stacked w
  abandoned : ∀ e k, .abandoned e k ∈ w.occurrences → (w.epoch e).closed = true

end World

open World

theorem Task.Stacked.mono {w u : World ν} {task : Task ν} (h : task.Stacked w) (g : Grows w u) :
    task.Stacked u := by
  intro th k code rest hth hs
  obtain ⟨e, ha, hrest⟩ := h th k code rest hth hs
  exact ⟨e, g.mem ha, hrest⟩

/-- A task without layers has no callbacks. -/
theorem Task.Stacked.of_layers_eq_nil {w : World ν} {task : Task ν}
    (h : ∀ th, task.thread? = some th → th.layers = []) : task.Stacked w := by
  intro th k code rest hth hs
  rw [h th hth, List.suffix_nil] at hs
  cases hs

namespace World

variable {w u : World ν} {t : TaskId} {a : Option Nat} {th th' : Thread ν} {w' : World ν}

/-- An epoch that is closed was there before. -/
theorem lt_of_closed {e : EpochId} (h : (w.epoch e).closed = true) : e < w.epochs.size := by
  by_contra hlt
  rw [epoch_of_size_le _ _ (Nat.not_lt.1 hlt)] at h
  cases h

/-- What is queued in a closed epoch was queued there before, or the code has just stopped or
drained the epoch. -/
theorem Shift.queue_ne_nil (h : Shift t a th w th' w') {e : EpochId}
    (hc : (w'.epoch e).closed = true) (hq : (w'.epoch e).queue ≠ []) :
    ((w.epoch e).closed = true ∧ (w.epoch e).queue ≠ []) ∨ ∃ n, .drain e n ∈ th'.layers := by
  have same : ∀ {v : World ν} {i : EpochId} {f : Epoch ν → Epoch ν},
      v.epoch e = w.epoch e → (f (v.epoch i)).closed = (v.epoch i).closed →
      (f (v.epoch i)).queue = (v.epoch i).queue →
      ((v.modifyEpoch i f).epoch e).closed = true → ((v.modifyEpoch i f).epoch e).queue ≠ [] →
      (w.epoch e).closed = true ∧ (w.epoch e).queue ≠ [] := by
    intro v i f hv hclosed hqueue h1 h2
    rw [v.modifyEpoch_keeps i f Epoch.closed hclosed, hv] at h1
    rw [v.modifyEpoch_keeps i f Epoch.queue hqueue, hv] at h2
    exact ⟨h1, h2⟩
  cases h with
  | @abandoned i n rest x ep =>
    rw [epoch_record] at hc hq
    obtain hi | ⟨rfl, _⟩ := w.epoch_modifyEpoch_cases i (fun _ => ep) e
    · rw [hi] at hc hq
      exact .inl ⟨hc, hq⟩
    · exact .inr ⟨n + 1, by simp⟩
  | @halted i =>
    by_cases hi : e = i
    · exact .inr ⟨0, by simp [hi]⟩
    · rw [epoch_stop_of_ne _ _ hi] at hc hq
      exact .inl ⟨hc, hq⟩
  | launched =>
    rw [epoch_launch] at hc hq
    exact .inl ⟨hc, hq⟩
  | aside ha =>
    rw [epoch, ha.epochs, ← epoch] at hc hq
    exact .inl ⟨hc, hq⟩
  | @queued job _ _ _ _ i tier ep _ _ _ _ ho =>
    rw [epoch_record] at hc hq
    obtain hi | ⟨rfl, hi⟩ := (w.draw job).epoch_modifyEpoch_cases i (fun _ => ep) e
    · rw [hi] at hc hq
      exact .inl ⟨hc, hq⟩
    · rw [hi, (Epoch.offer_frame ho).1] at hc
      cases hc
  | @hired job _ _ _ _ i => exact .inl (same (v := w.draw job) (i := i) rfl rfl rfl hc hq)
  | @handedOver job _ _ _ _ i => exact .inl (same (v := w.draw job) (i := i) rfl rfl rfl hc hq)
  | @joined job _ _ _ _ i => exact .inl (same (v := w.draw job) (i := i) rfl rfl rfl hc hq)
  | @granted job _ _ _ _ i => exact .inl (same (v := w) (i := i) rfl rfl rfl hc hq)
  | @gaveUp i => exact .inl (same (v := w) (i := i) rfl rfl rfl hc hq)
  | deed =>
    rw [epoch_recordAll] at hc hq
    exact .inl ⟨hc, hq⟩
  | callbackDeed =>
    rw [epoch_recordAll] at hc hq
    exact .inl ⟨hc, hq⟩
  | _ => exact .inl ⟨hc, hq⟩

/-- A drain goes on until nothing is queued. -/
theorem Shift.drain_mem (h : Shift t a th w th' w') {e : EpochId} {n : Nat}
    (hd : .drain e n ∈ th.layers) :
    (∃ m, .drain e m ∈ th'.layers) ∨ (w'.epoch e).queue = [] := by
  cases h with
  | deed hl => simp [hl] at hd
  | callbackDeed hl =>
    rw [hl] at hd
    exact .inl ⟨n, by simpa using hd⟩
  | paused hl => simp [hl] at hd
  | answered hl => simp [hl] at hd
  | returned hl =>
    rw [hl] at hd
    exact .inl ⟨n, by simpa using hd⟩
  | @abandoned i m rest x ep hl =>
    rw [hl, List.mem_cons, Layer.drain.injEq] at hd
    obtain ⟨rfl, rfl⟩ | hd := hd
    · exact .inl ⟨n + 1, by simp⟩
    · exact .inl ⟨n, by simp [hd]⟩
  | @drained i m rest hl hq =>
    rw [hl, List.mem_cons, Layer.drain.injEq] at hd
    obtain ⟨rfl, rfl⟩ | hd := hd
    · exact .inr (Epoch.drain?_eq_none_iff_queue.1 hq)
    · exact .inl ⟨n, hd⟩
  | halted => exact .inl ⟨n, List.mem_cons_of_mem _ hd⟩
  | _ => exact .inl ⟨n, hd⟩

/-- Code abandons jobs in closed epochs alone. -/
theorem Shift.abandoned_mem (h : Shift t a th w th' w') (hth : th.Sound w) {e : EpochId} {k : Nat}
    (hk : .abandoned e k ∈ w'.occurrences) :
    .abandoned e k ∈ w.occurrences ∨ (w.epoch e).closed = true := by
  cases h with
  | @deed d => cases d <;> exact .inl (by simpa [Deed.traces] using hk)
  | @callbackDeed _ d => cases d <;> exact .inl (by simpa [Deed.traces] using hk)
  | @abandoned i n rest x ep hl =>
    simp only [occurrences_record, occurrences_modifyEpoch, List.mem_append, List.mem_singleton,
      Occurrence.abandoned.injEq] at hk
    obtain hk | ⟨rfl, _⟩ := hk
    · exact .inl hk
    · exact .inr (hth.drains e n (by simp [hl])).2
  | aside ha => exact .inl (ha.mem hk rfl)
  | _ => exact .inl (by simpa [hire, handOver, giveUp] using hk)

/-- A callback that is left after a change was there before, or the change has just put it on top of
the drain that abandons its job. -/
theorem Shift.callback_suffix (h : Shift t a th w th' w') {k : Nat} {code : Script (Deed ν) Unit}
    {rest : List (Layer ν)} (hs : (.callback k code :: rest) <:+ th'.layers) :
    (∃ code', (.callback k code' :: rest) <:+ th.layers) ∨
      ∃ e n rest', rest = .drain e n :: rest' ∧ .abandoned e k ∈ w'.occurrences := by
  cases h with
  | @callbackDeed i d ds ending below hl =>
    rw [hl]
    obtain heq | hbelow := List.suffix_cons_iff.1 hs
    · rw [List.cons.injEq, Layer.callback.injEq] at heq
      obtain ⟨⟨rfl, rfl⟩, rfl⟩ := heq
      exact .inl ⟨_, List.suffix_refl _⟩
    · exact .inl ⟨code, List.suffix_cons_iff.2 (.inr hbelow)⟩
  | returned hl =>
    rw [hl]
    exact .inl ⟨code, List.suffix_cons_iff.2 (.inr hs)⟩
  | drained hl =>
    rw [hl]
    exact .inl ⟨code, List.suffix_cons_iff.2 (.inr hs)⟩
  | @abandoned e n below x ep hl =>
    rw [hl]
    obtain heq | hbelow := List.suffix_cons_iff.1 hs
    · rw [List.cons.injEq, Layer.callback.injEq] at heq
      obtain ⟨⟨rfl, rfl⟩, rfl⟩ := heq
      exact .inr ⟨e, n + 1, below, rfl, by simp⟩
    · obtain heq | hbelow := List.suffix_cons_iff.1 hbelow
      · cases heq
      · exact .inl ⟨code, List.suffix_cons_iff.2 (.inr hbelow)⟩
  | halted =>
    obtain heq | hbelow := List.suffix_cons_iff.1 hs
    · cases heq
    · exact .inl ⟨code, hbelow⟩
  | _ => exact .inl ⟨code, hs⟩

/-- Code keeps its callbacks stacked. -/
theorem Shift.stacked {task : Task ν} (h : Shift t task.author? th w th' w')
    (hth : task.thread? = some th) (hs : task.Stacked w) : (task.withThread th').Stacked w' := by
  intro th'' k code rest hth'' hrest
  rw [h.thread?_withThread hth, Option.some.injEq] at hth''
  subst hth''
  obtain ⟨code', hold⟩ | ⟨e, n, rest', hrest', ha⟩ := h.callback_suffix hrest
  · obtain ⟨e, ha, htop | ⟨hnil, state, rfl⟩⟩ := hs th k code' rest hth hold
    · exact ⟨e, h.grows.mem ha, .inl htop⟩
    · refine ⟨e, h.grows.mem ha, .inr ⟨hnil, ?_⟩⟩
      cases state <;> simp [Task.withThread]
  · exact ⟨e, ha, .inl ⟨n, rest', hrest'⟩⟩

/-- A drain of another task goes on. -/
theorem Draining.setTask {v : World ν} {e : EpochId} {task : Task ν} (h : w.Draining e)
    (hv : ∀ (i : TaskId) (other : Task ν), w.tasks[i]? = some other → v.tasks[i]? = some other)
    (ht : ∀ (old : Task ν) (th : Thread ν) (n : Nat), w.tasks[t]? = some old →
      old.thread? = some th → .drain e n ∉ th.layers) :
    (v.setTask t task).Draining e := by
  obtain ⟨i, other, thread, n, hi, hthread, hn⟩ := h
  have hne : i ≠ t := by
    rintro rfl
    exact ht other thread n hi hthread hn
  refine ⟨i, other, thread, n, ?_, hthread, hn⟩
  rw [getElem?_setTask_of_ne _ _ _ hne]
  exact hv i other hi

/-- Code keeps what is queued in closed epochs drained. -/
theorem Shift.keeps_drained {task : Task ν} (h : Shift t task.author? th w th' w')
    (ht : w.tasks[t]? = some task) (hth : task.thread? = some th) (hw : w.Sound)
    (hd : w.Drained) : (w'.setTask t (task.withThread th')).Drained := by
  have hlt : t < w.tasks.size := (Array.getElem?_eq_some_iff.1 ht).1
  have own : ∀ e n, .drain e n ∈ th'.layers → (w'.setTask t (task.withThread th')).Draining e :=
    fun e n hn => ⟨t, task.withThread th', th', n,
      getElem?_setTask_self _ _ _ (Nat.lt_of_lt_of_le hlt h.grows.tasks),
      h.thread?_withThread hth, hn⟩
  refine ⟨fun e hc hq => ?_, ?_, fun e k hk => ?_⟩
  · obtain ⟨hcw, hqw⟩ | ⟨n, hn⟩ := h.queue_ne_nil hc hq
    · have before := hd.draining e hcw hqw
      by_cases hself : ∃ n, .drain e n ∈ th.layers
      · obtain ⟨n, hn⟩ := hself
        obtain ⟨m, hm⟩ | hnil := h.drain_mem hn
        · exact own e m hm
        · exact absurd hnil hq
      · refine before.setTask (fun i other hi => ?_) fun old thread n hold hthread hn =>
          hself ⟨n, ?_⟩
        · rw [h.getElem?_tasks (Array.getElem?_eq_some_iff.1 hi).1, hi]
        · obtain rfl : task = old := Option.some.inj (ht.symm.trans hold)
          obtain rfl : th = thread := Option.some.inj (hth.symm.trans hthread)
          exact hn
    · exact own e n hn
  · intro i other hi
    obtain ⟨rfl, rfl⟩ | ⟨_, hother⟩ := getElem?_setTask_cases hi
    · exact (h.stacked hth (hd.stacked i task ht)).mono (.setTask _ _ _)
    · obtain hold | hcrew | ⟨_, _, _, rfl⟩ := h.getElem?_cases hother
      · exact (hd.stacked i other hold).mono (h.grows.trans (.setTask _ _ _))
      · obtain ⟨_, _, rfl⟩ | ⟨_, rfl⟩ := mem_crew.1 hcrew <;>
          exact .of_layers_eq_nil (by simp [Task.thread?])
      · exact .of_layers_eq_nil (by simp [Task.thread?])
  · have hc : (w.epoch e).closed = true := by
      obtain hk | hc := h.abandoned_mem ((hw.tasks t task ht).thread th hth) hk
      · exact hd.abandoned e k hk
      · exact hc
    exact h.grows.closed e (lt_of_closed hc) hc

/-- What is queued in a closed epoch stays if the change of it leaves its queues alone. -/
theorem queue_modifyEpoch {i : EpochId} {f : Epoch ν → Epoch ν}
    (h : (f (w.epoch i)).closed = true →
      (w.epoch i).closed = true ∧ (f (w.epoch i)).queue = (w.epoch i).queue) (e : EpochId)
    (hc : ((w.modifyEpoch i f).epoch e).closed = true)
    (hq : ((w.modifyEpoch i f).epoch e).queue ≠ []) :
    (w.epoch e).closed = true ∧ (w.epoch e).queue ≠ [] := by
  obtain he | ⟨rfl, he⟩ := w.epoch_modifyEpoch_cases i f e
  · rw [he] at hc hq
    exact ⟨hc, hq⟩
  · rw [he] at hc hq
    obtain ⟨hcw, hqw⟩ := h hc
    exact ⟨hcw, hqw ▸ hq⟩

/-- A task without layers that is set anew leaves all drains alone. -/
theorem Drained.setTask (h : w.Drained) {v : World ν} (g : Grows w v) (hv : v.tasks = w.tasks)
    (hq : ∀ e, (v.epoch e).closed = true → (v.epoch e).queue ≠ [] →
      (w.epoch e).closed = true ∧ (w.epoch e).queue ≠ [])
    {old task : Task ν} (ht : w.tasks[t]? = some old)
    (hold : ∀ th, old.thread? = some th → th.layers = []) (hnew : task.Stacked v)
    (ha : ∀ e k, .abandoned e k ∈ v.occurrences → .abandoned e k ∈ w.occurrences ∨
      (w.epoch e).closed = true) : (v.setTask t task).Drained where
  draining e hc hne := by
    obtain ⟨hcw, hqw⟩ := hq e hc hne
    refine (h.draining e hcw hqw).setTask (fun i other hi => hv ▸ hi) fun old' th n ho hth hn => ?_
    obtain rfl : old = old' := Option.some.inj (ht.symm.trans ho)
    simp [hold th hth] at hn
  stacked := by
    intro i other hi
    obtain ⟨rfl, rfl⟩ | ⟨_, hother⟩ := getElem?_setTask_cases hi
    · exact hnew.mono (.setTask _ _ _)
    · rw [hv] at hother
      exact (h.stacked i other hother).mono (g.trans (.setTask _ _ _))
  abandoned e k hk := by
    have hc : (w.epoch e).closed = true := (ha e k hk).elim (h.abandoned e k) id
    exact g.closed e (lt_of_closed hc) hc

/-- A task that runs no code is set to another one, while nothing is abandoned. -/
theorem Drained.setTask_of_recorded (h : w.Drained) (os : List (Occurrence ν)) {old task : Task ν}
    (ht : w.tasks[t]? = some old) (hold : ∀ th, old.thread? = some th → th.layers = [])
    (hnew : ∀ th, task.thread? = some th → th.layers = [])
    (ha : ∀ e k, Occurrence.abandoned e k ∉ os) : ((w.recordAll os).setTask t task).Drained :=
  h.setTask (.recordAll w os) (by simp) (fun e hc hq => ⟨by simpa using hc, by simpa using hq⟩) ht
    hold (.of_layers_eq_nil hnew) fun e k hk => .inl (by simpa [ha] using hk)

/-- A task that runs no code is set to another one. -/
theorem Drained.setTask_of_idle (h : w.Drained) {old task : Task ν} (ht : w.tasks[t]? = some old)
    (hold : ∀ th, old.thread? = some th → th.layers = [])
    (hnew : ∀ th, task.thread? = some th → th.layers = []) : (w.setTask t task).Drained :=
  h.setTask_of_recorded [] ht hold hnew fun _ _ hk => absurd hk List.not_mem_nil

/-- A task that runs no code is set to another one, while its epoch changes but for the queues if it
is closed. -/
theorem Drained.setTask_of_written (h : w.Drained) {e : EpochId} (f : Epoch ν → Epoch ν)
    (os : List (Occurrence ν)) {old task : Task ν}
    (hc : (f (w.epoch e)).closed = (w.epoch e).closed)
    (hq : (w.epoch e).closed = true → (f (w.epoch e)).queue = (w.epoch e).queue)
    (ht : w.tasks[t]? = some old) (hold : ∀ th, old.thread? = some th → th.layers = [])
    (hnew : task.Stacked ((w.modifyEpoch e f).recordAll os))
    (ha : ∀ i k, .abandoned i k ∈ os → (w.epoch i).closed = true) :
    (((w.modifyEpoch e f).recordAll os).setTask t task).Drained := by
  refine h.setTask ((Grows.modifyEpoch w e f hc).trans (.recordAll _ os)) (by simp)
    (fun i hci hqi => ?_) ht hold hnew fun i k hk => ?_
  · rw [epoch_recordAll] at hci hqi
    exact queue_modifyEpoch (fun hf => ⟨hc ▸ hf, hq (hc ▸ hf)⟩) i hci hqi
  · rw [occurrences_recordAll, List.mem_append] at hk
    exact hk.imp id (ha i k)

/-- What changes no epoch and no task, and abandons nothing, leaves all drains alone. -/
theorem Drained.of_same (h : w.Drained) (g : Grows w u) (ht : u.tasks = w.tasks)
    (he : ∀ e, u.epoch e = w.epoch e)
    (ha : ∀ e k, .abandoned e k ∈ u.occurrences → .abandoned e k ∈ w.occurrences) :
    u.Drained where
  draining e hc hq := by
    rw [he] at hc hq
    obtain ⟨i, other, th, n, hi, hth, hn⟩ := h.draining e hc hq
    exact ⟨i, other, th, n, ht ▸ hi, hth, hn⟩
  stacked i other hi := (h.stacked i other (ht ▸ hi)).mono g
  abandoned e k hk := by
    rw [he]
    exact h.abandoned e k (ha e k hk)

/-- Every elementary change keeps what is queued in closed epochs drained. -/
theorem Change.drained (c : Change w u) (hw : w.Sound) (hd : w.Dispatched) (h : w.Drained) :
    u.Drained := by
  cases c with
  | aside ha =>
    exact h.of_same (.aside ha) ha.tasks (fun e => by rw [epoch, ha.epochs, ← epoch])
      fun e k hk => ha.mem hk rfl
  | posted code =>
    refine ⟨fun e hc hq => ?_, fun i other hi => ?_, h.abandoned⟩
    · obtain ⟨i, other, th, n, hi, hth, hn⟩ := h.draining e hc hq
      refine ⟨i, other, th, n, ?_, hth, hn⟩
      rwa [getElem?_spawn _ _ (Array.getElem?_eq_some_iff.1 hi).1]
    · obtain ⟨rfl, rfl⟩ | hold := getElem?_spawn_cases hi
      · exact .of_layers_eq_nil (by simp [Task.thread?])
      · exact (h.stacked i other hold).mono (.spawn _ _)
  | code ht hth hs => exact hs.keeps_drained ht hth hw h
  | brokenOff ht hl =>
    exact h.setTask_of_idle ht (by simp [Task.thread?, hl]) (by simp [Task.thread?])
  | began ht => exact h.setTask_of_idle ht (by simp [Task.thread?]) (by simp [Task.thread?])
  | @welcomed t e kind live x ht =>
    have hv : ((w.recordAll (w.hookTrace e t (.join live) ++
        [.log none (.tempJoined live)])).setTask t
          (.worker e kind (.busy .seed x.ticket { body := x.job.run }))).Drained :=
      h.setTask_of_recorded _ ht (by simp [Task.thread?]) (by simp [Task.thread?])
        (by simp [mem_hookTrace_iff])
    exact hv.of_same (.record _ _) rfl (fun _ => rfl) fun i k hk => by
      simpa [World.assign] using hk
  | @lost t e kind live x ht =>
    exact h.setTask_of_recorded _ ht (by simp [Task.thread?]) (by simp [Task.thread?])
      (by simp [mem_hookTrace_iff])
  | @claimed t e kind alarm tier x ep ht ho hc =>
    have hclosed := (Epoch.claim_frame hc).1
    exact h.setTask_of_written (fun _ => ep) [.started e x.ticket t (.tier tier)] hclosed
      (by simp [ho]) ht (by simp [Task.thread?]) (.of_layers_eq_nil (by simp [Task.thread?]))
      (by simp)
  | @finished t e kind source i th os state ht ho hos hs =>
    have hlayers : th.layers = [] := by
      simp only [Thread.isOver, Bool.and_eq_true, List.isEmpty_iff] at ho
      exact ho.1
    refine h.setTask_of_recorded _ ht (by simp [Task.thread?, hlayers]) ?_ ?_
    · obtain ⟨rfl, _⟩ | ⟨_, rfl, _⟩ | ⟨rfl, _⟩ := hs <;> simp [Task.thread?]
    · obtain ⟨_, rfl⟩ | ⟨p, _, rfl⟩ := hos <;> simp [mem_hookTrace_iff]
  | @quit t e kind state ht hq =>
    refine h.setTask_of_idle ht ?_ (by simp [Task.thread?])
    obtain ⟨_, rfl, _⟩ | ⟨rfl, _⟩ := hq <;> simp [Task.thread?]
  | left ht => exact h.setTask_of_idle ht (by simp [Task.thread?]) (by simp [Task.thread?])
  | @retired t e ht =>
    exact h.setTask_of_written (fun ep => { ep with temps := ep.temps - 1 }) _ rfl (fun _ => rfl) ht
      (by simp [Task.thread?]) (.of_layers_eq_nil (by simp [Task.thread?]))
      (by simp [mem_hookTrace_iff])
  | dispatching ht => exact h.setTask_of_idle ht (by simp [Task.thread?]) (by simp [Task.thread?])
  | @flushed t e ht =>
    have spec := Epoch.flushes_flush w.settings (w.epoch e)
    exact h.setTask_of_written (fun _ => ((w.epoch e).flush w.settings).epoch) _ spec.closed
      (fun hc => by rw [Epoch.epoch_flush_of_closed hc]) ht (by simp [Task.thread?])
      (.of_layers_eq_nil (by simp [Task.thread?])) (by simp)
  | @woken t e ht =>
    exact h.setTask_of_written (fun ep => { ep with freed := false }) [] rfl (fun _ => rfl) ht
      (by simp [Task.thread?]) (.of_layers_eq_nil (by simp [Task.thread?])) (by simp)
  | @tookIn t e x intake ht =>
    exact h.setTask_of_written (fun ep => { ep with intake, backlog := ep.backlog ++ [x] })
      [.buffered e x.ticket] rfl (fun _ => rfl) ht (by simp [Task.thread?])
      (.of_layers_eq_nil (by simp [Task.thread?])) (by simp)
  | @shut t e state ht hs =>
    refine h.setTask_of_written (fun ep => { ep with intake := ep.intake.close }) [] rfl
      (fun _ => rfl) ht ?_ (.of_layers_eq_nil (by simp [Task.thread?])) (by simp)
    obtain rfl | rfl := hs <;> simp [Task.thread?]
  | @collected t e state x intake ht hs =>
    refine h.setTask_of_written (fun ep => { ep with intake, backlog := ep.backlog ++ [x] })
      [.buffered e x.ticket] rfl (fun _ => rfl) ht ?_ (.of_layers_eq_nil (by simp [Task.thread?]))
      (by simp)
    obtain rfl | rfl := hs <;> simp [Task.thread?]
  | expecting ht => exact h.setTask_of_idle ht (by simp [Task.thread?]) (by simp [Task.thread?])
  | discarding ht => exact h.setTask_of_idle ht (by simp [Task.thread?]) (by simp [Task.thread?])
  | @discarded t e x rest ht hb =>
    have hclosed : (w.epoch e).closed = true := (hd.fits t e _ ht).2.1
    refine h.setTask_of_written (fun ep => { ep with backlog := rest }) [.abandoned e x.ticket] rfl
      (fun _ => rfl) ht (by simp [Task.thread?]) ?_ ?_
    · intro th k code below hth hs
      obtain rfl : _ = th := by simpa [Task.thread?] using hth
      obtain heq | hnil := List.suffix_cons_iff.1 hs
      · rw [List.cons.injEq, Layer.callback.injEq] at heq
        obtain ⟨⟨rfl, rfl⟩, rfl⟩ := heq
        exact ⟨e, by simp, .inr ⟨rfl, _, rfl⟩⟩
      · simp at hnil
    · intro i k hk
      obtain ⟨rfl, _⟩ : i = e ∧ k = x.ticket := by simpa using hk
      exact hclosed
  | dispersed ht => exact h.setTask_of_idle ht (by simp [Task.thread?]) (by simp [Task.thread?])

/-- In every state that a pool comes to, what is queued in closed epochs is being drained. -/
theorem Evolved.drained {settings : Settings} {hook : Option Hook} (h : Evolved settings hook w) :
    w.Drained := by
  induction h with
  | opened =>
    refine ⟨fun e hc _ => ?_, fun t task ht => ?_, fun e k hk => ?_⟩
    · rw [epoch_launch] at hc
      cases hc
    · obtain ⟨_, hm⟩ | ht := getElem?_launch_cases ht
      · obtain ⟨_, _, rfl⟩ | ⟨_, rfl⟩ := mem_crew.1 hm <;>
          exact .of_layers_eq_nil (by simp [Task.thread?])
      · simp at ht
    · rw [occurrences_launch] at hk
      simp [occurrences] at hk
  | next h c ih => exact c.drained h.sound h.dispatched ih

section Deserted

variable {e : EpochId}

/-- The tasks of a deserted epoch are over. -/
theorem isOver_of_deserted (h : w.deserted e = true) {task : Task ν} (ht : w.tasks[t]? = some task)
    (hh : task.home? = some e) : task.isOver = true := by
  obtain ⟨hlt, rfl⟩ := Array.getElem?_eq_some_iff.1 ht
  have hover := Array.all_eq_true.1 h t hlt
  simpa [hh] using hover

/-- The tasks of a deserted epoch hold no jobs. -/
theorem holders_of_deserted (h : w.deserted e = true) (k : Nat) : w.holders e k = 0 := by
  apply w.total_eq_zero
  intro t task ht
  apply if_neg
  intro hheld
  obtain ⟨_, _, _, rfl, _⟩ | ⟨_, _, _, rfl⟩ := Task.held?_eq_some hheld
  · cases isOver_of_deserted h ht rfl
  · cases isOver_of_deserted h ht rfl

/-- The dispatcher of a deserted epoch has left nothing behind. -/
theorem entries_of_deserted (h : w.deserted e = true) (hm : w.Manned) (hd : w.Dispatched) :
    (w.epoch e).entries = (w.epoch e).queue := by
  by_cases he : e < w.epochs.size
  case neg => rw [epoch_of_size_le _ _ (Nat.not_lt.1 he)]; rfl
  have nothing : (w.epoch e).backlog = [] ∧ (w.epoch e).intake.isFree = true := by
    cases hn : w.settings.maxTemps with
    | none => exact hd.unused hn e
    | some limit =>
      obtain ⟨i, state, hi⟩ := hm.exists_dispatcher he (by simp [hn])
      have hover := isOver_of_deserted h hi rfl
      have hfits := hd.fits i e state hi
      cases state with
      | gone => exact ⟨hfits.2.2.2, hfits.2.2.1⟩
      | _ => simp [Task.isOver] at hover
  obtain ⟨hs, _⟩ := Intake.isFree_iff.1 nothing.2
  simp [Epoch.entries, Epoch.queue, nothing.1, hs]

end Deserted

end World

end WorkerPool
