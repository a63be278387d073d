import WorkerPool.Proofs.Moves

/-!
# The line at the intake

Submitters that wait for the intake of an epoch stand in its line, each once, or hold the place that
was granted to them. The place is granted to no one while a job is in it, and nobody waits for a
place that is free.
-/

namespace WorkerPool

/-- An intake whose line and grant are of those who wait for it. -/
structure Intake.Orderly {α : Type} (i : Intake α) (waits : TaskId → Prop) : Prop where
  slot_eq : i.granted ≠ none → i.slot = none
  line_eq : i.slot = none → i.granted = none → i.line = []
  nodup : i.line.Nodup
  fresh : ∀ t, i.granted = some t → t ∉ i.line
  waiting : ∀ t, t ∈ i.line ∨ i.granted = some t → waits t
  lined : i.shut = false → ∀ t, waits t → t ∈ i.line ∨ i.granted = some t

namespace Intake

variable {α : Type} {i : Intake α} {waits waits' : TaskId → Prop}

/-- Only who waits matters. -/
theorem Orderly.congr (h : i.Orderly waits) (hw : ∀ t, waits' t ↔ waits t) : i.Orderly waits' := by
  obtain rfl : waits' = waits := funext fun t => propext (hw t)
  exact h

/-- An intake that was never used is in order if nobody waits for it. -/
theorem Orderly.blank (h : ∀ t, ¬ waits t) : ({} : Intake α).Orderly waits :=
  ⟨fun _ => rfl, fun _ _ => rfl, List.nodup_nil, by simp, by simp, fun _ t ht => absurd ht (h t)⟩

/-- Granting a free place to the first in line keeps order. -/
theorem Orderly.grantNext (hs : i.slot = none) (hd : i.line.Nodup) (hw : ∀ t ∈ i.line, waits t)
    (hl : i.shut = false → ∀ t, waits t → t ∈ i.line) : i.grantNext.Orderly waits := by
  unfold Intake.grantNext
  split
  · rename_i h
    rw [h] at hl
    refine ⟨fun _ => hs, fun _ _ => h, by simp [h], by simp, by simp [h], fun hshut t ht => ?_⟩
    cases hl hshut t ht
  · rename_i t rest h
    rw [h, List.nodup_cons] at hd
    rw [h] at hw hl
    refine ⟨fun _ => hs, by simp, hd.2, ?_, ?_, ?_⟩
    · rintro s hs
      obtain rfl : t = s := by simpa using hs
      exact hd.1
    · rintro s (hm | hg)
      · exact hw s (List.mem_cons_of_mem _ hm)
      · obtain rfl : t = s := by simpa using hg
        exact hw t List.mem_cons_self
    · intro hshut s hs
      rcases List.mem_cons.1 (hl hshut s hs) with rfl | hm
      · exact .inr rfl
      · exact .inl hm

/-- A job handed over while the place is free waits for no one. -/
theorem Orderly.put_of_isFree (h : i.Orderly waits) (hf : i.isFree = true) (x : α) :
    (i.put x).Orderly waits := by
  obtain ⟨hs, hg⟩ := isFree_iff.1 hf
  have hl := h.line_eq hs hg
  refine ⟨by simp [put], by simp [put], h.nodup, by simp [put], ?_, ?_⟩
  · simp [put, hl]
  · intro hshut t ht
    have := h.lined hshut t ht
    simp [hl, hg] at this

/-- The one that the place was granted to hands its job over and waits no more. -/
theorem Orderly.put_of_granted (h : i.Orderly waits) {t : TaskId} (hg : i.granted = some t)
    (x : α) : (i.put x).Orderly fun s => waits s ∧ s ≠ t := by
  refine ⟨by simp [put], by simp [put], h.nodup, by simp [put], ?_, ?_⟩
  · rintro s (hs | hs)
    · exact ⟨h.waiting s (.inl hs), by rintro rfl; exact h.fresh s hg hs⟩
    · simp [put] at hs
  · rintro hshut s ⟨hs, hne⟩
    rcases h.lined hshut s hs with hm | hg'
    · exact .inl hm
    · rw [hg, Option.some.injEq] at hg'
      exact absurd hg'.symm hne

/-- A submitter that did not wait joins the line of a place that is not free. -/
theorem Orderly.join (h : i.Orderly waits) {t : TaskId} (ht : ¬ waits t) (hf : i.isFree = false) :
    (i.join t).Orderly fun s => waits s ∨ s = t := by
  have hline : t ∉ i.line := fun hm => ht (h.waiting t (.inl hm))
  refine ⟨h.slot_eq, fun hs hg => ?_, ?_, fun s hs hm => ?_, ?_, ?_⟩
  · have free : i.isFree = true := isFree_iff.2 ⟨hs, hg⟩
    rw [free] at hf
    cases hf
  · simpa [Intake.join, List.nodup_append] using ⟨h.nodup, fun s hs he => hline (he ▸ hs)⟩
  · rcases List.mem_append.1 hm with hm | hm
    · exact h.fresh s hs hm
    · obtain rfl : s = t := by simpa using hm
      exact ht (h.waiting s (.inr hs))
  · rintro s (hm | hg)
    · rcases List.mem_append.1 hm with hm | hm
      · exact .inl (h.waiting s (.inl hm))
      · exact .inr (by simpa using hm)
    · exact .inl (h.waiting s (.inr hg))
  · rintro hshut s (hs | rfl)
    · exact (h.lined hshut s hs).imp (List.mem_append_left _) id
    · exact .inl (List.mem_append_right _ List.mem_cons_self)

/-- A submitter gives up and waits no more. -/
theorem Orderly.leave (h : i.Orderly waits) (t : TaskId) :
    (i.leave t).Orderly fun s => waits s ∧ s ≠ t := by
  unfold Intake.leave
  split
  · rename_i hg
    refine .grantNext (h.slot_eq (by simp [hg])) h.nodup
      (fun s hs => ⟨h.waiting s (.inl hs), ?_⟩) ?_
    · rintro rfl
      exact h.fresh s hg hs
    · rintro hshut s ⟨hs, hne⟩
      rcases h.lined hshut s hs with hm | hg'
      · exact hm
      · rw [hg, Option.some.injEq] at hg'
        exact absurd hg'.symm hne
  · rename_i hg
    refine ⟨h.slot_eq, fun hs hn => ?_, h.nodup.erase t, fun s hs hm => ?_, ?_, ?_⟩
    · simp [h.line_eq hs hn]
    · exact h.fresh s hs (List.mem_of_mem_erase hm)
    · rintro s (hm | hs)
      · rw [h.nodup.mem_erase_iff] at hm
        exact ⟨h.waiting s (.inl hm.2), hm.1⟩
      · exact ⟨h.waiting s (.inr hs), by rintro rfl; exact hg hs⟩
    · rintro hshut s ⟨hs, hne⟩
      exact (h.lined hshut s hs).imp (fun hm => h.nodup.mem_erase_iff.2 ⟨hne, hm⟩) id

/-- The job is taken out, and the place goes to the next in line. -/
theorem Orderly.take (h : i.Orderly waits) {i' : Intake α} {x : α} (ht : i.take? = some (x, i')) :
    i'.Orderly waits := by
  obtain ⟨hx, rfl⟩ := take?_eq_some.1 ht
  have hg : i.granted = none := by
    by_contra hne
    rw [h.slot_eq hne] at hx
    cases hx
  refine .grantNext rfl h.nodup (fun t hm => h.waiting t (.inl hm)) fun hshut t ht => ?_
  rcases h.lined hshut t ht with hm | hgt
  · exact hm
  · rw [hg] at hgt
    cases hgt

/-- Shutting an intake turns all in line away. -/
theorem Orderly.close (h : i.Orderly waits) : i.close.Orderly waits := by
  refine ⟨h.slot_eq, fun _ _ => rfl, List.nodup_nil, by simp [Intake.close], ?_, ?_⟩
  · rintro t (hm | hg)
    · cases hm
    · exact h.waiting t (.inr hg)
  · simp [Intake.close]

end Intake

variable {ν : Type}

/-- Where the code of a task stands in line, and with which ticket. -/
def Task.line? (task : Task ν) : Option (EpochId × Nat) := task.thread?.bind fun th => th.wait.line?

namespace World

/-- Where a task stands in line, and with which ticket. -/
def line? (w : World ν) (t : TaskId) : Option (EpochId × Nat) := w.tasks[t]?.bind Task.line?

/-- Task `t` waits for the intake of epoch `e`. -/
def WaitsFor (w : World ν) (e : EpochId) (t : TaskId) : Prop := ∃ k, w.line? t = some (e, k)

/-- The line at every intake is in order. -/
def Orderly (w : World ν) : Prop := ∀ e, (w.epoch e).intake.Orderly (w.WaitsFor e)

section Places

variable (w : World ν) (t : TaskId) (task : Task ν)

@[simp] theorem line?_record (o : Occurrence ν) : (w.record o).line? = w.line? := rfl
@[simp] theorem line?_modifyEpoch (e : EpochId) (f : Epoch ν → Epoch ν) :
    (w.modifyEpoch e f).line? = w.line? := rfl
@[simp] theorem line?_draw (job : Job ν) : (w.draw job).line? = w.line? := rfl
@[simp] theorem line?_stop (e : EpochId) : (w.stop e).line? = w.line? := rfl

@[simp] theorem line?_recordAll (os : List (Occurrence ν)) :
    (w.recordAll os).line? = w.line? := by
  funext i
  rw [line?, tasks_recordAll, ← line?]

/-- A task that is set stands where its code waits. -/
theorem line?_setTask_self (h : t < w.tasks.size) : (w.setTask t task).line? t = task.line? := by
  rw [line?, getElem?_setTask_self _ _ _ h]
  rfl

theorem line?_setTask_of_ne {i : TaskId} (h : i ≠ t) : (w.setTask t task).line? i = w.line? i := by
  rw [line?, getElem?_setTask_of_ne _ _ _ h, ← line?]

variable {w t task} in
/-- A task that is set anew and stands where it stood leaves the lines alone. -/
theorem line?_setTask {old : Task ν} (ht : w.tasks[t]? = some old) (h : task.line? = old.line?) :
    (w.setTask t task).line? = w.line? := by
  funext i
  by_cases hi : i = t
  · subst hi
    rw [line?_setTask_self _ _ _ (Array.getElem?_eq_some_iff.1 ht).1, h, line?, ht]
    rfl
  · exact line?_setTask_of_ne _ _ _ hi

variable {task} in
/-- A task that is added and waits for nothing leaves the lines alone. -/
theorem line?_spawn (h : task.line? = none) : (w.spawn task).line? = w.line? := by
  funext i
  rw [line?, line?, spawn, Array.getElem?_push]
  split
  · rename_i hi
    subst hi
    simp [h]
  · rfl

@[simp] theorem line?_launch : w.launch.line? = w.line? := by
  funext i
  by_cases hi : i < w.tasks.size
  · rw [line?, getElem?_launch w hi, ← line?]
  · have hw : w.tasks[i]? = none := Array.getElem?_eq_none (Nat.not_lt.1 hi)
    have hnone : ∀ task, w.launch.tasks[i]? = some task → task.line? = none := by
      intro task ht
      obtain ⟨_, hm⟩ | ht := getElem?_launch_cases ht
      · obtain ⟨_, _, rfl⟩ | ⟨_, rfl⟩ := mem_crew.1 hm <;> rfl
      · rw [hw] at ht
        cases ht
    rw [line?, line?, hw]
    cases ht : w.launch.tasks[i]? with
    | none => rfl
    | some task => exact hnone task ht

end Places

variable {w u : World ν}

/-- Order depends on the intakes and on who waits for them. -/
theorem Orderly.of_same (h : w.Orderly) (hi : ∀ e, (u.epoch e).intake = (w.epoch e).intake)
    (hl : u.line? = w.line?) : u.Orderly := by
  intro e
  rw [hi]
  exact (h e).congr fun t => by rw [WaitsFor, WaitsFor, hl]

/-- One intake changes, and with it who waits for it. -/
theorem Orderly.of_one (h : w.Orderly) {e : EpochId} (he : e < w.epochs.size)
    {f : Epoch ν → Epoch ν} (hu : u.epochs = (w.modifyEpoch e f).epochs)
    (ho : (f (w.epoch e)).intake.Orderly (u.WaitsFor e))
    (hl : ∀ i, i ≠ e → ∀ t, u.WaitsFor i t ↔ w.WaitsFor i t) : u.Orderly := by
  intro i
  have hepoch : u.epoch i = (w.modifyEpoch e f).epoch i := by rw [epoch, hu, ← epoch]
  rw [hepoch]
  by_cases hi : i = e
  · subst hi
    rw [epoch_modifyEpoch_self _ _ _ he]
    exact ho
  · rw [epoch_modifyEpoch_of_ne _ _ _ hi]
    exact (h i).congr (hl i hi)

/-- A task that stood in line and goes away is the only one that does not wait any more. -/
theorem waitsFor_of_left {t : TaskId} {e : EpochId} {k : Nat} (ht : w.line? t = some (e, k))
    (hu : u.line? t = none) (hother : ∀ i, i ≠ t → u.line? i = w.line? i) :
    (∀ s, u.WaitsFor e s ↔ w.WaitsFor e s ∧ s ≠ t) ∧
      ∀ i, i ≠ e → ∀ s, u.WaitsFor i s ↔ w.WaitsFor i s := by
  refine ⟨fun s => ?_, fun i hi s => ?_⟩ <;> unfold WaitsFor <;> by_cases hs : s = t
  · subst hs
    simp [hu]
  · simp [hother s hs, hs]
  · subst hs
    simp [hu, ht, Ne.symm hi]
  · rw [hother s hs]

/-- A task that stood in no line and joins one is the only one that waits in addition. -/
theorem waitsFor_of_joined {t : TaskId} {e : EpochId} {k : Nat} (ht : w.line? t = none)
    (hu : u.line? t = some (e, k)) (hother : ∀ i, i ≠ t → u.line? i = w.line? i) :
    (∀ s, u.WaitsFor e s ↔ w.WaitsFor e s ∨ s = t) ∧
      ∀ i, i ≠ e → ∀ s, u.WaitsFor i s ↔ w.WaitsFor i s := by
  refine ⟨fun s => ?_, fun i hi s => ?_⟩ <;> unfold WaitsFor <;> by_cases hs : s = t
  · subst hs
    simp [hu]
  · simp [hother s hs, hs]
  · subst hs
    simp [hu, ht, Ne.symm hi]
  · rw [hother s hs]

/-- The code of a task adds no one to a line but its own task. -/
theorem Shift.line?_eq {t : TaskId} {a : Option Nat} {th th' : Thread ν} {w' : World ν}
    (h : Shift t a th w th' w') : w'.line? = w.line? := by
  cases h with
  | aside h =>
    funext i
    rw [line?, h.tasks, ← line?]
  | hired => exact line?_spawn _ rfl
  | _ => simp [handOver, giveUp]

/-- The code of a task leaves all tasks in their places. -/
theorem Shift.getElem?_tasks {t : TaskId} {a : Option Nat} {th th' : Thread ν} {w' : World ν}
    (h : Shift t a th w th' w') {i : TaskId} (hi : i < w.tasks.size) :
    w'.tasks[i]? = w.tasks[i]? := by
  cases h with
  | aside h => rw [h.tasks]
  | hired => exact getElem?_spawn _ _ hi
  | launched => exact getElem?_launch _ hi
  | _ => simp [handOver, giveUp]

/-- A task that code adds belongs to a new crew or is a temporary worker with its seed. -/
theorem Shift.getElem?_cases {t : TaskId} {a : Option Nat} {th th' : Thread ν} {w' : World ν}
    (h : Shift t a th w th' w') {i : TaskId} {task : Task ν} (hi : w'.tasks[i]? = some task) :
    w.tasks[i]? = some task ∨ task ∈ crew w.settings w.epochs.size ∨
      ∃ e live x, task = .worker e .temporary (.seeded live x) := by
  cases h with
  | launched =>
    obtain ⟨_, hm⟩ | hi := getElem?_launch_cases hi
    · exact .inr (.inl hm)
    · exact .inl hi
  | aside h => exact .inl (h.tasks ▸ hi)
  | hired =>
    obtain ⟨_, rfl⟩ | hi := getElem?_spawn_cases hi
    · exact .inr (.inr ⟨_, _, _, rfl⟩)
    · exact .inl hi
  | _ => exact .inl (by simpa [handOver, giveUp] using hi)

section Code

variable {t : TaskId} {task : Task ν} {th th' : Thread ν} {w' : World ν}
  (h : Shift t task.author? th w th' w') (ht : w.tasks[t]? = some task)
  (hth : task.thread? = some th)

include h ht hth

/-- A task stands in line where its code waits. -/
theorem Shift.line?_self : (w'.setTask t (task.withThread th')).line? t = th'.wait.line? := by
  have hs : t < w.tasks.size := (Array.getElem?_eq_some_iff.1 ht).1
  rw [line?_setTask_self _ _ _ (Nat.lt_of_lt_of_le hs h.grows.tasks), Task.line?,
    h.thread?_withThread hth]
  rfl

omit ht hth in
theorem Shift.line?_of_ne {i : TaskId} (hi : i ≠ t) :
    (w'.setTask t (task.withThread th')).line? i = w.line? i := by
  rw [line?_setTask_of_ne _ _ _ hi, h.line?_eq]

/-- Code that waits where it waited leaves the lines alone. -/
theorem Shift.line?_same (hw : th'.wait.line? = th.wait.line?) :
    (w'.setTask t (task.withThread th')).line? = w.line? := by
  funext i
  by_cases hi : i = t
  · subst hi
    rw [h.line?_self ht hth, hw, line?, ht]
    simp [Task.line?, hth]
  · exact h.line?_of_ne hi

/-- Code keeps the lines in order. -/
theorem Shift.orderly (hw : w.Sound) (ho : w.Orderly) :
    (w'.setTask t (task.withThread th')).Orderly := by
  have hline : w.line? t = th.wait.line? := by simp [line?, ht, Task.line?, hth]
  have hself := h.line?_self ht hth
  have hother : ∀ i, i ≠ t → (w'.setTask t (task.withThread th')).line? i = w.line? i :=
    fun i hi => h.line?_of_ne hi
  have still : (∀ e, (w'.epoch e).intake = (w.epoch e).intake) →
      th'.wait.line? = th.wait.line? → (w'.setTask t (task.withThread th')).Orderly :=
    fun hi hl => ho.of_same hi (h.line?_same ht hth hl)
  cases h with
  | deed _ _ hwait => exact still (by simp) (by rw [hwait]; rfl)
  | callbackDeed => exact still (by simp) rfl
  | paused _ _ _ hwait => exact still (by simp) (by rw [hwait]; rfl)
  | asleep _ _ hwait => exact still (by simp) (by rw [hwait]; rfl)
  | awaiting _ hwait =>
    refine still (by simp) ?_
    obtain hwait | ⟨_, hwait⟩ := hwait <;> rw [hwait] <;> rfl
  | answered _ _ _ hwait => exact still (by simp) (by rw [hwait]; rfl)
  | returned => exact still (by simp) rfl
  | abandoned _ hd =>
    have hintake := (Epoch.drain_frame hd).2.2.1
    exact still (w.modifyEpoch_keeps _ _ Epoch.intake hintake) rfl
  | drained => exact still (by simp) rfl
  | @halted e wait _ _ hwait =>
    refine still (w.modifyEpoch_keeps e _ Epoch.intake rfl) ?_
    obtain rfl | ⟨rfl, hwait, _⟩ := hwait
    · rfl
    · exact hwait.symm
  | launched => exact still (by simp) rfl
  | aside ha => exact still (fun e => by rw [epoch, ha.epochs, ← epoch]) rfl
  | @queued job _ _ _ _ e _ ep _ _ _ _ hx =>
    exact still ((w.draw job).modifyEpoch_keeps e _ Epoch.intake (Epoch.offer_frame hx).2.2.2.1) rfl
  | @hired job _ _ _ _ e => exact still ((w.draw job).modifyEpoch_keeps e _ Epoch.intake rfl) rfl
  | @handedOver job _ _ _ _ e limit hl ha hwait hc hx hb ht' hf =>
    have hl := Shift.line?_same (.handedOver job hl ha hwait hc hx hb ht' hf) ht hth rfl
    refine ho.of_one (hw.current_lt e hc) (f := fun ep => { ep with intake := ep.intake.put _ })
      rfl ?_ fun i _ t => by rw [WaitsFor, WaitsFor, hl]
    exact ((ho e).put_of_isFree hf _).congr fun t => by rw [WaitsFor, WaitsFor, hl]
  | refused => exact still (by simp) rfl
  | @joined job _ _ _ _ e limit _ _ hwait hc _ _ _ hf =>
    have hnone : w.line? t = none := hline.trans hwait
    obtain ⟨hwaits, hrest⟩ := waitsFor_of_joined hnone hself hother
    refine ho.of_one (hw.current_lt e hc) (f := fun ep => { ep with intake := ep.intake.join t })
      rfl (((ho e).join ?_ hf).congr hwaits) hrest
    rintro ⟨k, hk⟩
    rw [hnone] at hk
    cases hk
  | @granted job _ _ _ _ e k _ _ hwait _ _ hg =>
    have hk : w.line? t = some (e, k) := by rw [hline, hwait]; rfl
    obtain ⟨hwaits, hrest⟩ := waitsFor_of_left hk hself hother
    have he : e < w.epochs.size :=
      ((hw.tasks t _ ht).thread th hth).line_lt e k (by rw [hwait]; rfl)
    exact ho.of_one he (f := fun ep => { ep with intake := ep.intake.put ⟨k, job⟩ }) rfl
      (((ho e).put_of_granted hg _).congr hwaits) hrest
  | @gaveUp e k _ hwait =>
    have hk : w.line? t = some (e, k) := by rw [hline, hwait]; rfl
    obtain ⟨hwaits, hrest⟩ := waitsFor_of_left hk hself hother
    have he : e < w.epochs.size :=
      ((hw.tasks t _ ht).thread th hth).line_lt e k (by rw [hwait]; rfl)
    exact ho.of_one he (f := fun ep => { ep with intake := ep.intake.leave t }) rfl
      (((ho e).leave t).congr hwaits) hrest

end Code

/-- A task that stands in no line, before and after, leaves the lines of any world alone. -/
theorem line?_setTask_of_idle {v : World ν} {t : TaskId} {task other : Task ν}
    (hv : v.tasks = w.tasks) (ht : w.tasks[t]? = some task) (hold : task.line? = none)
    (hnew : other.line? = none) : (v.setTask t other).line? = w.line? := by
  rw [← hv] at ht
  rw [line?_setTask ht (hnew.trans hold.symm)]
  funext i
  rw [line?, hv, ← line?]

/-- Every elementary change keeps the lines in order. -/
theorem Change.orderly (c : Change w u) (hw : w.Sound) (ho : w.Orderly) : u.Orderly := by
  cases c with
  | aside h =>
    refine ho.of_same (fun e => by rw [epoch, h.epochs, ← epoch]) ?_
    funext i
    rw [line?, h.tasks, ← line?]
  | posted code => exact ho.of_same (fun e => rfl) (line?_spawn _ rfl)
  | code ht hth h => exact h.orderly ht hth hw ho
  | brokenOff ht hl hwait => exact ho.of_same (fun e => rfl) (line?_setTask ht (Eq.symm hwait))
  | began ht => exact ho.of_same (fun e => rfl) (line?_setTask_of_idle rfl ht rfl rfl)
  | welcomed ht => exact ho.of_same (by simp [assign]) (line?_setTask_of_idle (by simp) ht rfl rfl)
  | lost ht => exact ho.of_same (by simp) (line?_setTask_of_idle (by simp) ht rfl rfl)
  | claimed ht _ hc =>
    have hintake := (Epoch.claim_frame hc).2.2.1
    exact ho.of_same (w.modifyEpoch_keeps _ _ Epoch.intake hintake)
      (line?_setTask_of_idle rfl ht rfl rfl)
  | finished ht hover _ hs =>
    have hwait := ((hw.tasks _ _ ht).thread _ rfl).fits.line?_eq_none_of_isOver hover
    refine ho.of_same (by simp) (line?_setTask_of_idle (by simp) ht hwait ?_)
    obtain ⟨rfl, _⟩ | ⟨_, rfl, _⟩ | ⟨rfl, _⟩ := hs <;> rfl
  | quit ht hq =>
    refine ho.of_same (fun e => rfl) (line?_setTask_of_idle rfl ht ?_ rfl)
    obtain ⟨_, rfl, _⟩ | ⟨rfl, _⟩ := hq <;> rfl
  | left ht => exact ho.of_same (fun e => rfl) (line?_setTask_of_idle rfl ht rfl rfl)
  | @retired t e ht =>
    refine ho.of_same (fun i => ?_) (line?_setTask_of_idle (by simp) ht rfl rfl)
    rw [epoch_setTask, epoch_recordAll]
    exact w.modifyEpoch_keeps e _ Epoch.intake rfl i
  | dispatching ht => exact ho.of_same (fun e => rfl) (line?_setTask_of_idle rfl ht rfl rfl)
  | @flushed t e ht =>
    refine ho.of_same (fun i => ?_) (line?_setTask_of_idle (by simp) ht rfl rfl)
    rw [epoch_setTask, epoch_recordAll]
    exact w.modifyEpoch_keeps e _ Epoch.intake (Epoch.flushes_flush _ _).intake i
  | @woken t e ht =>
    exact ho.of_same (w.modifyEpoch_keeps e _ Epoch.intake rfl)
      (line?_setTask_of_idle rfl ht rfl rfl)
  | @tookIn t e x intake ht _ hi =>
    have hl : ((w.takeIn e x intake).setTask t (.dispatcher e .flushing)).line? = w.line? :=
      line?_setTask_of_idle rfl ht rfl rfl
    exact ho.of_one (hw.home_lt ht rfl)
      (f := fun ep => { ep with intake, backlog := ep.backlog ++ [x] }) rfl
      (((ho e).take hi).congr fun s => by rw [WaitsFor, WaitsFor, hl])
      fun i _ s => by rw [WaitsFor, WaitsFor, hl]
  | @shut t e state ht hs =>
    have hl : (w.shutIntake t e).line? = w.line? := by
      refine line?_setTask_of_idle rfl ht ?_ rfl
      obtain rfl | rfl := hs <;> rfl
    exact ho.of_one (hw.home_lt ht rfl) (f := fun ep => { ep with intake := ep.intake.close }) rfl
      ((ho e).close.congr fun s => by rw [WaitsFor, WaitsFor, hl])
      fun i _ s => by rw [WaitsFor, WaitsFor, hl]
  | @collected t e state x intake ht hs hi =>
    have hl : ((w.takeIn e x intake).setTask t (.dispatcher e .collecting)).line? = w.line? := by
      obtain rfl | rfl := hs <;> exact line?_setTask_of_idle rfl ht rfl rfl
    exact ho.of_one (hw.home_lt ht rfl)
      (f := fun ep => { ep with intake, backlog := ep.backlog ++ [x] }) rfl
      (((ho e).take hi).congr fun s => by rw [WaitsFor, WaitsFor, hl])
      fun i _ s => by rw [WaitsFor, WaitsFor, hl]
  | expecting ht => exact ho.of_same (fun e => rfl) (line?_setTask_of_idle rfl ht rfl rfl)
  | discarding ht => exact ho.of_same (fun e => rfl) (line?_setTask_of_idle rfl ht rfl rfl)
  | @discarded t e x rest ht =>
    exact ho.of_same (w.modifyEpoch_keeps e _ Epoch.intake rfl)
      (line?_setTask_of_idle rfl ht rfl rfl)
  | dispersed ht => exact ho.of_same (fun e => rfl) (line?_setTask_of_idle rfl ht rfl rfl)

/-- In every state that a pool comes to the lines are in order. -/
theorem Evolved.orderly {settings : Settings} {hook : Option Hook} (h : Evolved settings hook w) :
    w.Orderly := by
  induction h with
  | opened =>
    have blank : ({ settings, hook } : World ν).Orderly := fun e => .blank fun t ⟨k, hk⟩ => by
      simp [line?] at hk
    exact blank.of_same (by simp) (line?_launch _)
  | next h c ih => exact c.orderly h.sound ih

end World

end WorkerPool
