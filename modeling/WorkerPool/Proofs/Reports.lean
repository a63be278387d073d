import WorkerPool.Proofs.Conservation
import WorkerPool.Proofs.Papers

/-!
# What jobs report

Reports are counted by what they say and by the job that they belong to. What the code of a job has
reported and what is left of it to report are together what its body says if it was begun, and what
its abandonment says if it was abandoned: no report is made twice, and none is passed over.
-/

namespace WorkerPool

variable {ν : Type} (sel : ν → Bool)

/-- How many of the chosen reports a deed makes. -/
def Deed.reports : Deed ν → Nat
  | note n => if sel n then 1 else 0
  | _ => 0

/-- How many of the chosen reports an act makes by itself; its answer is not counted. -/
def Act.reports : Act ν → Nat
  | deed d => d.reports sel
  | _ => 0

/-- How many of the chosen reports a callback of the job `k` still makes. -/
def Layer.reports (k : Nat) : Layer ν → Nat
  | callback ticket code => if ticket = k then (code.acts.map (Deed.reports sel)).sum else 0
  | drain _ _ => 0

/-- How many of the chosen reports a thread still makes for the job `k`. -/
def Thread.reports (k : Nat) (author : Option Nat) (th : Thread ν) : Nat :=
  (th.layers.map (Layer.reports sel k)).sum +
    if author = some k then (th.body.acts.map (Act.reports sel)).sum else 0

/-- How many of the chosen reports a task still makes for the job `k`. -/
def Task.reports (k : Nat) (task : Task ν) : Nat :=
  (task.thread?.map (Thread.reports sel k task.author?)).getD 0

/-- No answer that the body of a job gets is among the chosen reports. -/
def Job.Discreet (job : Job ν) : Prop :=
  ∀ act ∈ job.run.acts, ∀ n ∈ act.answers, sel n = false

/-- What a report says, and who makes it. -/
def Occurrence.note? : Occurrence ν → Option (Option Nat × ν)
  | note author n => some (author, n)
  | _ => none

/-- A chosen report that was made for the job `k`. -/
def Occurrence.isReport (k : Nat) : Occurrence ν → Bool
  | note author n => author = some k && sel n
  | _ => false

/-- A chosen report that was made for some job. -/
def Occurrence.isSpoken : Occurrence ν → Bool
  | note (some _) n => sel n
  | _ => false

/-- The job of this ticket was begun. -/
def Booking.starts (k : Nat) : Booking → Bool
  | started _ ticket => ticket = k
  | _ => false

/-- The job of this ticket was abandoned. -/
def Booking.abandons (k : Nat) : Booking → Bool
  | abandoned _ ticket => ticket = k
  | _ => false

namespace World

variable (w : World ν) (k : Nat)

/-- Everything that was reported, in order. -/
abbrev notes : List (Option Nat × ν) := w.picked Occurrence.note?

variable {w} in
/-- What was reported is in the journal. -/
theorem mem_notes {author : Option Nat} {n : ν} :
    (author, n) ∈ w.notes ↔ .note author n ∈ w.occurrences := by
  rw [notes, mem_picked]
  constructor
  · rintro ⟨o, ho, hn⟩
    cases o <;> simp only [Occurrence.note?, reduceCtorEq, Option.some.injEq,
      Prod.mk.injEq] at hn
    obtain ⟨rfl, rfl⟩ := hn
    exact ho
  · intro h
    exact ⟨_, h, rfl⟩

/-- How many of the chosen reports were made for the job `k`. -/
def heard : Nat := w.occurrences.countP (Occurrence.isReport sel k)

/-- How many of the chosen reports are still to be made for the job `k`. -/
def unheard : Nat := w.total (Task.reports sel k)

/-- How many of the chosen reports a job makes for each time that it was begun or abandoned. -/
def promised (job : Job ν) : Nat :=
  w.books.countP (·.starts k) * (job.run.acts.map (Act.reports sel)).sum +
    w.books.countP (·.abandons k) * (job.abandon.acts.map (Deed.reports sel)).sum

/-- What was reported and what is still to be reported is what was promised. -/
def Kept : Prop := ∀ k (job : Job ν), (∀ job', .submitted k job' ∈ w.occurrences → job' = job) →
  job.Discreet sel → w.heard sel k + w.unheard sel k = w.promised sel k job

@[simp] theorem heard_recordAll (os : List (Occurrence ν)) :
    (w.recordAll os).heard sel k = w.heard sel k + os.countP (Occurrence.isReport sel k) := by
  simp [heard]

@[simp] theorem heard_record (o : Occurrence ν) : (w.record o).heard sel k =
    w.heard sel k + if o.isReport sel k = true then 1 else 0 := by
  simp [heard, List.countP_singleton]

@[simp] theorem heard_modifyEpoch (e : EpochId) (f : Epoch ν → Epoch ν) :
    (w.modifyEpoch e f).heard sel k = w.heard sel k := rfl

@[simp] theorem heard_setTask (t : TaskId) (task : Task ν) :
    (w.setTask t task).heard sel k = w.heard sel k := rfl

@[simp] theorem countP_isReport_hookTrace (e : EpochId) (t : TaskId) (call : HookCall) :
    (w.hookTrace e t call).countP (Occurrence.isReport sel k) = 0 := by
  unfold hookTrace
  split <;> simp [Occurrence.isReport]

variable {w k} in
/-- A change without bookings changes no promise. -/
theorem promised_congr {u : World ν} (h : u.books = w.books) (job : Job ν) :
    u.promised sel k job = w.promised sel k job := by
  rw [promised, h, ← promised]

/-- A deed makes its report in its own name. -/
theorem countP_isReport_traces (a : Option Nat) (d : Deed ν) :
    (d.traces a).countP (Occurrence.isReport sel k) = if a = some k then d.reports sel else 0 := by
  by_cases ha : a = some k
  · cases d <;> simp [Deed.traces, Deed.reports, Occurrence.isReport, ha, List.countP_singleton]
  · cases d <;> simp [Deed.traces, Occurrence.isReport, ha]

variable {w k} in
/-- A job that is begun promises what its body reports. -/
theorem promised_of_started {u : World ν} (e : EpochId) (ticket : Nat)
    (h : u.books = w.books ++ [.started e ticket]) (job : Job ν) : u.promised sel k job =
      w.promised sel k job +
        if ticket = k then (job.run.acts.map (Act.reports sel)).sum else 0 := by
  simp only [promised, h, List.countP_append, List.countP_singleton, Booking.starts,
    Booking.abandons]
  split_ifs <;> simp_all [Nat.add_mul]
  omega

variable {w k} in
/-- A job that is abandoned promises what its abandonment reports. -/
theorem promised_of_abandoned {u : World ν} (e : EpochId) (ticket : Nat)
    (h : u.books = w.books ++ [.abandoned e ticket]) (job : Job ν) : u.promised sel k job =
      w.promised sel k job + if ticket = k then (job.abandon.acts.map (Deed.reports sel)).sum
        else 0 := by
  simp only [promised, h, List.countP_append, List.countP_singleton, Booking.starts,
    Booking.abandons]
  split_ifs <;> simp_all [Nat.add_mul]
  omega

variable {w k} {u : World ν}

theorem Aside.heard (h : Aside w u) : u.heard sel k = w.heard sel k := by
  obtain ⟨os, hos, hall⟩ := h.occurrences
  have hz : os.countP (Occurrence.isReport sel k) = 0 := by
    rw [List.countP_eq_zero]
    intro o ho
    have := hall o ho
    cases o <;> simp_all [Occurrence.isAside, Occurrence.isReport]
  rw [World.heard, hos, List.countP_append, hz, Nat.add_zero, World.heard]

/-- Code reports what it promised to report, and promises more only for what it abandons. -/
theorem Shift.reports {t : TaskId} {a : Option Nat} {th th' : Thread ν} {w' : World ν}
    (h : Shift t a th w th' w') (hp : w.Papers) {job : Job ν} (hd : job.Discreet sel)
    (hu : ∀ job', .submitted k job' ∈ w'.occurrences → job' = job)
    (ha : a = some k → th.body.acts <:+ job.run.acts) :
    w'.heard sel k + th'.reports sel k a + w'.unheard sel k + w.promised sel k job =
      w.heard sel k + th.reports sel k a + w.unheard sel k + w'.promised sel k job := by
  have grows := h.grows
  have still : ∀ {v : World ν} {tv : Thread ν}, v.heard sel k = w.heard sel k →
      v.unheard sel k = w.unheard sel k → v.promised sel k job = w.promised sel k job →
      tv.reports sel k a = th.reports sel k a →
      v.heard sel k + tv.reports sel k a + v.unheard sel k + w.promised sel k job =
        w.heard sel k + th.reports sel k a + w.unheard sel k + v.promised sel k job := by
    intro v tv h1 h2 h3 h4
    rw [h1, h2, h3, h4]
  cases h with
  | @deed d rest hl hacts =>
    rw [promised_congr sel (u := w.recordAll _) (w := w) (by simp [Occurrence.booking?])]
    simp only [heard_recordAll, countP_isReport_traces, Thread.reports, Thread.next, hl, hacts,
      unheard, total_recordAll, List.map_cons, List.sum_cons, List.tail_cons, Act.reports]
    split_ifs <;> omega
  | @callbackDeed i d ds ending rest hl =>
    rw [promised_congr sel (u := w.recordAll _) (w := w) (by simp [Occurrence.booking?])]
    simp only [heard_recordAll, countP_isReport_traces, Thread.reports, hl, unheard,
      total_recordAll, List.map_cons, List.sum_cons, Layer.reports, Option.some.injEq]
    split_ifs <;> omega
  | @paused act rest hl hacts hpause =>
    have hz : act.reports sel = 0 := by cases act <;> simp_all [Act.isPause, Act.reports]
    exact still rfl rfl rfl (by simp [Thread.reports, Thread.next, hacts, hz])
  | asleep => rfl
  | awaiting => rfl
  | @answered act rest n hl hacts hn =>
    have hz : act.reports sel = 0 := by cases act <;> simp_all [Act.answers, Act.reports]
    have hsilent : a = some k → sel n = false := fun he =>
      hd act ((ha he).subset (by rw [hacts]; exact List.mem_cons_self)) n hn
    have hheard : (w.record (.note a n)).heard sel k = w.heard sel k := by
      simp only [heard, occurrences_record, List.countP_append, List.countP_singleton,
        Occurrence.isReport]
      by_cases he : a = some k <;> simp [he, hsilent]
    refine still hheard rfl (promised_congr sel (by simp [Occurrence.booking?]) job) ?_
    simp [Thread.reports, Thread.next, hacts, hz]
  | @returned i ending rest hl =>
    refine still rfl rfl rfl ?_
    simp [Thread.reports, hl, Layer.reports]
  | @abandoned e n rest x ep hl hdrain =>
    have hx : x ∈ (w.epoch e).entries :=
      (Epoch.perm_entries_of_drain hdrain).mem_iff.2 List.mem_cons_self
    have hjob : x.ticket = k → x.job = job := fun he =>
      hu x.job (he ▸ grows.mem (hp.stock e x hx))
    have hpromised := promised_of_abandoned sel (w := w) (k := k)
      (u := (w.modifyEpoch e fun _ => ep).record (.abandoned e x.ticket)) e x.ticket
      (by simp [Occurrence.booking?]) job
    have hheard : ((w.modifyEpoch e fun _ => ep).record (.abandoned e x.ticket)).heard sel k =
        w.heard sel k := by
      simp [heard, Occurrence.isReport]
    rw [hheard, hpromised]
    simp only [Thread.reports, hl, unheard, total_record, total_modifyEpoch, List.map_cons,
      List.sum_cons, Layer.reports]
    by_cases he : x.ticket = k
    · rw [hjob he]
      simp only [he, if_true]
      omega
    · simp only [he, if_false]
      omega
  | drained hl =>
    refine still rfl rfl rfl ?_
    simp [Thread.reports, hl, Layer.reports]
  | @halted e wait =>
    refine still (by simp [heard, Occurrence.isReport]) (by simp [unheard])
      (promised_congr sel (by simp) job) ?_
    simp [Thread.reports, Layer.reports]
  | launched =>
    refine still (by simp [heard, Occurrence.isReport]) ?_ (promised_congr sel (by simp) job) rfl
    exact total_launch_of_idle (by simp [Task.reports, Task.thread?])
      (by simp [Task.reports, Task.thread?])
  | aside hs =>
    refine still (hs.heard sel) ?_ (promised_congr sel hs.books job) rfl
    rw [unheard, total, hs.tasks, ← total, ← unheard]
  | hired =>
    refine still (by simp [heard, hire, Occurrence.isReport]) ?_ ?_ rfl
    · simp [unheard, hire, Task.reports, Task.thread?]
    · simp [promised, hire, Occurrence.booking?, Booking.starts, Booking.abandons]
  | _ =>
    refine still ?_ ?_ ?_ ?_
    · simp [heard, handOver, giveUp, Occurrence.isReport]
    · rfl
    · simp [promised, handOver, giveUp, Occurrence.booking?, Booking.starts, Booking.abandons]
    · rfl

/-- The report that a task makes is that of its thread. -/
theorem reports_of_thread? {task : Task ν} {th : Thread ν} (h : task.thread? = some th) :
    task.reports sel k = th.reports sel k task.author? := by
  simp [Task.reports, h]

/-- The body of a job is what is left of it while a worker runs it. -/
theorem Papers.suffix {t : TaskId} {task : Task ν} {th : Thread ν} {job : Job ν} (hp : w.Papers)
    (ht : w.tasks[t]? = some task) (hth : task.thread? = some th) (ha : task.author? = some k)
    (hu : ∀ job', .submitted k job' ∈ w.occurrences → job' = job) :
    th.body.acts <:+ job.run.acts := by
  obtain ⟨_, _, _, _, rfl⟩ := Task.author?_eq_some ha
  obtain rfl := Option.some.inj hth
  obtain ⟨job', hs, hsuffix, _⟩ := (hp.tasks t _ ht).body _ _ _ _ _ rfl
  rwa [hu job' hs] at hsuffix

/-- Code reports what it promised. -/
theorem Shift.kept {t : TaskId} {task : Task ν} {th th' : Thread ν} {w' : World ν}
    (h : Shift t task.author? th w th' w') (ht : w.tasks[t]? = some task)
    (hth : task.thread? = some th) (hp : w.Papers) (hk : w.Kept sel) :
    (w'.setTask t (task.withThread th')).Kept sel := by
  intro k job hu hd
  have known : ∀ job', .submitted k job' ∈ w.occurrences → job' = job :=
    fun job' hj => hu job' (h.grows.mem hj)
  have before := hk k job known hd
  have step := h.reports sel hp hd hu fun ha => hp.suffix ht hth ha known
  have total := h.total_withThread ht (Task.reports sel k)
  rw [reports_of_thread? sel hth, reports_of_thread? sel (h.thread?_withThread hth),
    author?_withThread] at total
  have promised : (w'.setTask t (task.withThread th')).promised sel k job =
      w'.promised sel k job := promised_congr sel rfl job
  rw [heard_setTask, promised]
  simp only [unheard] at before step ⊢
  omega

/-- A change of a task keeps the promises if what is promised in addition is what is reported in
addition and what the task is to report in addition. -/
theorem Kept.setTask (h : w.Kept sel) {v : World ν} (g : Grows w v) (hv : v.tasks = w.tasks)
    {t : TaskId} {old task : Task ν} (ht : w.tasks[t]? = some old)
    (hs : ∀ k (job : Job ν), (∀ job', .submitted k job' ∈ v.occurrences → job' = job) →
      v.heard sel k + task.reports sel k + w.promised sel k job =
        w.heard sel k + old.reports sel k + v.promised sel k job) :
    (v.setTask t task).Kept sel := by
  intro k job hu hd
  have before := h k job (fun job' hj => hu job' (g.mem hj)) hd
  have balance := hs k job hu
  have htotal := v.total_setTask (Task.reports sel k) (hv ▸ ht) task
  have hset : (v.setTask t task).promised sel k job = v.promised sel k job :=
    promised_congr sel rfl job
  have hsame : v.total (Task.reports sel k) = w.unheard sel k := by
    rw [total, hv, ← total, ← unheard]
  rw [heard_setTask, hset, unheard]
  omega

/-- A change that neither reports nor promises anything keeps the promises. -/
theorem Kept.setTask_of_same (h : w.Kept sel) {v : World ν} (g : Grows w v)
    (hv : v.tasks = w.tasks) (hheard : ∀ k, v.heard sel k = w.heard sel k)
    (hpromised : ∀ k job, v.promised sel k job = w.promised sel k job) {t : TaskId}
    {old task : Task ν} (ht : w.tasks[t]? = some old)
    (hreports : ∀ k, task.reports sel k = old.reports sel k) : (v.setTask t task).Kept sel :=
  h.setTask sel g hv ht fun k job _ => by rw [hheard, hpromised, hreports]

/-- A worker that begins a job promises what the body of the job reports. -/
theorem Kept.assign (h : w.Kept sel) {v : World ν} (g : Grows w v) (hv : v.tasks = w.tasks)
    (hheard : ∀ k, v.heard sel k = w.heard sel k)
    (hpromised : ∀ k job, v.promised sel k job = w.promised sel k job) {t : TaskId}
    {e : EpochId} {kind : WorkerKind} {old : WorkerState ν}
    (ht : w.tasks[t]? = some (.worker e kind old))
    (hold : ∀ k, (Task.worker e kind old).reports sel k = 0) (source : Source) {x : Entry ν}
    (hx : .submitted x.ticket x.job ∈ v.occurrences) :
    (v.assign t e kind source x).Kept sel := by
  have grows := g.trans (.record v (.started e x.ticket t source))
  refine h.setTask sel (v := v.record (.started e x.ticket t source)) grows hv ht
    fun k job hu => ?_
  have hnew : (Task.worker e kind (.busy source x.ticket { body := x.job.run })).reports sel k =
      if x.ticket = k then (x.job.run.acts.map (Act.reports sel)).sum else 0 := by
    simp [Task.reports, Task.thread?, Task.author?, Thread.reports]
  have hstarted := promised_of_started sel (w := v) (k := k)
    (u := v.record (.started e x.ticket t source)) e x.ticket (by simp [Occurrence.booking?]) job
  have hsilent : (v.record (.started e x.ticket t source)).heard sel k = w.heard sel k := by
    simp [hheard, Occurrence.isReport]
  rw [hsilent, hnew, hold, hstarted, hpromised]
  by_cases he : x.ticket = k
  · rw [hu x.job (he ▸ by simpa using hx), if_pos he]
    omega
  · rw [if_neg he, if_neg he, Nat.add_zero, Nat.add_zero]

/-- A dispatcher that abandons a job promises what the abandonment reports. -/
theorem Kept.discard (h : w.Kept sel) (hp : w.Papers) {t : TaskId} {e : EpochId} {x : Entry ν}
    {rest : List (Entry ν)} (ht : w.tasks[t]? = some (.dispatcher e (.discarding [])))
    (hb : (w.epoch e).backlog = x :: rest) :
    (((w.modifyEpoch e fun ep => { ep with backlog := rest }).record
      (.abandoned e x.ticket)).setTask t
        (.dispatcher e (.discarding [.callback x.ticket x.job.abandon]))).Kept sel := by
  have grows := (Grows.modifyEpoch w e (fun ep => { ep with backlog := rest }) rfl).trans
    (.record _ (.abandoned e x.ticket))
  refine h.setTask sel grows rfl ht fun k job hu => ?_
  have hx : x ∈ (w.epoch e).entries := by simp [Epoch.entries, hb]
  have hold : (Task.dispatcher e (.discarding []) : Task ν).reports sel k = 0 := by
    simp [Task.reports, Task.thread?, Thread.reports]
  have hnew : (Task.dispatcher e (.discarding [.callback x.ticket x.job.abandon])).reports sel k =
      if x.ticket = k then (x.job.abandon.acts.map (Deed.reports sel)).sum else 0 := by
    simp [Task.reports, Task.thread?, Task.author?, Thread.reports, Layer.reports]
  have habandoned := promised_of_abandoned sel (w := w) (k := k)
    (u := (w.modifyEpoch e fun ep => { ep with backlog := rest }).record
      (.abandoned e x.ticket)) e x.ticket (by simp [Occurrence.booking?]) job
  have hsilent : ((w.modifyEpoch e fun ep => { ep with backlog := rest }).record
      (.abandoned e x.ticket)).heard sel k = w.heard sel k := by
    simp [Occurrence.isReport]
  rw [hsilent, hold, hnew, habandoned]
  by_cases he : x.ticket = k
  · rw [hu x.job (he ▸ grows.mem (hp.stock e x hx)), if_pos he]
    omega
  · rw [if_neg he, if_neg he, Nat.add_zero, Nat.add_zero]

/-- Every elementary change keeps the promises. -/
theorem Change.kept (c : Change w u) (hp : w.Papers) (h : w.Kept sel) : u.Kept sel := by
  have grows := c.grows
  have still := @Kept.setTask_of_same _ sel w h
  cases c with
  | aside ha =>
    intro k job hu hd
    rw [ha.heard sel, promised_congr sel ha.books, unheard, total, ha.tasks, ← total, ← unheard]
    exact h k job (fun job' hj => hu job' (grows.mem hj)) hd
  | posted code =>
    intro k job hu hd
    have hz : (Task.client { body := code : Thread ν }).reports sel k = 0 := by
      simp [Task.reports, Task.thread?, Task.author?, Thread.reports]
    rw [unheard, total_spawn, hz]
    exact h k job hu hd
  | code ht hth hs => exact hs.kept sel ht hth hp h
  | brokenOff ht hl =>
    refine still (.refl w) rfl (fun _ => rfl) (fun _ _ => rfl) ht fun k => ?_
    simp [Task.reports, Task.thread?, Task.author?, Thread.reports, hl]
  | began ht => exact still (.refl w) rfl (fun _ => rfl) (fun _ _ => rfl) ht fun _ => rfl
  | @welcomed t e kind live x ht =>
    refine h.assign sel (.recordAll _ _) (by simp) (fun k => ?_) (fun k job => ?_) ht
      (fun _ => rfl) .seed ?_
    · simp [Occurrence.isReport]
    · simp [promised, Occurrence.booking?, List.filterMap_cons]
    · have hx := ((hp.tasks t _ ht).seed _ _ _ _ rfl).1
      simpa using .inl hx
  | @lost t e kind live x ht =>
    refine still (.recordAll _ _) (by simp) (fun k => ?_) (fun k job => ?_) ht fun _ => rfl
    · simp [Occurrence.isReport]
    · simp [promised, Occurrence.booking?, Booking.starts, Booking.abandons]
  | @claimed t e kind alarm tier x ep ht _ hc =>
    have hclosed := (Epoch.claim_frame hc).1
    exact h.assign sel (.modifyEpoch w e _ hclosed) rfl (fun _ => rfl) (fun _ _ => rfl) ht
      (fun _ => rfl) (.tier tier)
      (hp.stock e x ((Epoch.perm_entries_of_claim hc).mem_iff.2 List.mem_cons_self))
  | @finished t e kind source i th os state ht ho hos hs =>
    have hsilent : ∀ k, os.countP (Occurrence.isReport sel k) = 0 := by
      intro k
      obtain ⟨_, rfl⟩ | ⟨p, _, rfl⟩ := hos
      · rfl
      · simp [Occurrence.isReport]
    have hbooks : os.filterMap Occurrence.booking? = [] := by
      obtain ⟨_, rfl⟩ | ⟨p, _, rfl⟩ := hos
      · rfl
      · simp [Occurrence.booking?, List.filterMap_cons]
    refine still (.recordAll _ _) (by simp) (fun k => ?_) (fun k job => ?_) ht fun k => ?_
    · simp [hsilent, Occurrence.isReport]
    · simp [promised, hbooks, Occurrence.booking?, Booking.starts, Booking.abandons]
    · simp only [Thread.isOver, Bool.and_eq_true, List.isEmpty_iff] at ho
      have hover : (Task.worker e kind (.busy source i th)).reports sel k = 0 := by
        simp [Task.reports, Task.thread?, Thread.reports, ho]
      rw [hover]
      obtain ⟨rfl, _⟩ | ⟨_, rfl, _⟩ | ⟨rfl, _⟩ := hs <;> rfl
  | @quit t e kind state ht hq =>
    refine still (.refl w) rfl (fun _ => rfl) (fun _ _ => rfl) ht fun _ => ?_
    obtain ⟨_, rfl, _⟩ | ⟨rfl, _⟩ := hq <;> rfl
  | left ht => exact still (.refl w) rfl (fun _ => rfl) (fun _ _ => rfl) ht fun _ => rfl
  | retired ht =>
    refine still ((Grows.modifyEpoch w _ _ rfl).trans (.recordAll _ _)) (by simp) (fun k => ?_)
      (fun k job => ?_) ht fun _ => rfl
    · simp [heard, Occurrence.isReport]
    · simp [promised, Occurrence.booking?]
  | dispatching ht => exact still (.refl w) rfl (fun _ => rfl) (fun _ _ => rfl) ht fun _ => rfl
  | @flushed t e ht =>
    refine still ((Grows.modifyEpoch w _ _ (Epoch.flushes_flush _ _).closed).trans
      (.recordAll _ _)) (by simp) (fun k => ?_) (fun k job => ?_) ht fun _ => rfl
    · simp [heard, List.countP_map, Function.comp_def, Occurrence.isReport]
    · simp [promised, List.filterMap_map, Function.comp_def, Occurrence.booking?]
  | woken ht =>
    exact still (.modifyEpoch w _ _ rfl) rfl (fun _ => rfl) (fun _ _ => rfl) ht fun _ => rfl
  | @tookIn t e x intake ht =>
    refine still ((Grows.modifyEpoch w _ _ rfl).trans (.record _ _)) rfl (fun k => ?_)
      (fun k job => ?_) ht fun _ => rfl
    · simp [Occurrence.isReport]
    · simp [promised, Occurrence.booking?]
  | @shut t e state ht hs =>
    refine still (.modifyEpoch w _ _ rfl) rfl (fun _ => rfl) (fun _ _ => rfl) ht fun _ => ?_
    obtain rfl | rfl := hs <;> rfl
  | @collected t e state x intake ht hs =>
    refine still ((Grows.modifyEpoch w _ _ rfl).trans (.record _ _)) rfl (fun k => ?_)
      (fun k job => ?_) ht fun _ => ?_
    · simp [heard, Occurrence.isReport]
    · simp [promised, Occurrence.booking?]
    · obtain rfl | rfl := hs <;> rfl
  | expecting ht => exact still (.refl w) rfl (fun _ => rfl) (fun _ _ => rfl) ht fun _ => rfl
  | discarding ht =>
    refine still (.refl w) rfl (fun _ => rfl) (fun _ _ => rfl) ht fun k => ?_
    simp [Task.reports, Task.thread?, Task.author?, Thread.reports]
  | discarded ht hb => exact h.discard sel hp ht hb
  | dispersed ht =>
    refine still (.refl w) rfl (fun _ => rfl) (fun _ _ => rfl) ht fun k => ?_
    simp [Task.reports, Task.thread?, Task.author?, Thread.reports]

/-- In every state that a pool comes to, jobs have reported or will report what was promised. -/
theorem Evolved.kept {settings : Settings} {hook : Option Hook} (h : Evolved settings hook w) :
    w.Kept sel := by
  induction h with
  | opened =>
    intro k job _ _
    have hz : ({ settings, hook : World ν }.launch).unheard sel k = 0 :=
      total_launch_of_idle (by simp [Task.reports, Task.thread?])
        (by simp [Task.reports, Task.thread?])
    have hbooks : ({ settings, hook : World ν }.launch).books = [] := by
      rw [books_launch]
      rfl
    rw [hz, heard, occurrences_launch, promised, hbooks]
    simp [occurrences, Occurrence.isReport]
  | next h c ih => exact c.kept sel h.papers ih

variable {e : EpochId}

/-- A job that an epoch accepted is run there or nowhere. -/
theorem Ledger.starts_eq (h : w.Ledger) (ha : w.AcceptedBy e k) :
    w.books.countP (·.starts k) = w.books.count (.started e k) := by
  apply List.countP_congr
  intro b hb
  constructor
  · intro hs
    have hk : b.begins k = true := by cases b <;> simp_all [Booking.starts, Booking.begins]
    obtain ⟨i, hi, rfl | rfl⟩ := h.accepted_of_begins hb hk
    · rw [h.accepted_unique ha hi]
      simp
    · cases hs
  · intro hs
    rw [beq_iff_eq.1 hs]
    simp [Booking.starts]

/-- A job that an epoch accepted is abandoned there or nowhere. -/
theorem Ledger.abandons_eq (h : w.Ledger) (ha : w.AcceptedBy e k) :
    w.books.countP (·.abandons k) = w.books.count (.abandoned e k) := by
  apply List.countP_congr
  intro b hb
  constructor
  · intro hs
    have hk : b.begins k = true := by cases b <;> simp_all [Booking.abandons, Booking.begins]
    obtain ⟨i, hi, rfl | rfl⟩ := h.accepted_of_begins hb hk
    · cases hs
    · rw [h.accepted_unique ha hi]
      simp
  · intro hs
    rw [beq_iff_eq.1 hs]
    simp [Booking.abandons]

section Spoken

variable {sel} {n : Nat}

/-- A chosen report is made in the name of one job. -/
theorem sum_isReport {o : Occurrence ν} (h : ∀ k, n ≤ k → o.isReport sel k = false) :
    ((List.range n).map fun k => if o.isReport sel k = true then 1 else 0).sum =
      if o.isSpoken sel = true then 1 else 0 := by
  have silent : (∀ k, o.isReport sel k = false) → o.isSpoken sel = false →
      ((List.range n).map fun k => if o.isReport sel k = true then 1 else 0).sum =
        if o.isSpoken sel = true then 1 else 0 := by
    intro hs hd
    simp [hs, hd]
  cases o with
  | note author r =>
    cases author with
    | none => exact silent (fun k => by simp [Occurrence.isReport]) rfl
    | some a =>
      rw [sum_map_range (i := a) fun j hj => if_neg (by simp [Occurrence.isReport, Ne.symm hj])]
      by_cases ha : a < n
      · rw [if_pos ha]
        exact if_congr (by simp [Occurrence.isReport, Occurrence.isSpoken]) rfl rfl
      · have hr := h a (Nat.not_lt.1 ha)
        simp only [Occurrence.isReport, decide_true, Bool.true_and] at hr
        simp [ha, Occurrence.isSpoken, hr]
  | _ => exact silent (fun k => rfl) rfl

/-- The chosen reports of jobs are those of the jobs one by one. -/
theorem countP_isSpoken {os : List (Occurrence ν)}
    (h : ∀ k, n ≤ k → os.countP (Occurrence.isReport sel k) = 0) :
    os.countP (Occurrence.isSpoken sel) =
      ((List.range n).map fun k => os.countP (Occurrence.isReport sel k)).sum := by
  induction os with
  | nil => simp
  | cons o os ih =>
    simp only [List.countP_cons, Nat.add_eq_zero_iff, ite_eq_right_iff, Nat.one_ne_zero,
      imp_false, Bool.not_eq_true] at h
    simp only [List.countP_cons, List.sum_map_add]
    rw [ih fun k hk => (h k hk).1, sum_isReport fun k hk => (h k hk).2]

end Spoken

end World

end WorkerPool
