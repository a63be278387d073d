import WorkerPool.Proofs.Onward
import WorkerPool.Proofs.Overflow
import WorkerPool.Proofs.Shutdown

/-!
# What a refused submission leaves behind

A submission goes to the epoch that is current when it is made. It is answered by its own step, at
once or after it has waited at the intake of that epoch, and this step either puts the job into one
place of that epoch or gives back the place in line. A submission that is refused leaves nothing
behind: its steps change no queue, no backlog and no count of temporary workers, and its job is
never held, run or abandoned by anyone.
-/

namespace WorkerPool

variable {ν : Type}

namespace Intake

variable {α : Type}

/-- The intake as all but task `t` see it: the job handed over, who waits there besides `t`, the one
that the place is kept for first, and whether it is shut. -/
def without (t : TaskId) (i : Intake α) : Intake α :=
  { i with granted := none, line := (i.granted.toList ++ i.line).filter (· ≠ t) }

variable (t : TaskId) (i : Intake α)

@[simp] theorem without_join : (i.join t).without t = i.without t := by
  simp [without, join]

@[simp] theorem without_leave : (i.leave t).without t = i.without t := by
  have erased : (i.line.erase t).filter (· ≠ t) = i.line.filter (· ≠ t) := by
    rw [← List.erase_filter, List.erase_of_not_mem (by simp)]
  unfold leave
  split
  · rename_i hg
    unfold grantNext
    cases hl : i.line <;> simp [without, hg, hl]
  · simp only [without, List.filter_append, erased]

end Intake

/-- The epoch as all but task `t` see it, but for whether it was stopped: its queues, its count of
temporary workers, its backlog, and its intake without `t`. -/
def Epoch.without (t : TaskId) (ep : Epoch ν) : Epoch ν :=
  { ep with closed := false, intake := ep.intake.without t }

namespace World

variable {w u v x y : World ν} {e : EpochId} {t : TaskId} {k : Nat} {settings : Settings}
  {hook : Option Hook}

/-- Nothing that belongs to anyone but task `t` changes between `w` and `u`: every queue, every
backlog, every count of temporary workers, every intake, and every other task is as it was. -/
structure Traceless (t : TaskId) (w u : World ν) : Prop where
  size : u.epochs.size = w.epochs.size
  epochs : ∀ e, (u.epoch e).without t = (w.epoch e).without t
  tasks : u.tasks.size = w.tasks.size ∧ ∀ i, i ≠ t → u.tasks[i]? = w.tasks[i]?

/-- The pool is neither started nor stopped between `w` and `u`. -/
structure Stays (w u : World ν) : Prop where
  current : u.current = w.current
  closed : ∀ e, (u.epoch e).closed = (w.epoch e).closed

section Frame

theorem Traceless.trans (h : Traceless t w u) (h' : Traceless t u v) : Traceless t w v where
  size := h'.size.trans h.size
  epochs e := (h'.epochs e).trans (h.epochs e)
  tasks := ⟨h'.tasks.1.trans h.tasks.1, fun i hi => (h'.tasks.2 i hi).trans (h.tasks.2 i hi)⟩

theorem Traceless.setTask (h : Traceless t w u) (task : Task ν) :
    Traceless t w (u.setTask t task) where
  size := h.size
  epochs := h.epochs
  tasks := ⟨(u.size_setTask t task).trans h.tasks.1, fun i hi =>
    (getElem?_setTask_of_ne u t task hi).trans (h.tasks.2 i hi)⟩

theorem Traceless.recordAll (h : Traceless t w u) (os : List (Occurrence ν)) :
    Traceless t w (u.recordAll os) where
  size := by simpa using h.size
  epochs := by simpa using h.epochs
  tasks := by simpa using h.tasks

theorem Stays.recordAll (h : Stays w u) (os : List (Occurrence ν)) : Stays w (u.recordAll os) where
  current := by simpa using h.current
  closed := by simpa using h.closed

theorem Stays.setTask (h : Stays w u) (task : Task ν) : Stays w (u.setTask t task) :=
  ⟨h.current, h.closed⟩

theorem Stays.trans (h : Stays w u) (h' : Stays u v) : Stays w v :=
  ⟨h'.current.trans h.current, fun e => (h'.closed e).trans (h.closed e)⟩

/-- A task that joins a line or leaves it changes nothing for the others. -/
theorem traceless_modifyEpoch (w : World ν) (t : TaskId) (e : EpochId)
    {f : Intake (Entry ν) → Intake (Entry ν)} (hf : ∀ i, (f i).without t = i.without t) :
    Traceless t w (w.modifyEpoch e fun ep => { ep with intake := f ep.intake }) where
  size := size_modifyEpoch w e _
  epochs i := modifyEpoch_keeps w e _ (Epoch.without t) (by simp [Epoch.without, hf]) i
  tasks := ⟨rfl, fun _ _ => rfl⟩

theorem stays_modifyEpoch (w : World ν) (e : EpochId) (f : Intake (Entry ν) → Intake (Entry ν)) :
    Stays w (w.modifyEpoch e fun ep => { ep with intake := f ep.intake }) :=
  ⟨rfl, modifyEpoch_keeps w e _ Epoch.closed rfl⟩

/-- Letting go of a handle changes the count of handles, and stops a running pool with the last. -/
theorem Sound.letGo_cases (hw : w.Sound) :
    (∃ handles, w.letGo.2 = { w with handles }) ∨ w.handles = 1 ∧
      ∃ e < w.epochs.size, w.letGo.2 = ({ w with handles := 0 } : World ν).stop e := by
  unfold letGo
  split
  · exact .inl ⟨w.handles, rfl⟩
  · rename_i hone
    let last : World ν := { w with handles := 0 }
    obtain hr | hr := Bool.eq_false_or_eq_true w.running
    · obtain ⟨e, hc, he⟩ := hw.current_of_running hr
      exact .inr ⟨hone, e, he, congrArg Prod.snd (halt_of_running (w := last) hr hc)⟩
    · exact .inl ⟨0, congrArg Prod.snd (halt_of_stopped (w := last) hr)⟩
  · exact .inl ⟨_, rfl⟩

/-- Letting go of a handle may stop the pool, but leaves what is queued, counted and waiting. -/
theorem traceless_letGo (hw : w.Sound) (t : TaskId) : Traceless t w w.letGo.2 := by
  obtain ⟨handles, h⟩ | ⟨_, e, he, h⟩ := hw.letGo_cases
  · rw [h]
    exact ⟨rfl, fun _ => rfl, rfl, fun _ _ => rfl⟩
  · rw [h]
    exact ⟨size_stop _ e, modifyEpoch_keeps w e _ (Epoch.without t) rfl, rfl, fun _ _ => rfl⟩

/-- A handle that is not the last one stops nothing. -/
theorem stays_letGo (hw : w.Sound) (hh : w.handles ≠ 1) : Stays w w.letGo.2 := by
  obtain ⟨handles, h⟩ | ⟨hone, _⟩ := hw.letGo_cases
  · rw [h]
    exact ⟨rfl, fun _ => rfl⟩
  · exact absurd hone hh

/-- Letting go of a handle books nothing. -/
theorem books_letGo (hw : w.Sound) : w.letGo.2.books = w.books := by
  obtain ⟨handles, h⟩ | ⟨_, e, _, h⟩ := hw.letGo_cases
  · rw [h]
    rfl
  · rw [h, books_stop]
    rfl

end Frame

section Bystander

/-- The job of this ticket is nowhere: no epoch has accepted it and no holder has it, it was neither
run nor abandoned, and no code of it has done anything. -/
structure Nowhere (w : World ν) (k : Nat) : Prop where
  places : w.places k = []
  calls : w.calls k = 0
  accepted : ∀ e, ¬ w.AcceptedBy e k
  silent : ∀ o ∈ w.occurrences, o.author? ≠ some k

/-- A job that an epoch holds, or that one of its workers holds, was accepted there. -/
theorem Ledger.acceptedBy_of_holders (h : w.Ledger) (hk : 0 < w.holders e k) :
    w.AcceptedBy e k := by
  have hkept := h.kept e k
  exact List.count_pos_iff.1 (by omega)

/-- Only the code of a job that was accepted does anything. -/
theorem Speaks.exists_acceptedBy (hs : w.Speaks k) (hw : Evolved settings hook w) :
    ∃ e, w.AcceptedBy e k := by
  obtain ⟨ht, hr⟩ | ⟨ht, hth, hm⟩ := hs
  · obtain ⟨kind, source, th, rfl⟩ := Task.running?_eq_some hr
    exact ⟨_, hw.ledger.acceptedBy_of_holders (holders_pos ht rfl)⟩
  · obtain ⟨e, he, _⟩ := hw.drained.callback ht hth hm
    have hbegins : (Booking.abandoned e k).begins k = true := by simp [Booking.begins]
    obtain ⟨i, ha, _⟩ := hw.ledger.accepted_of_begins (mem_books he rfl) hbegins
    exact ⟨i, ha⟩

/-- Whatever was done in the name of a job was done by one that had been accepted. -/
theorem Evolved.exists_acceptedBy (hw : Evolved settings hook w) {o : Occurrence ν}
    (ho : o ∈ w.occurrences) (hk : o.author? = some k) : ∃ e, w.AcceptedBy e k := by
  induction hw with
  | opened =>
    rw [occurrences_launch, List.mem_append, List.mem_pair] at ho
    obtain ho | rfl | rfl := ho
    · cases ho
    · cases hk
    · cases hk
  | @next v u hw c ih =>
    obtain ⟨os, hos, hall⟩ := c.warranted hw.sound
    rw [hos, List.mem_append] at ho
    have accepted : ∃ e, v.AcceptedBy e k := by
      obtain ho | ho := ho
      · exact ih ho
      · exact ((hall o ho).2 k hk).exists_acceptedBy hw
    exact accepted.imp fun e ha => c.grows.acceptedBy ha

/-- A job that no epoch has accepted is nowhere. -/
theorem Evolved.nowhere (hw : Evolved settings hook w) (hk : ∀ e, ¬ w.AcceptedBy e k) :
    w.Nowhere k where
  places := by
    rw [List.eq_nil_iff_forall_not_mem]
    intro p hp
    have hpos : 0 < (w.places k).countP (·.epoch = p.epoch) :=
      List.countP_pos_iff.2 ⟨p, hp, by simp⟩
    have hkept := hw.ledger.kept p.epoch k
    have hcount := List.count_eq_zero.2 (hk p.epoch)
    rw [countP_places] at hpos
    omega
  calls := by
    rw [calls_eq, List.countP_eq_zero]
    intro b hb hbegins
    obtain ⟨e, ha, _⟩ := hw.ledger.accepted_of_begins hb hbegins
    exact hk e ha
  accepted := hk
  silent o ho ha := by
    obtain ⟨e, he⟩ := hw.exists_acceptedBy ho ha
    exact hk e he

/-- A ticket that waits in line, that was refused, or that is not drawn yet is accepted by no one.
-/
theorem Ledger.not_acceptedBy (h : w.Ledger) (hk : 0 < w.waiters k ∨ .refused k ∈ w.books ∨
    w.nextTicket ≤ k) (e : EpochId) : ¬ w.AcceptedBy e k := by
  intro ha
  have haccepts : 0 < w.books.countP (·.accepts k) :=
    List.countP_pos_iff.2 ⟨_, ha, by simp [Booking.accepts]⟩
  have hdrawn := h.drawn k
  rw [← List.count_pos_iff] at hk
  split_ifs at hdrawn <;> omega

/-- The job of a submission that was refused is nowhere ever after. -/
theorem Evolved.nowhere_of_refused (hw : Evolved settings hook w)
    (hr : .refused k ∈ w.occurrences) (r : Run w v) : v.Nowhere k := by
  have later := hw.changes_of_run r
  have hv := hw.changes later
  exact hv.nowhere (hv.ledger.not_acceptedBy (.inr (.inl (mem_books (later.grows.mem hr) rfl))))

/-- A ticket that an epoch has accepted, or that waits in line, was not refused. -/
theorem Ledger.refused_not_mem (h : w.Ledger) (hk : w.AcceptedBy e k ∨ 0 < w.waiters k) :
    .refused k ∉ w.occurrences := by
  intro hr
  have hrefused := List.count_pos_iff.2 (mem_books hr rfl)
  have haccepts : w.AcceptedBy e k → 0 < w.books.countP (·.accepts k) := fun ha =>
    List.countP_pos_iff.2 ⟨_, ha, by simp [Booking.accepts]⟩
  have hdrawn := h.drawn k
  obtain ha | hw := hk
  · have := haccepts ha
    split_ifs at hdrawn <;> omega
  · split_ifs at hdrawn <;> omega

/-- Whoever stands in line with a ticket counts. -/
theorem waiters_pos (h : w.line? t = some (e, k)) : 0 < w.waiters k := by
  obtain ⟨task, ht, hline⟩ := Option.bind_eq_some_iff.1 h
  have hle := le_sum_map (fun task : Task ν => if task.line?.map Prod.snd = some k then 1 else 0)
    (l := w.tasks.toList) (i := t) (by simpa using ht)
  simp only [hline, Option.map_some, if_true] at hle
  exact hle

/-- An intake is shut only once its epoch is closed. -/
theorem Evolved.closed_of_shut (hw : Evolved settings hook w) (hm : w.settings.maxTemps.isSome)
    (hs : (w.epoch e).intake.shut = true) : (w.epoch e).closed = true := by
  have he : e < w.epochs.size := by
    by_contra hle
    rw [epoch_of_size_le w e (Nat.not_lt.1 hle)] at hs
    cases hs
  obtain ⟨t, state, ht⟩ := hw.manned.exists_dispatcher he hm
  have fits := hw.dispatched.fits t e state ht
  cases state <;> simp_all [DispatcherState.Fits]

end Bystander

section Answers

/-- The pool has taken job `x` at once into epoch `e`: into one of its queues, into the hands of a
temporary worker that it hires, or into its intake. -/
inductive Admits (w : World ν) (e : EpochId) (x : Entry ν) : World ν → Prop
  | queued {tier : Tier} {ep : Epoch ν} (h : (w.epoch e).offer w.settings x = .placed tier ep) :
    Admits w e x ((w.modifyEpoch e fun _ => ep).record (.queued e x.ticket tier))
  | hired : Admits w e x (w.hire e x)
  | handedOver : Admits w e x (w.handOver e x)

namespace Admits

variable {job : Entry ν}

/-- That a job was taken is all that is written down. -/
theorem occurrences (h : Admits w e job u) : ∃ o, u.occurrences = w.occurrences ++ [o] := by
  cases h with
  | queued => exact ⟨_, occurrences_record _ _⟩
  | hired => exact ⟨_, by rw [hire, occurrences_spawn, occurrences_record]; rfl⟩
  | handedOver => exact ⟨_, occurrences_record _ _⟩

/-- A job that was taken is booked as accepted. -/
theorem books (h : Admits w e job u) : u.books = w.books ++ [.accepted e job.ticket] := by
  cases h <;> simp [hire, handOver, Occurrence.booking?]

/-- How many hold the pool makes no difference. -/
theorem withHandles (h : Admits w e job u) (n : Nat) :
    Admits { w with handles := n } e job { u with handles := n } := by
  cases h with
  | queued ho => exact .queued ho
  | hired => exact .hired
  | handedOver => exact .handedOver

end Admits

/-- A job that is submitted to a running pool is taken at once, or the submitter joins the line. -/
theorem Sound.submit_of_current (hw : w.Sound) (hc : w.current = some e) (t : TaskId)
    (x : Entry ν) : (∃ u, Admits w e x u ∧ w.submit t x = (.accepted, u)) ∨
      w.settings.maxTemps.isSome ∧ w.submit t x =
        (.waits e, w.modifyEpoch e fun ep => { ep with intake := ep.intake.join t }) := by
  simp only [submit, hc]
  split
  · exact .inl ⟨_, .queued ‹_›, rfl⟩
  · rename_i hoffer
    have hclosed := Epoch.offer_eq_closed.1 hoffer
    rw [hw.current_open e hc] at hclosed
    cases hclosed
  · split
    · exact .inl ⟨_, .hired, rfl⟩
    · rename_i limit hlimit
      split_ifs
      · exact .inl ⟨_, .hired, rfl⟩
      · exact .inl ⟨_, .handedOver, rfl⟩
      · exact .inr ⟨by simp [hlimit], rfl⟩

/-- A submission that gives up its place, reports this and lets go of the pool changes nothing that
belongs to others; unless it held the last handle, the pool is neither started nor stopped. -/
theorem Sound.refusal (hx : x.Sound) (t : TaskId) (e : EpochId) (k : Nat)
    (os : List (Occurrence ν)) (task : Task ν)
    (hy : y = ((x.giveUp t e k).recordAll os).letGo.2.setTask t task) :
    Traceless t x y ∧ (x.handles ≠ 1 → Stays x y) ∧
      x.occurrences ++ .refused k :: os <+: y.occurrences := by
  subst hy
  have gave : Traceless t x ((x.giveUp t e k).recordAll os) :=
    (traceless_modifyEpoch x t e fun i => i.without_leave t).recordAll (.refused k :: os)
  have same : Stays x ((x.giveUp t e k).recordAll os) :=
    (stays_modifyEpoch x e fun i => i.leave t).recordAll (.refused k :: os)
  have sound : ((x.giveUp t e k).recordAll os).Sound :=
    Sound.recordAll ((hx.modifyEpoch e rfl).record _) os
  have handles : ((x.giveUp t e k).recordAll os).handles = x.handles := handles_recordAll _ os
  refine ⟨(gave.trans (traceless_letGo sound t)).setTask task, fun hh => ?_, ?_⟩
  · exact (same.trans (stays_letGo sound (handles ▸ hh))).setTask task
  · simpa [giveUp] using (grows_letGo sound).occurrences

end Answers

/-- Task `t` is about to submit a job to a pool that it holds; it reports one of these answers. -/
structure Submits (w : World ν) (t : TaskId) (task : Task ν) (th : Thread ν) (job : Job ν)
    (accepted refused gone : ν) : Prop where
  found : w.tasks[t]? = some task
  thread : task.thread? = some th
  act : th.act? = some (.ofJob job accepted refused gone)
  fresh : th.wait = .nothing
  held : w.handles ≠ 0

section Call

variable {task : Task ν} {th : Thread ν} {job : Job ν} {accepted refused gone : ν}

/-- Task `t`, which has made its submission as this task with this thread, waits at the intake of
epoch `e` with ticket `k`. -/
def WaitsAt (x : World ν) (t : TaskId) (task : Task ν) (th : Thread ν) (e : EpochId) (k : Nat) :
    Prop :=
  x.tasks[t]? = some (task.withThread { th with wait := .inLine e k })

namespace Submits

variable (c : w.Submits t task th job accepted refused gone)

include c

/-- A submission is made by a body, while it has nothing else to do first. -/
theorem acts : th.layers = [] ∧
    ∃ rest, th.body.acts = .submit job.run job.abandon accepted refused gone :: rest := by
  obtain ⟨hl, rest, ha⟩ | ⟨_, _, _, _, _, _, h⟩ := Thread.act?_eq_some c.act
  · exact ⟨hl, rest, ha⟩
  · cases h

/-- The code of the task is what is put into it. -/
theorem thread?_withThread (th' : Thread ν) : (task.withThread th').thread? = some th' := by
  obtain ⟨-, rest, ha⟩ := c.acts
  exact thread?_withThread_of_acts c.thread (by simp [ha]) th'

/-- The first step of a submission makes it. -/
theorem step_eq : w.step t =
    (w.stepAct t task.author? th
      (.submit job.run job.abandon accepted refused gone)).2.setTask t (task.withThread
        (w.stepAct t task.author? th (.submit job.run job.abandon accepted refused gone)).1) := by
  obtain ⟨hl, rest, ha⟩ := c.acts
  exact step_of_body c.found c.thread hl ha (by simp [bodyReady, c.fresh, ha])

/-- A submission to a stopped pool draws a ticket, is refused, and reports that; nothing else
happens. -/
theorem step_of_stopped (hc : w.current = none) :
    w.step t = (({ w with nextTicket := w.nextTicket + 1 } : World ν).recordAll
      [.submitted w.nextTicket job, .refused w.nextTicket,
        .note task.author? refused]).setTask t (task.withThread th.next) := by
  obtain ⟨hl, -⟩ := c.acts
  let pool : World ν := ({ w with handles := w.handles + 1 } : World ν).draw job
  have answer : pool.submit t ⟨w.nextTicket, job⟩ =
      (.refused, pool.record (.refused w.nextTicket)) := by
    simp [submit, pool, hc]
  have acts := stepAct_submit (a := task.author?) accepted refused gone (by rw [c.fresh]; rfl)
    c.held answer (.inr (.inl ⟨rfl, rfl⟩))
  rw [c.step_eq, acts]
  have done := conclude_of_held ((w.draw job).record (.refused w.nextTicket)) c.held task.author? hl
    refused
  exact congrArg (fun r : Thread ν × World ν => r.2.setTask t (task.withThread r.1)) done

/-- A submission to a pool that runs is taken at once by the current epoch, and the task reports
that it was accepted; or the task joins the line at the intake of this epoch. -/
theorem step_of_current (hw : w.Sound) (hc : w.current = some e) :
    (∃ u, Admits (w.draw job) e ⟨w.nextTicket, job⟩ u ∧
      w.step t = (u.record (.note task.author? accepted)).setTask t (task.withThread th.next)) ∨
    w.settings.maxTemps.isSome ∧ w.step t =
      ((({ w with handles := w.handles + 1 } : World ν).draw job).modifyEpoch e fun ep =>
        { ep with intake := ep.intake.join t }).setTask t
          (task.withThread { th with wait := .inLine e w.nextTicket }) := by
  obtain ⟨hl, -⟩ := c.acts
  have sound : (({ w with handles := w.handles + 1 } : World ν).draw job).Sound :=
    (hw.aside (.hold w c.held)).draw job
  obtain ⟨u, hu, hs⟩ | ⟨hm, hs⟩ := sound.submit_of_current (e := e) hc t ⟨w.nextTicket, job⟩
  · -- The handle that the call took is let go of again.
    have acts := stepAct_submit (a := task.author?) accepted refused gone (by rw [c.fresh]; rfl)
      c.held hs (.inl ⟨rfl, rfl⟩)
    have hhandles : u.handles = w.handles + 1 := by
      have hkept := handles_submit (w := ({ w with handles := w.handles + 1 } : World ν).draw job)
        (t := t) ⟨w.nextTicket, job⟩
      rwa [hs] at hkept
    have done := conclude_of_held { u with handles := w.handles } c.held task.author? hl accepted
    rw [show ({ u with handles := w.handles + 1 } : World ν) = u by rw [← hhandles]] at done
    refine .inl ⟨{ u with handles := w.handles }, hu.withHandles w.handles, ?_⟩
    rw [c.step_eq, acts, done]
  · have acts := stepAct_submit (a := task.author?) accepted refused gone (by rw [c.fresh]; rfl)
      c.held hs (.inr (.inr ⟨e, rfl, rfl⟩))
    rw [c.step_eq, acts]
    exact .inr ⟨hm, rfl⟩

/-- A submission to a pool that runs is booked as accepted by the current epoch, and the task
reports that; or the task joins the line at the intake of this epoch. -/
theorem step_of_running (hw : w.Sound) (hc : w.current = some e) :
    ((∃ os, w.occurrences ++ .submitted w.nextTicket job :: os ++
        [.note task.author? accepted] = (w.step t).occurrences) ∧
      (w.step t).books = w.books ++ [.submitted w.nextTicket, .accepted e w.nextTicket]) ∨
    w.settings.maxTemps.isSome ∧ w.step t =
      ((({ w with handles := w.handles + 1 } : World ν).draw job).modifyEpoch e fun ep =>
        { ep with intake := ep.intake.join t }).setTask t
          (task.withThread { th with wait := .inLine e w.nextTicket }) := by
  obtain ⟨u, hu, hstep⟩ | hwaits := c.step_of_current hw hc
  · obtain ⟨o, ho⟩ := hu.occurrences
    rw [hstep, occurrences_setTask, occurrences_record, ho, occurrences_draw]
    exact .inl ⟨⟨[o], by simp⟩, by simp [hu.books, Occurrence.booking?]⟩
  · exact .inr hwaits

/-- The first step of a submission draws a ticket for its job. -/
theorem submitted_mem (hw : w.Sound) : .submitted w.nextTicket job ∈ (w.step t).occurrences := by
  cases hc : w.current with
  | none =>
    rw [c.step_of_stopped hc, occurrences_setTask, occurrences_recordAll]
    simp
  | some e =>
    obtain ⟨⟨os, hos⟩, -⟩ | ⟨-, hstep⟩ := c.step_of_running hw hc
    · rw [← hos]
      simp
    · rw [hstep, occurrences_setTask, occurrences_modifyEpoch, occurrences_draw]
      simp

section Wait

variable (hwait : x.WaitsAt t task th e k)

include hwait

/-- Whoever waits stands in line. -/
theorem line? : x.line? t = some (e, k) := by
  have hline : (task.withThread { th with wait := .inLine e k }).line? = some (e, k) := by
    simp [Task.line?, c.thread?_withThread, Wait.line?]
  simpa [World.line?, WaitsAt, hline] using congrArg (Option.bind · Task.line?) hwait

/-- A submission whose epoch has ended while it waited is refused by its next step. -/
theorem step_of_closed (hr : (x.epoch e).closed = true ∨ (x.epoch e).intake.shut = true) :
    x.step t = ((x.giveUp t e k).recordAll [.note task.author? refused]).letGo.2.setTask t
      (task.withThread ((x.giveUp t e k).conclude task.author?
        { th with wait := .inLine e k } refused).1) := by
  obtain ⟨hl, rest, ha⟩ := c.acts
  have ready : x.bodyReady t { th with wait := .inLine e k } = true := by
    obtain hr | hr := hr <;> simp [bodyReady, hr]
  rw [step_of_body hwait (c.thread?_withThread _) hl ha ready]
  have acts : x.stepAct t task.author? { th with wait := .inLine e k }
      (.submit job.run job.abandon accepted refused gone) =
        (x.giveUp t e k).conclude task.author? { th with wait := .inLine e k } refused := by
    obtain hr | hr := hr <;> simp [stepAct, submitGranted, hr]
  simp only [author?_withThread, withThread_withThread, acts]
  rfl

/-- A submission that has been granted the place hands its job over by its next step. -/
theorem step_of_granted (hx : x.Sound) (hc : (x.epoch e).closed = false)
    (hs : (x.epoch e).intake.shut = false) (hg : (x.epoch e).intake.granted = some t) :
    (x.step t).books = x.books ++ [.accepted e k] ∧
      x.occurrences ++ [.handedOver e k] ++ [.note task.author? accepted] <+:
        (x.step t).occurrences := by
  obtain ⟨hl, rest, ha⟩ := c.acts
  have ready : x.bodyReady t { th with wait := .inLine e k } = true := by
    simp [bodyReady, Intake.isGrantedTo, hg]
  rw [step_of_body hwait (c.thread?_withThread _) hl ha ready]
  have acts : x.stepAct t task.author? { th with wait := .inLine e k }
      (.submit job.run job.abandon accepted refused gone) =
        (x.handOver e ⟨k, job⟩).conclude task.author? { th with wait := .inLine e k }
          accepted := by
    simp [stepAct, submitGranted, hc, hs]
  have sound : ((x.handOver e ⟨k, job⟩).record (.note task.author? accepted)).Sound :=
    Sound.record ((hx.modifyEpoch e rfl).record _) _
  simp only [author?_withThread, withThread_withThread, acts, books_setTask, occurrences_setTask]
  constructor
  · rw [conclude, books_letGo sound]
    simp [handOver, Occurrence.booking?]
  · rw [conclude]
    simpa [handOver] using (grows_letGo sound).occurrences

/-- While a submission waits, a move leaves it alone, or is its own next step, or is its client that
breaks it off. -/
theorem move (hx : x.Sound) (m : Move x u) : u.WaitsAt t task th e k ∨
    (u = x.step t ∧ ((x.epoch e).closed = true ∨ (x.epoch e).intake.shut = true)) ∨
    (u = x.step t ∧ (x.epoch e).closed = false ∧ (x.epoch e).intake.shut = false ∧
      (x.epoch e).intake.granted = some t) ∨
    u = x.withdraw t ∧ task = .client th := by
  have hlt : t < x.tasks.size := (Array.getElem?_eq_some_iff.1 hwait).1
  obtain hsame | rfl | rfl := m.getElem?_tasks hx hlt
  · exact .inl (hsame.trans hwait)
  · cases hr : x.ready t with
    | false =>
      rw [step_of_not_ready x t hr]
      exact .inl hwait
    | true =>
      obtain ⟨hl, rest, ha⟩ := c.acts
      have ready := threadReady_of_ready hwait (c.thread?_withThread _)
        (by simp [Thread.isOver, ha]) hr
      simp only [threadReady, bodyReady, hl, List.isEmpty_nil, Bool.not_true, Bool.false_or,
        Bool.or_eq_true, Intake.isGrantedTo, beq_iff_eq] at ready
      cases hc : (x.epoch e).closed with
      | true => exact .inr (.inl ⟨rfl, .inl rfl⟩)
      | false =>
        cases hs : (x.epoch e).intake.shut with
        | true => exact .inr (.inl ⟨rfl, .inr rfl⟩)
        | false => exact .inr (.inr (.inl ⟨rfl, rfl, rfl, by simpa [hc, hs] using ready⟩))
  · have hfound := hwait
    rw [WaitsAt] at hfound
    obtain ⟨_, _, _, _, rfl⟩ | ⟨_, _, rfl, rfl⟩ | rfl := Task.thread?_eq_some c.thread
    · have same : x.withdraw t = x := by simp [withdraw, hfound, Task.withThread]
      rw [same]
      exact .inl hwait
    · obtain ⟨-, rest, ha⟩ := c.acts
      cases ha
    · exact .inr (.inr (.inr ⟨rfl, rfl⟩))

/-- A client that breaks its submission off gives up its place and lets go of the pool. -/
theorem withdraw_of_client (hclient : task = .client th) :
    x.withdraw t = ((x.giveUp t e k).recordAll []).letGo.2.setTask t
      (.client { layers := (x.giveUp t e k).letGo.1, body := ⟨[], .ok ()⟩ }) := by
  obtain ⟨hl, -⟩ := c.acts
  subst hclient
  have hfound := hwait
  rw [WaitsAt, Task.withThread, hl] at hfound
  simp only [withdraw, hfound, recordAll_nil]

end Wait

end Submits

/-- The submission that task `t` makes in `w` has joined the line at the intake of epoch `e`, which
was current, and has changed nothing else by that; in `x` it waits there. -/
structure Queues (w x : World ν) (t : TaskId) (task : Task ν) (th : Thread ν) (e : EpochId) :
    Prop where
  current : w.current = some e
  traceless : Traceless t w (w.step t)
  stays : Stays w (w.step t)
  run : Run (w.step t) x
  waits : x.WaitsAt t task th e w.nextTicket

/-- The submission that task `t` makes in `w` waits in `v`, and its job is nowhere. Once the epoch
of its line is closed its next step refuses it. -/
structure Undecided (w v : World ν) (t : TaskId) (task : Task ν) (th : Thread ν) (e : EpochId)
    (refused : ν) : Prop where
  queues : Queues w v t task th e
  nowhere : v.Nowhere w.nextTicket
  unanswered : .refused w.nextTicket ∉ v.occurrences
  turned : (v.epoch e).closed = true → v.ready t = true ∧
    v.occurrences ++ [.refused w.nextTicket, .note task.author? refused] <+: (v.step t).occurrences

/-- The submission that task `t` makes in `w` is accepted in `x`, at once or after it has waited. -/
structure AcceptedAt (w x v : World ν) (t : TaskId) (task : Task ν) (th : Thread ν) (e : EpochId)
    (accepted : ν) : Prop where
  asked : x = w ∨ Queues w x t task th e
  /-- It is accepted by the epoch that was current when it was made, and while that is current. -/
  current : w.current = some e ∧ x.current = some e
  before : x.Nowhere w.nextTicket
  told : ∃ os, x.occurrences ++ os ++ [.note task.author? accepted] <+: (x.step t).occurrences
  /-- Its job is then in one place, which belongs to that epoch. -/
  placed : ∃ p, (x.step t).places w.nextTicket = [p] ∧ p.epoch = e
  after : Run (x.step t) v
  /-- No other epoch ever accepts it, and it is never refused. -/
  only : ∀ i, v.AcceptedBy i w.nextTicket ↔ i = e
  kept : .refused w.nextTicket ∉ v.occurrences

/-- The submission that task `t` makes in `w` is refused by the move from `x` to `y`. -/
structure RefusedAt (w x y v : World ν) (t : TaskId) (task : Task ν) (th : Thread ν)
    (refused : ν) : Prop where
  /-- The pool was stopped before, or the epoch was closed while it waited, or its client has broken
  it off. -/
  stopped : x = w ∧ w.current = none ∨
    ∃ e, Queues w x t task th e ∧ ((x.epoch e).closed = true ∨ y = x.withdraw t)
  told : (y = x.step t ∧ ∃ os, x.occurrences ++ os ++
      [.refused w.nextTicket, .note task.author? refused] <+: y.occurrences) ∨
    y = x.withdraw t ∧ task = .client th ∧
      x.occurrences ++ [.refused w.nextTicket] <+: y.occurrences
  traceless : Traceless t x y
  /-- The pool is stopped by that only if the call has held the last handle. -/
  stays : x = w ∨ x.handles ≠ 1 → Stays x y
  after : Run y v
  nowhere : v.Nowhere w.nextTicket

namespace Submits

variable (c : w.Submits t task th job accepted refused gone)

include c

/-- The job of a submission is in one place once an epoch has accepted it. -/
theorem acceptedAt (hx : Evolved settings hook x) (asked : x = w ∨ Queues w x t task th e)
    (current : w.current = some e ∧ x.current = some e) {bs : List Booking}
    (hbooks : (x.step t).books = x.books ++ bs) (hb : .accepted e w.nextTicket ∈ bs)
    (hlost : .lost e w.nextTicket ∉ bs)
    (told : ∃ os, x.occurrences ++ os ++ [.note task.author? accepted] <+: (x.step t).occurrences)
    (r : Run (x.step t) v) : AcceptedAt w x v t task th e accepted := by
  have hstep := hx.changes ((Move.step x t).changes hx.sound)
  have later := hstep.changes_of_run r
  have before : ∀ i, ¬ x.AcceptedBy i w.nextTicket := by
    refine hx.ledger.not_acceptedBy ?_
    obtain rfl | hq := asked
    · exact .inr (.inr le_rfl)
    · exact .inl (waiters_pos (c.line? hq.waits))
  have ha : (x.step t).AcceptedBy e w.nextTicket := by
    rw [AcceptedBy, hbooks]
    exact List.mem_append_right _ hb
  have placed := (hstep.ledger.places_of_accepted ha).resolve_right fun hlost' => by
    obtain ⟨_, hl⟩ := hlost'
    rw [hbooks, List.mem_append] at hl
    have hkept := hx.ledger.kept e w.nextTicket
    have hzero := List.count_eq_zero.2 (before e)
    obtain hl | hl := hl
    · have := List.count_pos_iff.2 hl
      omega
    · exact hlost hl
  have hv := hstep.changes later
  have hav := later.grows.acceptedBy ha
  exact ⟨asked, current, hx.nowhere before, told, placed, r,
    fun i => ⟨fun hi => hv.ledger.accepted_unique hav hi, fun hi => hi ▸ hav⟩,
    hv.ledger.refused_not_mem (.inl hav)⟩

/-- A submission that waited is refused by its next step or broken off by its client. -/
theorem refusedAt (hx : Evolved settings hook x) (hq : Queues w x t task th e)
    (stopped : (x.epoch e).closed = true ∨ y = x.withdraw t) (os : List (Occurrence ν))
    (other : Task ν)
    (hy : y = ((x.giveUp t e w.nextTicket).recordAll os).letGo.2.setTask t other)
    (told : y = x.step t ∧ os = [.note task.author? refused] ∨
      y = x.withdraw t ∧ task = .client th ∧ os = [])
    (hv : Evolved settings hook y) (r : Run y v) : RefusedAt w x y v t task th refused := by
  obtain ⟨traceless, stays, hgrown⟩ := hx.sound.refusal t e w.nextTicket os other hy
  refine ⟨.inr ⟨e, hq, stopped⟩, ?_, traceless, fun hh => ?_, r,
    hv.nowhere_of_refused (hgrown.subset (by simp)) r⟩
  · obtain ⟨hstep, rfl⟩ | ⟨hwithdraw, hclient, rfl⟩ := told
    · exact .inl ⟨hstep, [], by simpa using hgrown⟩
    · exact .inr ⟨hwithdraw, hclient, hgrown⟩
  · obtain rfl | hh := hh
    · have hwait := congrArg (Option.bind · Task.thread?) (c.found.symm.trans hq.waits)
      simp only [Option.bind_some, c.thread, c.thread?_withThread, Option.some.injEq] at hwait
      have hfresh := c.fresh
      rw [hwait] at hfresh
      cases hfresh
    · exact stays hh

/-- A submission that waits has changed nothing, and its job is nowhere. -/
theorem undecided (hv : Evolved settings hook v) (hq : Queues w v t task th e) :
    Undecided w v t task th e refused where
  queues := hq
  nowhere := hv.nowhere (hv.ledger.not_acceptedBy (.inl (waiters_pos (c.line? hq.waits))))
  unanswered := hv.ledger.refused_not_mem (e := e) (.inr (waiters_pos (c.line? hq.waits)))
  turned hc := ⟨ready_of_line? hv.sound (c.line? hq.waits) (.inl hc),
    (hv.sound.refusal t e w.nextTicket _ _ (c.step_of_closed hq.waits (.inl hc))).2.2⟩

/-- A submission that joins the line waits on, or a move has decided it: its next step, once its
epoch has ended or it has been granted the place, or its client that breaks it off. -/
theorem waits_or_decided (hw : Evolved settings hook w) (hq : Queues w (w.step t) t task th e)
    (r : Run (w.step t) v) : Queues w v t task th e ∨ ∃ x y, Queues w x t task th e ∧ Run y v ∧
      ((y = x.step t ∧ ((x.epoch e).closed = true ∨ (x.epoch e).intake.shut = true)) ∨
        (y = x.step t ∧ (x.epoch e).closed = false ∧ (x.epoch e).intake.shut = false ∧
          (x.epoch e).intake.granted = some t) ∨
        y = x.withdraw t ∧ task = .client th) := by
  have hfirst := hw.changes ((Move.step w t).changes hw.sound)
  induction r with
  | refl => exact .inl hq
  | @tail v u r m ih =>
    obtain hv | ⟨x, y, hx, on, decided⟩ := ih
    · have sound := (hfirst.changes (hfirst.changes_of_run r)).sound
      obtain hu | decided := c.move hv.waits sound m
      · exact .inl { hv with run := r.tail m, waits := hu }
      · exact .inr ⟨v, u, hv, .refl u, decided⟩
    · exact .inr ⟨x, y, hx, on.tail m, decided⟩

/-- A submission to a stopped pool is refused at once. -/
theorem refusedAt_of_stopped (hw : Evolved settings hook w) (hc : w.current = none)
    (r : Run (w.step t) v) : RefusedAt w w (w.step t) v t task th refused := by
  have hstep := c.step_of_stopped hc
  have hgrown : w.occurrences ++ [.submitted w.nextTicket job] ++
      [.refused w.nextTicket, .note task.author? refused] <+: (w.step t).occurrences := by
    rw [hstep, occurrences_setTask, occurrences_recordAll, List.append_assoc]
    exact List.prefix_rfl
  refine ⟨.inl ⟨rfl, hc⟩, .inl ⟨rfl, _, hgrown⟩, ?_, fun _ => ?_, r,
    (hw.changes ((Move.step w t).changes hw.sound)).nowhere_of_refused
      (hgrown.subset (by simp)) r⟩
  · rw [hstep]
    have same : Traceless t w { w with nextTicket := w.nextTicket + 1 } :=
      ⟨rfl, fun _ => rfl, rfl, fun _ _ => rfl⟩
    exact (same.recordAll _).setTask _
  · rw [hstep]
    have same : Stays w { w with nextTicket := w.nextTicket + 1 } := ⟨rfl, fun _ => rfl⟩
    exact (same.recordAll _).setTask _

/-- A submission that joins the line changes nothing that belongs to others. -/
theorem queues (hc : w.current = some e) (hstep : w.step t =
    ((({ w with handles := w.handles + 1 } : World ν).draw job).modifyEpoch e fun ep =>
      { ep with intake := ep.intake.join t }).setTask t
        (task.withThread { th with wait := .inLine e w.nextTicket })) :
    Queues w (w.step t) t task th e := by
  let pool : World ν := ({ w with handles := w.handles + 1 } : World ν).draw job
  have hlt : t < w.tasks.size := (Array.getElem?_eq_some_iff.1 c.found).1
  have traceless : Traceless t w pool := ⟨rfl, fun _ => rfl, rfl, fun _ _ => rfl⟩
  have stays : Stays w pool := ⟨rfl, fun _ => rfl⟩
  refine ⟨hc, ?_, ?_, .refl _, ?_⟩
  · rw [hstep]
    exact (traceless.trans
      (traceless_modifyEpoch pool t e fun i => i.without_join t)).setTask _
  · rw [hstep]
    exact (stays.trans (stays_modifyEpoch pool e fun i => i.join t)).setTask _
  · rw [hstep]
    exact getElem?_setTask_self _ _ _ hlt

/-- A submission to a pool that runs waits for the current epoch, or that has accepted it, or it was
refused. -/
theorem sequel_of_running (hw : Evolved settings hook w) (hc : w.current = some e)
    (r : Run (w.step t) v) : Undecided w v t task th e refused ∨
      (∃ x, AcceptedAt w x v t task th e accepted) ∨
        ∃ x y, RefusedAt w x y v t task th refused := by
  obtain ⟨⟨os, hos⟩, hbooks⟩ | ⟨hm, hstep⟩ := c.step_of_running hw.sound hc
  · exact .inr (.inl ⟨w, c.acceptedAt hw (.inl rfl) ⟨hc, hc⟩ hbooks (by simp) (by simp)
      ⟨_, [], (List.append_nil _).trans hos⟩ r⟩)
  · have hfirst := hw.changes ((Move.step w t).changes hw.sound)
    obtain hq | ⟨x, y, hq, on, decided⟩ := c.waits_or_decided hw (c.queues hc hstep) r
    · exact .inl (c.undecided (hfirst.changes (hfirst.changes_of_run r)) hq)
    · have hx := hfirst.changes (hfirst.changes_of_run hq.run)
      have hm : x.settings.maxTemps.isSome := by rwa [hx.same.1, ← hw.same.1]
      obtain ⟨rfl, hended⟩ | ⟨rfl, hopen, hshut, hgranted⟩ | ⟨rfl, hclient⟩ := decided
      · have hclosed := hended.elim id (hx.closed_of_shut hm)
        exact .inr (.inr ⟨x, _, c.refusedAt hx hq (.inl hclosed) _ _
          (c.step_of_closed hq.waits hended) (.inl ⟨rfl, rfl⟩)
          (hx.changes ((Move.step x t).changes hx.sound)) on⟩)
      · obtain ⟨hbooks, hgrown⟩ := c.step_of_granted hq.waits hx.sound hopen hshut hgranted
        have he : e < x.epochs.size := ((hx.sound.tasks t _ hq.waits).thread _
          (c.thread?_withThread _)).line_lt e w.nextTicket rfl
        exact .inr (.inl ⟨x, c.acceptedAt hx (.inr hq) ⟨hc, hx.sound.open_current e he hopen⟩
          hbooks (by simp) (by simp) ⟨_, hgrown⟩ on⟩)
      · exact .inr (.inr ⟨x, _, c.refusedAt hx hq (.inr rfl) _ _
          (c.withdraw_of_client hq.waits hclient) (.inr ⟨rfl, hclient, rfl⟩)
          (hx.changes ((Move.withdraw x t).changes hx.sound)) on⟩)

end Submits

end Call

/-- The call of a client that submits one job to do nothing. -/
def submitsOne : Thread Nat := { body := submits 1 ⟨[], .ok ()⟩ }

/-- A tight pool with a job in each queue and one in the intake. One client is about to submit a
fourth job, another to stop the pool and to start it again. -/
def jammed : World Nat :=
  (([2, 2, 2].foldl step (({ settings := tight : World Nat }.launch).spawn
    (.client { body := submits 3 ⟨[], .ok ()⟩ }))).spawn (.client submitsOne)).spawn
      (.client { body := ⟨[.deed .stop, .deed .start], .ok ()⟩ })

theorem jammed_reachable : Reachable tight none jammed :=
  (((Reachable.launch none ⟨by decide, by decide, by decide, by decide⟩).call _ [2, 2, 2]).call
    _ []).call _ []

/-- The same pool after the fourth job joined the line, the pool was stopped and started, and the
client that waits had its turn. -/
def restarted : World Nat := (List.replicate 7 4 ++ [3]).foldl step (jammed.step 3)

/-- The same jobs are queued and buffered in two epochs, and they have as many temporary workers. -/
structure SameStock (ep ep' : Epoch ν) : Prop where
  primary : ep.primary.map (·.job) = ep'.primary.map (·.job)
  temp : ep.temp.map (·.job) = ep'.temp.map (·.job)
  backlog : ep.backlog.map (·.job) = ep'.backlog.map (·.job)
  temps : ep.temps = ep'.temps

end World

end WorkerPool
