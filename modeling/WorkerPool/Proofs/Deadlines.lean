import WorkerPool.Proofs.Clock
import WorkerPool.Proofs.Overflow
import WorkerPool.Proofs.Rest
import WorkerPool.Proofs.Settling
import WorkerPool.Proofs.Shutdown

/-!
# How long a shutdown takes

On a virtual clock time passes only while nobody can go on, so all that a pool does by itself takes
no time at all. What keeps a shutdown waiting are the jobs that workers held when it was called: it
returns in the very millisecond in which the last of them ends, or at its deadline if one of them
has not ended by then. There are two exceptions. A shutdown without any time to wait looks only
once, and may find workers that have nothing to do and have not left yet. And if the place at the
intake was kept for a submitter, the dispatcher may have looked for its job before that submitter is
turned away; then it never leaves, and the shutdown waits for it in vain.
-/

namespace WorkerPool

variable {ν : Type}

/-- The job that an occurrence is the end of: it was finished, or lost with its worker. -/
def Occurrence.ends? : Occurrence ν → Option (EpochId × Nat)
  | finished e k _ => some (e, k)
  | lost e k _ => some (e, k)
  | _ => none

namespace World

variable {w u v x : World ν} {e : EpochId} {t : TaskId} {k : Nat} {settings : Settings}
  {hook : Option Hook}

section Held

/-- A worker of epoch `e` holds the job of this ticket: it runs it, or was hired for it. -/
def Holds (w : World ν) (e : EpochId) (k : Nat) : Prop :=
  ∃ (t : TaskId) (task : Task ν), w.tasks[t]? = some task ∧ task.held? = some (e, k)

/-- The job of this ticket came to its end in a worker of epoch `e`, in this millisecond. -/
def EndsAt (w : World ν) (e : EpochId) (k c : Nat) : Prop :=
  ∃ s ∈ w.journal, s.clock = c ∧ s.what.ends? = some (e, k)

/-- The end of a job can be looked up in the journal. -/
theorem endsAt_of_any {c : Nat}
    (h : (w.journal.any fun s => s.clock == c && s.what.ends? == some (e, k)) = true) :
    w.EndsAt e k c := by
  obtain ⟨i, hi, hs⟩ := Array.any_eq_true.1 h
  simp only [Bool.and_eq_true, beq_iff_eq] at hs
  exact ⟨w.journal[i], Array.getElem_mem hi, hs⟩

/-- What ends a job is booked as that. -/
theorem EndsAt.mem_books {c : Nat} (h : w.EndsAt e k c) :
    .finished e k ∈ w.books ∨ .lost e k ∈ w.books := by
  obtain ⟨⟨_, o⟩, hs, -, hk⟩ := h
  have hm : o ∈ w.occurrences := List.mem_map.2 ⟨_, Array.mem_toList_iff.2 hs, rfl⟩
  cases o <;> simp only [Occurrence.ends?, reduceCtorEq, Option.some.injEq, Prod.mk.injEq] at hk
  · obtain ⟨rfl, rfl⟩ := hk
    exact .inl (World.mem_books hm rfl)
  · obtain ⟨rfl, rfl⟩ := hk
    exact .inr (World.mem_books hm rfl)

/-- A job that is held has not come to its end. -/
theorem Ledger.not_endsAt (h : w.Ledger) (hk : w.Holds e k) (c : Nat) : ¬ w.EndsAt e k c := by
  intro hc
  obtain ⟨t, task, ht, hheld⟩ := hk
  have held := holders_pos ht hheld
  have kept := h.kept e k
  have once : w.books.count (.accepted e k) ≤ 1 := by
    by_cases ha : w.AcceptedBy e k
    · exact (h.count_accepted ha e).le.trans (by simp)
    · exact (List.count_eq_zero.2 ha).le.trans (Nat.zero_le 1)
  have ended : 0 < w.books.count (.finished e k) ∨ 0 < w.books.count (.lost e k) :=
    hc.mem_books.imp List.count_pos_iff.2 List.count_pos_iff.2
  omega

/-- A worker that holds a job goes on holding it, or the job has come to its end. -/
theorem Change.holds (c : Change w u) (h : w.Holds e k) :
    u.Holds e k ∨ ∃ o ∈ u.occurrences, o.ends? = some (e, k) := by
  obtain ⟨t, task, ht, hheld⟩ := h
  obtain ⟨kind, live, x, rfl, rfl⟩ | ⟨kind, source, th, rfl⟩ := Task.held?_eq_some hheld
  · obtain ⟨state, cs, hu, _, turn⟩ := c.turn ht
    cases turn with
    | still => exact .inl ⟨t, _, hu, rfl⟩
    | joins => exact .inl ⟨t, _, hu, rfl⟩
    | fails _ hl => exact .inr ⟨_, hl, rfl⟩
    | quits hq => simp at hq
  · obtain ⟨state, cs, hu, _, turn⟩ := c.turn ht
    cases turn with
    | still => exact .inl ⟨t, _, hu, rfl⟩
    | works => exact .inl ⟨t, _, hu, rfl⟩
    | finishes _ hf => exact .inr ⟨_, hf, rfl⟩
    | quits hq => simp at hq

/-- Nobody takes a job of a closed epoch who did not hold it before. -/
theorem Change.holds_of_closed (c : Change w u) (hw : w.Sound) (hc : (w.epoch e).closed = true)
    (h : u.Holds e k) : w.Holds e k := by
  obtain ⟨t, task, ht, hheld⟩ := h
  have hworker : ∃ kind state, task = .worker e kind state := by
    obtain ⟨kind, _, _, rfl, _⟩ | ⟨kind, _, _, rfl⟩ := Task.held?_eq_some hheld <;>
      exact ⟨kind, _, rfl⟩
  obtain ⟨kind, state, rfl⟩ := hworker
  cases hold : w.tasks[t]? with
  | none =>
    cases c.hired_of_new ht hold with
    | crew => cases hheld
    | seed hcurrent => exact absurd ((hw.current_open e hcurrent).symm.trans hc) (by decide)
  | some old =>
    obtain ⟨task', hu, hrole⟩ := c.role_eq hold
    obtain rfl := Option.some.inj (ht.symm.trans hu)
    obtain ⟨before, rfl⟩ := Task.role_eq_worker.1 hrole.symm
    obtain ⟨state', cs, hu, _, turn⟩ := c.turn hold
    obtain ⟨-, -, rfl⟩ := Task.worker.inj (Option.some.inj (ht.symm.trans hu))
    cases turn with
    | still => exact ⟨t, _, hold, hheld⟩
    | joins => exact ⟨t, _, hold, hheld⟩
    | works => exact ⟨t, _, hold, hheld⟩
    | claims ho => exact absurd (ho.symm.trans hc) (by decide)
    | finishes _ _ _ hs =>
      obtain ⟨rfl, _⟩ | ⟨_, rfl, _⟩ | ⟨rfl, _⟩ := hs <;> cases hheld
    | _ => cases hheld

/-- Along changes a job stays held until it has come to its end. -/
theorem Changes.holds (h : Changes w v) (hk : w.Holds e k) :
    v.Holds e k ∨ ∃ o ∈ v.occurrences, o.ends? = some (e, k) := by
  induction h with
  | refl => exact .inl hk
  | tail _ c ih =>
    obtain held | ⟨o, ho, hend⟩ := ih
    · exact c.holds held
    · exact .inr ⟨o, c.grows.mem ho, hend⟩

/-- Whatever is held in an epoch that was closed was held when it was. -/
theorem Changes.holds_of_closed (h : Changes w v) (hw : w.Sound) (hc : (w.epoch e).closed = true)
    (hk : v.Holds e k) : w.Holds e k := by
  induction h with
  | refl => exact hk
  | @tail v u before c ih =>
    have closed := (Changes.grows before).closed e (lt_of_closed hc) hc
    exact ih (c.holds_of_closed (Changes.sound before hw) closed hk)

/-- An end is not forgotten. -/
theorem PunctualRun.endsAt {c : Nat} (r : PunctualRun w v) (h : w.EndsAt e k c) :
    v.EndsAt e k c := by
  obtain ⟨s, hs, hend⟩ := h
  obtain ⟨_, later, hj, _⟩ := r.journal
  refine ⟨s, Array.mem_toList_iff.1 ?_, hend⟩
  rw [hj]
  exact List.mem_append_left _ (Array.mem_toList_iff.2 hs)

/-- An end that is new in `v` is not earlier than `w`, nor later than `v`. -/
theorem PunctualRun.endsAt_cases {c : Nat} (r : PunctualRun w v) (h : v.EndsAt e k c) :
    w.EndsAt e k c ∨ w.clock ≤ c ∧ c ≤ v.clock := by
  obtain ⟨s, hs, rfl, hend⟩ := h
  obtain ⟨_, later, hj, hall⟩ := r.journal
  have hm := Array.mem_toList_iff.2 hs
  rw [hj] at hm
  obtain hold | hnew := List.mem_append.1 hm
  · exact .inl ⟨s, Array.mem_toList_iff.1 hold, rfl, hend⟩
  · exact .inr (hall _ hnew)

/-- A job that was held at `w` is still held in a later state `v`, or it came to its end in
between. -/
theorem Evolved.holds_or_endsAt (hw : Evolved settings hook w) (r : PunctualRun w v)
    (hk : w.Holds e k) : v.Holds e k ∨ ∃ c, w.clock ≤ c ∧ c ≤ v.clock ∧ v.EndsAt e k c := by
  refine (Changes.holds (hw.changes_of_run r.run) hk).imp_right ?_
  rintro ⟨o, ho, hend⟩
  obtain ⟨s, hs, rfl⟩ := List.mem_map.1 ho
  have hc : v.EndsAt e k s.clock := ⟨s, Array.mem_toList_iff.1 hs, rfl, hend⟩
  obtain ⟨hle, hle'⟩ := (r.endsAt_cases hc).resolve_left (hw.ledger.not_endsAt hk s.clock)
  exact ⟨s.clock, hle, hle', hc⟩

/-- What keeps a task of a closed epoch from leaving, once nobody can go on, is a job, or it is a
dispatcher that expects one. -/
theorem Settled.holds_or_expects (h : w.Settled) (hc : (w.epoch e).closed = true)
    (hd : w.deserted e = false) :
    (∃ k, w.Holds e k) ∨ ∃ t : TaskId, w.tasks[t]? = some (.dispatcher e .expecting) := by
  have still : w.StillOutside e := fun t _ _ _ => h t
  by_contra hneither
  obtain ⟨hnone, hawake⟩ := not_or.1 hneither
  suffices hd' : w.deserted e = true by simp [hd] at hd'
  refine deserted_of_forall fun t task ht hh => ?_
  have settled := h t
  rcases task with ⟨home, kind, state⟩ | ⟨home, state⟩ | th
  · obtain rfl : home = e := Option.some.inj hh
    cases state with
    | busy source k th => exact absurd ⟨k, t, _, ht, rfl⟩ hnone
    | gone crashed => rfl
    | idle alarm => simp [ready, ht, hc] at settled
    | _ => simp [ready, ht] at settled
  · obtain rfl : home = e := Option.some.inj hh
    obtain rfl | rfl := still.dispatcher hc ht
    · rfl
    · exact absurd ⟨t, ht⟩ hawake
  · cases hh

end Held

section Wait

/-- Millisecond `c` comes before this time from `w` is over. -/
def Within (w : World ν) (time : Duration) (c : Nat) : Prop :=
  1000000 * c < 1000000 * w.clock + time.nanos

/-- A clock that counts milliseconds sees the end of a time in the first one that is not before
it. -/
theorem within_iff {time : Duration} {c : Nat} :
    w.Within time c ↔ c < w.clock + time.ceilMillis := by
  unfold Within Duration.ceilMillis
  omega

theorem Within.of_le {time : Duration} {c d : Nat} (h : w.Within time d) (hle : c ≤ d) :
    w.Within time c := by
  unfold Within at h ⊢
  omega

/-- A deadline that the clock can show. -/
theorem deadline_eq {time : Duration} (h : (w.deadline? time).isSome) (hc : v.clock = w.clock) :
    v.deadline time = w.clock + time.ceilMillis := by
  have shown : w.deadline? time = some (w.clock + time.ceilMillis) := by
    unfold deadline? at h ⊢
    split_ifs at h ⊢
    · exact Eq.refl _
    · cases h
  rw [deadline, deadline?_congr hc, shown, Option.getD_some]

/-- A pool with a current epoch is held by somebody. -/
theorem Evolved.handles_ne_zero (hw : Evolved settings hook w) (hc : w.current = some e) :
    w.handles ≠ 0 := by
  intro hz
  have hr := hw.stopped_of_released hz
  rw [hw.sound.running_eq, hc] at hr
  cases hr

variable {task : Task ν} {th : Thread ν} {timeout : Duration} {done late gone : ν}

/-- Task `t` is inside of the shutdown of epoch `e` that it called at `w`, with this code: it works
off what is queued there, which takes no time, or it waits for the tasks of the epoch. -/
def Awaits (w v : World ν) (e : EpochId) (t : TaskId) (task : Task ν) (th : Thread ν)
    (timeout : Duration) : Prop :=
  ∃ th', v.tasks[t]? = some (task.withThread th') ∧ th'.body = th.body ∧
    (th'.wait = .closing e ∧ v.clock = w.clock ∨
      th'.layers = [] ∧ th'.wait = .exits e (w.clock + timeout.ceilMillis))

/-- The next step of task `t` is the return, too late, of the shutdown with which it closed epoch
`e`: it logs that this time is over and answers so. -/
def ReturnsLate (v : World ν) (e : EpochId) (t : TaskId) (timeout : Duration) : Prop :=
  ∃ task th done late gone, v.tasks[t]? = some task ∧ task.thread? = some th ∧
    th.act? = some (.shutdown timeout done late gone) ∧
      (th.wait = .closing e ∨ ∃ deadline, th.wait = .exits e deadline) ∧
        v.occurrences ++ [.log none (.shutdownTimedOut timeout), .note task.author? late] <+:
          (v.step t).occurrences

/-- A shutdown whose time is over returns late if it finds tasks of its epoch left. -/
theorem returnsLate_of_passed (hv : v.Sound) (ht : v.tasks[t]? = some task)
    (hth : task.thread? = some th) (hact : th.act? = some (.shutdown timeout done late gone))
    (hwait : th.wait = .closing e ∧ v.deadline timeout ≤ v.clock ∨
      ∃ deadline ≤ v.clock, th.wait = .exits e deadline)
    (hd : v.deserted e = false) : v.ReturnsLate e t timeout := by
  obtain ⟨hl, rest, ha⟩ := Thread.acts_of_shutdown hact
  have hready : v.bodyReady t th = true := by
    obtain ⟨hwait, _⟩ | ⟨deadline, hpassed, hwait⟩ := hwait <;> simp [bodyReady, *]
  have hlate :=
    occurrences_conclude (hv.record (.log none (.shutdownTimedOut timeout))) task.author? th late
  rw [occurrences_record, List.append_assoc] at hlate
  refine ⟨task, th, done, late, gone, ht, hth, hact,
    hwait.imp And.left (Exists.imp fun _ => And.right), ?_⟩
  rw [step_of_body ht hth hl ha hready, occurrences_setTask]
  obtain ⟨hwait, hpassed⟩ | ⟨deadline, hpassed, hwait⟩ := hwait <;>
    simpa only [stepAct, hwait, awaitExits, hd, Bool.false_eq_true, if_false, hpassed, if_true,
      World.log, List.singleton_append] using hlate

section Step

variable (hth : task.thread? = some th) (hact : th.act? = some (.shutdown timeout done late gone))

include hth hact

/-- The code that waits is there, and it has come to the shutdown. -/
theorem Awaits.exists_thread (h : Awaits w v e t task th timeout) :
    ∃ th', v.tasks[t]? = some (task.withThread th') ∧ (task.withThread th').thread? = some th' ∧
      (∃ rest, th'.body.acts = .shutdown timeout done late gone :: rest) ∧ th'.body = th.body ∧
        (th'.wait = .closing e ∧ v.clock = w.clock ∨
          th'.layers = [] ∧ th'.wait = .exits e (w.clock + timeout.ceilMillis)) := by
  obtain ⟨th', ht, hbody, hwait⟩ := h
  obtain ⟨-, rest, ha⟩ := Thread.acts_of_shutdown hact
  exact ⟨th', ht, thread?_withThread_of_acts hth (by simp [ha]) th', ⟨rest, hbody ▸ ha⟩, hbody,
    hwait⟩

/-- A shutdown that cannot go on has drained its epoch and waits for tasks that are not over. -/
theorem Awaits.of_not_ready (h : Awaits w v e t task th timeout) (hr : v.ready t = false) :
    v.deserted e = false ∧ v.clock < w.clock + timeout.ceilMillis := by
  obtain ⟨th', ht, hth', ⟨rest, ha⟩, -, hwait⟩ := h.exists_thread hth hact
  have ho : th'.isOver = false := by simp [Thread.isOver, ha]
  have still : v.threadReady t th' = false := by
    by_contra hready
    exact absurd (step_of_thread ht hth' (by simpa using hready) ho).1 (by simp [hr])
  obtain ⟨hwait, -⟩ | ⟨-, hwait⟩ := hwait
  · simp [threadReady, bodyReady, hwait] at still
  · simp only [threadReady, bodyReady, hwait, Bool.or_eq_false_iff,
      decide_eq_false_iff_not] at still
    exact ⟨still.2.1, Nat.not_le.1 still.2.2⟩

/-- The next step of a shutdown brings it closer to its return, or it is the return. -/
theorem Awaits.step (h : Awaits w v e t task th timeout) (hv : v.Sound)
    (hd : (w.deadline? timeout).isSome) :
    Awaits w (v.step t) e t task th timeout ∨ v.ReturnsOk e t ∨
      v.ReturnsLate e t timeout ∧ v.deserted e = false ∧
        w.clock + timeout.ceilMillis ≤ v.clock := by
  obtain ⟨th', ht, hth', ⟨rest, ha⟩, hbody, hwait⟩ := h.exists_thread hth hact
  have hlt : t < v.tasks.size := (Array.getElem?_eq_some_iff.1 ht).1
  by_cases hl : th'.layers = []
  · have hact' : th'.act? = some (.shutdown timeout done late gone) := by
      simp [Thread.act?, hl, ha]
    have hwaits : th'.wait = .closing e ∨ ∃ deadline, th'.wait = .exits e deadline :=
      hwait.imp And.left fun hexits => ⟨_, hexits.2⟩
    by_cases hdeserted : v.deserted e = true
    · exact .inr (.inl (returnsOk_of_deserted hv ht hth' hact' hwaits hdeserted))
    by_cases hlate : w.clock + timeout.ceilMillis ≤ v.clock
    · refine .inr (.inr ⟨returnsLate_of_passed hv ht hth' hact' ?_ (by simpa using hdeserted),
        by simpa using hdeserted, hlate⟩)
      exact hwait.imp (fun ⟨hwait, hclock⟩ => ⟨hwait, (deadline_eq hd hclock).le.trans hlate⟩)
        fun ⟨_, hwait⟩ => ⟨_, hlate, hwait⟩
    by_cases hready : v.ready t = true
    · have hr : v.bodyReady t th' = true := by
        simpa [threadReady, hl] using
          threadReady_of_ready ht hth' (Thread.isOver_of_act? hact') hready
      have hawait :
          v.stepAct t (task.withThread th').author? th' (.shutdown timeout done late gone) =
          ({ th' with wait := .exits e (w.clock + timeout.ceilMillis) }, v) := by
        obtain ⟨hwait, hclock⟩ | ⟨-, hwait⟩ := hwait <;> simp only [stepAct, hwait]
        · rw [deadline_eq hd hclock, awaitExits, if_neg hdeserted, if_neg hlate]
        · rw [awaitExits, if_neg hdeserted, if_neg hlate]
      refine .inl ⟨{ th' with wait := .exits e (w.clock + timeout.ceilMillis) }, ?_, hbody,
        .inr ⟨hl, rfl⟩⟩
      rw [step_of_body ht hth' hl ha hr, hawait, getElem?_setTask_self _ _ _ hlt,
        withThread_withThread]
    · rw [step_of_not_ready v t (by simpa using hready)]
      exact .inl h
  · obtain ⟨hready, hstep⟩ := step_of_layers ht hth' hl
    obtain ⟨hwait, hclock⟩ | ⟨hnil, -⟩ := hwait
    · refine .inl ⟨{ th' with layers := (v.stepLayers th'.layers).1 }, ?_, hbody,
        .inl ⟨hwait, (v.dated_step t).clock.trans hclock⟩⟩
      have shifts := shifts_stepLayers (t := t) (a := none) th' hv
      rw [hstep, withThread_withThread,
        getElem?_setTask_self _ _ _ (Nat.lt_of_lt_of_le hlt shifts.grows.tasks)]
    · exact absurd hnil hl

/-- Nobody but its own task takes a shutdown further, and nobody but a client that called it breaks
it off. -/
theorem Awaits.punctual (h : Awaits w v e t task th timeout) (hv : v.Sound) (m : Punctual v u) :
    Awaits w u e t task th timeout ∨ u = v.step t ∨
      u = v.withdraw t ∧ ∃ code, v.tasks[t]? = some (.client code) := by
  obtain ⟨th', ht, hth', ⟨rest, ha⟩, hbody, hwait⟩ := h.exists_thread hth hact
  have hlt : t < v.tasks.size := (Array.getElem?_eq_some_iff.1 ht).1
  obtain same | rfl | rfl := m.1.getElem?_tasks hv hlt
  · refine .inl ⟨th', same ▸ ht, hbody, hwait.imp_left fun ⟨hwait, hclock⟩ => ⟨hwait, ?_⟩⟩
    by_contra hpassed
    have settled := m.2 (by
      obtain hdated | ⟨time, hle, rfl⟩ := m.1.dated
      · exact absurd (hdated.clock.trans hclock) hpassed
      · exact Nat.lt_of_le_of_ne hle fun heq => hpassed (heq ▸ hclock))
    have hready := (step_of_thread ht hth' (by simp [threadReady, bodyReady, hwait])
      (by simp [Thread.isOver, ha])).1
    exact absurd hready (by simp [settled t])
  · exact .inr (.inl rfl)
  · by_cases hclient : ∃ code, v.tasks[t]? = some (.client code)
    · exact .inr (.inr ⟨rfl, hclient⟩)
    · have hsame : v.withdraw t = v := by
        unfold withdraw
        split
        · rename_i hcode
          exact absurd ⟨_, hcode⟩ hclient
        · rfl
      rw [hsame]
      exact .inl h

end Step

/-- The place at the intake of epoch `e` was kept for a submitter at `w`, and the dispatcher of the
epoch expects a job at `v`. -/
def Oversleeps (w v : World ν) (e : EpochId) : Prop :=
  (w.epoch e).intake.granted ≠ none ∧
    ∃ t : TaskId, v.tasks[t]? = some (.dispatcher e .expecting)

/-- The epoch still has to end a job that was held when the shutdown was called, or no time has
passed since, or the dispatcher of the epoch has overslept. -/
def Detained (w v : World ν) (e : EpochId) : Prop :=
  v.clock = w.clock ∨ (∃ k, w.Holds e k ∧ ∀ c, v.EndsAt e k c → v.clock ≤ c) ∨ Oversleeps w v e

/-- In state `x` on the way to `v` the shutdown returned in time: all jobs that were held when it
was called had ended, the last of them in that very millisecond; if none was held, no time had
passed. -/
structure InTimeAt (w x v : World ν) (e : EpochId) (t : TaskId) (task : Task ν) (th : Thread ν)
    (timeout : Duration) : Prop where
  before : PunctualRun (w.step t) x
  waits : Awaits w x e t task th timeout
  returns : x.ReturnsOk e t
  after : PunctualRun (x.step t) v
  ended : ∀ k, w.Holds e k → ∃ c, w.clock ≤ c ∧ c ≤ x.clock ∧ x.EndsAt e k c
  last : (∀ k, ¬ w.Holds e k) ∧ x.clock = w.clock ∨ ∃ k, w.Holds e k ∧ x.EndsAt e k x.clock

/-- In state `x` on the way to `v` the shutdown returned late: its time was over, and a job that was
held when it was called did not end before; or it was given no time, and found tasks of the epoch
that were not over; or the dispatcher had overslept. -/
structure TimedOutAt (w x v : World ν) (e : EpochId) (t : TaskId) (task : Task ν) (th : Thread ν)
    (timeout : Duration) : Prop where
  before : PunctualRun (w.step t) x
  waits : Awaits w x e t task th timeout
  returns : x.ReturnsLate e t timeout
  after : PunctualRun (x.step t) v
  late : ¬ w.Within timeout x.clock
  why : (∃ k, w.Holds e k ∧ ∀ c, v.EndsAt e k c → ¬ w.Within timeout c) ∨
    timeout.nanos = 0 ∧ x.clock = w.clock ∧ x.deserted e = false ∨ Oversleeps w x e

/-- In state `x` on the way to `v` the client that had called the shutdown broke it off. -/
structure DroppedAt (w x v : World ν) (e : EpochId) (t : TaskId) (task : Task ν) (th : Thread ν)
    (timeout : Duration) : Prop where
  before : PunctualRun (w.step t) x
  waits : Awaits w x e t task th timeout
  client : ∃ code, x.tasks[t]? = some (.client code)
  after : PunctualRun (x.withdraw t) v

/-- What may have become of a shutdown that task `t` called at `w`, in a later state `v`. -/
inductive Sequel (w v : World ν) (e : EpochId) (t : TaskId) (task : Task ν) (th : Thread ν)
    (timeout : Duration) : Prop
  /-- It goes on. -/
  | underWay (waits : Awaits w v e t task th timeout) (detained : Detained w v e)
  | inTime {x : World ν} (h : InTimeAt w x v e t task th timeout)
  | timedOut {x : World ν} (h : TimedOutAt w x v e t task th timeout)
  | dropped {x : World ν} (h : DroppedAt w x v e t task th timeout)

/-- A shutdown that returns in time does so in the millisecond in which the last job ended. -/
theorem Detained.inTimeAt (hw : Evolved settings hook w) (r : PunctualRun (w.step t) v)
    (h : Awaits w v e t task th timeout) (hdet : Detained w v e) (returns : v.ReturnsOk e t) :
    InTimeAt w v (v.step t) e t task th timeout := by
  have whole : PunctualRun w v := .head (.step w t) r
  have hv := hw.changes (hw.changes_of_run whole.run)
  have ended (k : Nat) (hk : w.Holds e k) : ∃ c, w.clock ≤ c ∧ c ≤ v.clock ∧ v.EndsAt e k c := by
    refine (hw.holds_or_endsAt whole hk).resolve_left ?_
    rintro ⟨i, other, hi, hheld⟩
    have := holders_pos hi hheld
    rw [holders_of_deserted (returns.deserted hv.sound)] at this
    exact absurd this (Nat.lt_irrefl 0)
  refine ⟨r, h, returns, .refl, ended, ?_⟩
  obtain hstart | ⟨k, hk, hends⟩ | ⟨_, i, hi⟩ := hdet
  · by_cases hnone : ∃ k, w.Holds e k
    · obtain ⟨k, hk⟩ := hnone
      obtain ⟨c, hle, hle', hend⟩ := ended k hk
      obtain rfl : c = v.clock := Nat.le_antisymm hle' (hstart.le.trans hle)
      exact .inr ⟨k, hk, hend⟩
    · exact .inl ⟨fun k hk => hnone ⟨k, hk⟩, hstart⟩
  · obtain ⟨c, _, hle, hend⟩ := ended k hk
    obtain rfl : c = v.clock := Nat.le_antisymm hle (hends c hend)
    exact .inr ⟨k, hk, hend⟩
  · have hover := isOver_of_deserted (returns.deserted hv.sound) hi rfl
    cases hover

/-- A shutdown that returns late was kept waiting by a job, unless it was given no time or the
dispatcher has overslept. -/
theorem Detained.timedOutAt (r : PunctualRun (w.step t) v) (h : Awaits w v e t task th timeout)
    (hdet : Detained w v e) (returns : v.ReturnsLate e t timeout) (hnot : v.deserted e = false)
    (hlate : w.clock + timeout.ceilMillis ≤ v.clock) :
    TimedOutAt w v (v.step t) e t task th timeout := by
  have late : ¬ w.Within timeout v.clock := fun h => absurd hlate (Nat.not_le.2 (within_iff.1 h))
  refine ⟨r, h, returns, .refl, late, ?_⟩
  obtain hstart | ⟨k, hk, hends⟩ | hsleeps := hdet
  · exact .inr (.inl ⟨Duration.ceilMillis_eq_zero.1 (by omega), hstart, hnot⟩)
  · refine .inl ⟨k, hk, fun c hend hin => late (hin.of_le ?_)⟩
    obtain hold | ⟨hle, _⟩ := PunctualRun.endsAt_cases (.single (.step v t)) hend
    · exact hends c hold
    · exact hle
  · exact .inr (.inr hsleeps)

/-- A dispatcher that has overslept does not wake. -/
theorem Oversleeps.later (h : Oversleeps w v e) (hv : Evolved settings hook v) (r : Run v u) :
    Oversleeps w u e :=
  ⟨h.1, h.2.imp fun _ hi => hv.expecting (hv.changes_of_run r) hi⟩

/-- What ends later does not end before the time was over. -/
theorem TimedOutAt.punctual (h : TimedOutAt w x v e t task th timeout) (m : Punctual v u) :
    TimedOutAt w x u e t task th timeout := by
  refine ⟨h.before, h.waits, h.returns, h.after.tail m, h.late, h.why.imp_left ?_⟩
  rintro ⟨k, hk, hends⟩
  refine ⟨k, hk, fun c hend => ?_⟩
  obtain hold | ⟨hle, _⟩ := PunctualRun.endsAt_cases (.single m) hend
  · exact hends c hold
  · have hle' : x.clock ≤ v.clock :=
      (x.dated_step t).clock.symm.le.trans (PunctualRun.journal h.after).1
    exact fun hin => h.late (hin.of_le (hle'.trans hle))

section Call

variable (hw : Evolved settings hook w) (hc : w.current = some e) (ht : w.tasks[t]? = some task)
  (hth : task.thread? = some th) (hact : th.act? = some (.shutdown timeout done late gone))
  (hwait : th.wait = .nothing) (hd : (w.deadline? timeout).isSome)

include hw hc ht hth hact hwait

/-- A shutdown that was called drains its epoch, which is closed by now, and no worker holds another
job than before. -/
theorem awaits_of_shutdown : Awaits w (w.step t) e t task th timeout ∧
    ((w.step t).epoch e).closed = true ∧ ∀ k, (w.step t).Holds e k → w.Holds e k := by
  have hlt : t < w.tasks.size := (Array.getElem?_eq_some_iff.1 ht).1
  have hstep := step_of_retiring hw.sound ht hth hact hwait hc (hw.handles_ne_zero hc)
  refine ⟨⟨{ th with layers := [.drain e 0], wait := .closing e }, ?_, rfl,
    .inl ⟨rfl, (w.dated_step t).clock⟩⟩, ?_, ?_⟩
  · rw [hstep]
    exact getElem?_setTask_self _ _ _ hlt
  · rw [hstep, epoch_setTask, epoch_stop_self]
    exact hw.sound.current_lt e hc
  · rintro k ⟨i, other, hi, hheld⟩
    rw [hstep] at hi
    obtain ⟨rfl, rfl⟩ | ⟨_, hi⟩ := getElem?_setTask_cases hi
    · exact ⟨i, task, ht, by simpa using hheld⟩
    · exact ⟨i, other, hi, hheld⟩

/-- If the dispatcher has come to expect a job since the shutdown was called, the place at the
intake was kept for a submitter then. -/
theorem oversleeps_of_expecting (r : Run (w.step t) v) {i : TaskId}
    (hi : v.tasks[i]? = some (.dispatcher e .expecting)) : Oversleeps w v e := by
  have hclosed := (awaits_of_shutdown hw hc ht hth hact hwait).2.1
  have hopen := hw.sound.current_open e hc
  have hfirst := hw.changes ((Move.step w t).changes hw.sound)
  obtain ⟨_, _, _, closes⟩ := (Move.step w t).closes hw.sound hw.orderly hopen hclosed
  obtain ⟨hgranted, _⟩ := closes.looked hfirst hw.dispatched hopen hclosed r hi
  rw [step_of_retiring hw.sound ht hth hact hwait hc (hw.handles_ne_zero hc), epoch_setTask,
    epoch_stop_self { w with handles := w.handles + 1 } e (hw.sound.current_lt e hc)] at hgranted
  exact ⟨hgranted, i, hi⟩

/-- Time passes only while a job that was held when the shutdown was called has not ended, or once
the dispatcher has overslept. -/
theorem Detained.punctual (r : PunctualRun (w.step t) v) (m : Punctual v u)
    (h : Awaits w v e t task th timeout) (hdet : Detained w v e) : Detained w u e := by
  obtain ⟨-, hclosed, hheld⟩ := awaits_of_shutdown hw hc ht hth hact hwait
  have hfirst := hw.changes ((Move.step w t).changes hw.sound)
  have later := hfirst.changes_of_run r.run
  have hv := hfirst.changes later
  have single : PunctualRun v u := .single m
  have asleep (h : Oversleeps w v e) : Detained w u e := .inr (.inr (h.later hv single.run))
  by_cases hpassed : v.clock < u.clock
  · have settled := m.2 hpassed
    have hnot := (h.of_not_ready hth hact (settled t)).1
    obtain ⟨k, hk⟩ | ⟨i, hi⟩ := settled.holds_or_expects
      ((Changes.grows later).closed e (lt_of_closed hclosed) hclosed) hnot
    swap
    · exact asleep (oversleeps_of_expecting hw hc ht hth hact hwait r.run hi)
    refine .inr (.inl ⟨k, hheld k (Changes.holds_of_closed later hfirst.sound hclosed hk),
      fun c hend => ?_⟩)
    have hu : u = { v with clock := u.clock } := by
      obtain hdated | ⟨time, _, rfl⟩ := m.1.dated
      · exact absurd hdated.clock (Nat.ne_of_gt hpassed)
      · rfl
    rw [hu] at hend
    exact absurd hend (hv.ledger.not_endsAt hk c)
  · have hsame : u.clock = v.clock := Nat.le_antisymm (Nat.not_lt.1 hpassed) single.journal.1
    obtain hstart | ⟨k, hk, hends⟩ | hsleeps := hdet
    · exact .inl (hsame.trans hstart)
    · refine .inr (.inl ⟨k, hk, fun c hend => ?_⟩)
      obtain hold | ⟨hle, _⟩ := single.endsAt_cases hend
      · exact hsame.le.trans (hends c hold)
      · exact hsame.le.trans hle
    · exact asleep hsleeps

/-- What becomes of a shutdown, move by move. -/
theorem sequel_of_shutdown (hd : (w.deadline? timeout).isSome) (r : PunctualRun (w.step t) v) :
    Sequel w v e t task th timeout := by
  have hfirst := hw.changes ((Move.step w t).changes hw.sound)
  induction r with
  | refl =>
    exact .underWay (awaits_of_shutdown hw hc ht hth hact hwait).1 (.inl (w.dated_step t).clock)
  | @tail v u before m ih =>
    have hv := hfirst.changes (hfirst.changes_of_run (PunctualRun.run before))
    cases ih with
    | underWay waits detained =>
      have detained' := Detained.punctual hw hc ht hth hact hwait before m waits detained
      obtain waits' | rfl | ⟨rfl, client⟩ := waits.punctual hth hact hv.sound m
      · exact .underWay waits' detained'
      · obtain waits' | returns | ⟨returns, hnot, hlate⟩ := waits.step hth hact hv.sound hd
        · exact .underWay waits' detained'
        · exact .inTime (detained.inTimeAt hw before waits returns)
        · exact .timedOut (detained.timedOutAt before waits returns hnot hlate)
      · exact .dropped ⟨before, waits, client, .refl⟩
    | inTime h => exact .inTime { h with after := h.after.tail m }
    | timedOut h => exact .timedOut (h.punctual m)
    | dropped h => exact .dropped { h with after := h.after.tail m }

/-- A shutdown that has some time, of a pool whose jobs all ended in that time, has returned as soon
as nobody can go on, unless the dispatcher has overslept. -/
theorem inTime_of_settled (hd : (w.deadline? timeout).isSome) (r : PunctualRun (w.step t) v)
    (hs : v.Settled) (hpos : timeout.nanos ≠ 0)
    (hends : ∀ k, w.Holds e k → ∃ c, w.Within timeout c ∧ v.EndsAt e k c) :
    (∃ x, InTimeAt w x v e t task th timeout) ∨ (∃ x, DroppedAt w x v e t task th timeout) ∨
      Oversleeps w v e := by
  have hfirst := hw.changes ((Move.step w t).changes hw.sound)
  have later := hfirst.changes_of_run r.run
  have hv := hfirst.changes later
  cases sequel_of_shutdown hw hc ht hth hact hwait hd r with
  | underWay waits _ =>
    obtain ⟨-, hclosed, hheld⟩ := awaits_of_shutdown hw hc ht hth hact hwait
    obtain ⟨k, hk⟩ | ⟨i, hi⟩ := hs.holds_or_expects
      ((Changes.grows later).closed e (lt_of_closed hclosed) hclosed)
      (waits.of_not_ready hth hact (hs t)).1
    · obtain ⟨c, _, hend⟩ :=
        hends k (hheld k (Changes.holds_of_closed later hfirst.sound hclosed hk))
      exact absurd hend (hv.ledger.not_endsAt hk c)
    · exact .inr (.inr (oversleeps_of_expecting hw hc ht hth hact hwait r.run hi))
  | inTime h => exact .inl ⟨_, h⟩
  | timedOut h =>
    obtain ⟨k, hk, hlate⟩ | ⟨hzero, _⟩ | hsleeps := h.why
    · obtain ⟨c, hin, hend⟩ := hends k hk
      exact absurd hin (hlate c hend)
    · exact absurd hzero hpos
    · have before := hfirst.changes (hfirst.changes_of_run (PunctualRun.run h.before))
      exact .inr (.inr (hsleeps.later before
        ((Run.single (.step _ t)).trans (PunctualRun.run h.after))))
  | dropped h => exact .inr (.inl ⟨_, h⟩)

end Call

/-- The call of a client that shuts the pool down. -/
def shutsDown (timeout : Duration) : Thread Nat :=
  { body := ⟨[.shutdown timeout 3 4 5], .ok ()⟩ }

/-- A narrow pool whose worker has begun and waits for work. A client is about to shut it down and
gives it no time. -/
def hasty : World Nat :=
  [0].foldl step (({ settings := narrow : World Nat }.launch).spawn (.client (shutsDown .zero)))

/-- A narrow pool whose worker has begun a job that takes five milliseconds. A client is about to
shut it down and gives it ten. -/
def dozing : World Nat :=
  [1, 0, 0, 0].foldl step ((({ settings := narrow : World Nat }.launch).spawn
    (.client
      { body := ⟨[.submit ⟨[.sleep (.ofMillis 5)], .ok ()⟩ ⟨[], .ok ()⟩ 0 1 2], .ok ()⟩ })).spawn
        (.client (shutsDown (.ofMillis 10))))

/-- The same pool once the client waits for the worker. -/
def asleep : World Nat := [2, 2].foldl step (dozing.step 2)

/-- The same pool as the job ends. -/
def awake : World Nat := [0, 0].foldl step { asleep with clock := 5 }

/-- A tight pool in which the place at the intake is kept for a client. Another one is about to shut
the pool down and gives it ten milliseconds. -/
def besieged : World Nat := crowdedBy (shutsDown (.ofMillis 10)).body

/-- The same pool once the one job that was running has ended, at once, and nobody can go on: its
dispatcher looked for a job before the client was turned away. -/
def drowsy : World Nat :=
  let left := ([1, 1] ++ List.replicate 6 5 ++ [3, 4]).foldl step (besieged.step 5)
  (List.replicate 5 0).foldl step { left with gates := left.gates.add 0 1 }

/-- The same pool ten milliseconds later, once the client has looked at its time. -/
def expired : World Nat := ({ drowsy with clock := 10 } : World Nat).step 5

end Wait

end World

end WorkerPool
