import WorkerPool.Proofs.Announcements
import WorkerPool.Proofs.Calls
import WorkerPool.Proofs.Load.Course
import WorkerPool.Proofs.Outcomes
import WorkerPool.Proofs.Shutdown

/-!
# The driver of a load run

Nobody but the driver calls the pool of a load run, and its tasks leave the pool alone. So wherever
the driver stands, what clients have written is what it has submitted so far, in order, and at most
one call is under way.
-/

namespace WorkerPool

open World

namespace LoadPlan

variable (p : LoadPlan)

section Jobs

variable (n : Nat)

/-- The outcome of task `n`, if it is run. -/
def outcome : Outcome Nat String := p.handler.outcome n

/-- A task panics on purpose if it is one of those that do, and otherwise fails on purpose if it is
one of those. -/
theorem outcome_eq : p.outcome n =
    if isEvery n p.panicEvery then
      .error (.panicked ("task " ++ Nat.repr n ++ " panicked on purpose"))
    else if isEvery n p.failEvery then
      .error (.failed ("task " ++ Nat.repr n ++ " failed on purpose"))
    else .ok n := by
  unfold outcome Handler.outcome handler
  dsimp only
  cases p.taskDuration.isZero <;> split_ifs <;> rfl

/-- Running a task takes its time and reports its outcome. -/
theorem acts_run_job : (p.job n).run.acts =
    (if p.taskDuration.isZero then [] else [.sleep p.taskDuration]) ++
      [.deed (.note (.answered n (p.outcome n)))] := by
  have slept : (p.handler.handle n).acts =
      if p.taskDuration.isZero then [] else [.sleep p.taskDuration] := by
    unfold handler
    dsimp only
    cases p.taskDuration.isZero <;> split_ifs <;> rfl
  rw [← slept]
  rfl

/-- A task that is abandoned reports that it was dropped. -/
theorem acts_abandon_job : (p.job n).abandon.acts = [.note (.answered n (.error .dropped))] := rfl

/-- A task leaves the pool alone. -/
theorem docile_job : (p.job n).Docile where
  run act h := by
    rw [acts_run_job] at h
    split_ifs at h <;> simp at h
    · exact h ▸ rfl
    · obtain rfl | rfl := h <;> rfl
  abandon d h := by
    rw [acts_abandon_job, List.mem_singleton] at h
    exact h ▸ rfl

end Jobs

section Transcript

variable (m : Nat)

/-- What a driver has written once `m` tasks were accepted. -/
def transcript : List (Occurrence LoadNote) :=
  .opened 0 :: (List.range m).flatMap fun k =>
    [.submitted k (p.job (k + 1)), .note none (.accepted (k + 1))]

/-- What it has written besides if it was interrupted while the next task waited in line. -/
def remnant (broken : Bool) : List (Occurrence LoadNote) :=
  if broken then [.submitted m (p.job (m + 1)), .refused m] else []

theorem transcript_succ : p.transcript (m + 1) =
    p.transcript m ++ [.submitted m (p.job (m + 1)), .note none (.accepted (m + 1))] := by
  simp [transcript, List.range_succ, List.flatMap_append]

/-- Only the tasks of the plan are submitted. -/
theorem submitted_mem_transcript {k : Nat} {job : Job LoadNote} :
    .submitted k job ∈ p.transcript m ↔ k < m ∧ job = p.job (k + 1) := by
  simp only [transcript, List.mem_cons, List.mem_flatMap, List.mem_range, reduceCtorEq, false_or,
    Occurrence.submitted.injEq, List.not_mem_nil, or_false]
  constructor
  · rintro ⟨i, hi, rfl, rfl⟩
    exact ⟨hi, rfl⟩
  · rintro ⟨hk, rfl⟩
    exact ⟨k, hk, rfl, rfl⟩

/-- Only tasks that were accepted are reported. -/
theorem note_mem_transcript {author : Option Nat} {note : LoadNote}
    (h : .note author note ∈ p.transcript m) : ∃ k < m, note = .accepted (k + 1) := by
  simp only [transcript, List.mem_cons, List.mem_flatMap, List.mem_range, reduceCtorEq, false_or,
    Occurrence.note.injEq, List.not_mem_nil, or_false] at h
  obtain ⟨k, hk, -, rfl⟩ := h
  exact ⟨k, hk, rfl⟩

end Transcript

/-- A pool whose clients have written this, with this current epoch, so many tickets drawn and so
many handles taken, and with no client that has something to do but that of the call. -/
structure Steered (w : World LoadNote) (written : List (Occurrence LoadNote))
    (current : Option EpochId) (drawn held : Nat) (call : Option TaskId) : Prop where
  size : w.epochs.size = 1
  outer : w.outer = written
  current : w.current = current
  tickets : w.nextTicket = drawn
  handles : w.handles = held
  jobs : ∀ k (job : Job LoadNote), .submitted k job ∈ written → job = p.job (k + 1)
  idle : ∀ (i : TaskId) (th : Thread LoadNote), w.tasks[i]? = some (.client th) → call ≠ some i →
    th = { body := ⟨[], .ok ()⟩ }

namespace Steered

variable {p} {w u v : World LoadNote} {written written' : List (Occurrence LoadNote)}
  {current current' : Option EpochId} {drawn drawn' held held' : Nat}
  {call call' : Option TaskId} {t : TaskId}

/-- What clients do not see leaves the driver where it is. -/
theorem alike (h : p.Steered w written current drawn held call) (a : Alike w u) :
    p.Steered u written current drawn held call where
  size := a.size.trans h.size
  outer := a.outer.trans h.outer
  current := a.current.trans h.current
  tickets := a.tickets.trans h.tickets
  handles := a.handles.trans h.handles
  jobs := h.jobs
  idle i th hi := h.idle i th ((a.clients i th).1 hi)

/-- Only tasks of the plan are in the pool, and these leave it alone. -/
theorem docile (h : p.Steered w written current drawn held call) : w.Docile := fun k job hm => by
  rw [← mem_outer rfl, h.outer] at hm
  exact h.jobs k job hm ▸ p.docile_job (k + 1)

/-- The driver makes a call. -/
theorem spawn (h : p.Steered w written current drawn held none)
    (code : Script (Act LoadNote) Unit) :
    p.Steered (w.spawn (.client { body := code })) written current drawn held
      (some w.tasks.size) where
  size := h.size
  outer := h.outer
  current := h.current
  tickets := h.tickets
  handles := h.handles
  jobs := h.jobs
  idle i th hi hne := by
    obtain ⟨rfl, -⟩ | hold := getElem?_spawn_cases hi
    · exact absurd rfl hne
    · exact h.idle i th hold (by simp)

/-- The client of the call goes on, or its call is over. -/
theorem setTask (h : p.Steered w written current drawn held (some t)) {th : Thread LoadNote}
    (hv : ∀ (i : TaskId) (th : Thread LoadNote), i ≠ t →
      v.tasks[i]? = some (.client th) → w.tasks[i]? = some (.client th))
    (hsize : v.epochs.size = 1) (houter : v.outer = written') (hcurrent : v.current = current')
    (htickets : v.nextTicket = drawn') (hhandles : v.handles = held')
    (hjobs : ∀ k (job : Job LoadNote), .submitted k job ∈ written' → job = p.job (k + 1))
    (hcall : call' = some t ∨ th = { body := ⟨[], .ok ()⟩ }) :
    p.Steered (v.setTask t (.client th)) written' current' drawn' held' call' where
  size := hsize
  outer := houter
  current := hcurrent
  tickets := htickets
  handles := hhandles
  jobs := hjobs
  idle i th' hi hne := by
    obtain ⟨rfl, heq⟩ | ⟨hit, hold⟩ := getElem?_setTask_cases hi
    · obtain hcall | hth := hcall
      · exact absurd hcall hne
      · cases heq
        exact hth
    · exact h.idle i th' (hv i th' hit hold) (by simpa using Ne.symm hit)

/-- A client that has nothing to do takes no step. -/
theorem step_of_over {th : Thread LoadNote} (ht : w.tasks[t]? = some (.client th))
    (ho : th = { body := ⟨[], .ok ()⟩ }) : w.step t = w :=
  step_of_not_ready w t (by simp [ready, ht, ho, Thread.isOver])

/-- Whoever is not the client of the call does nothing that clients see, and takes no place of a
temporary worker. -/
theorem step_other (h : p.Steered w written current drawn held call)
    (hw : Evolved p.pool (some fun _ _ => none) w) (ht : call ≠ some t) :
    Alike w (w.step t) ∧ Climbs w (w.step t) 0 := by
  by_cases hc : ∃ th, w.tasks[t]? = some (.client th)
  · obtain ⟨th, hth⟩ := hc
    rw [step_of_over hth (h.idle t th hth ht)]
    exact ⟨.refl w, .refl w 0⟩
  · have hc' : ∀ th, w.tasks[t]? ≠ some (.client th) := fun th hth => hc ⟨th, hth⟩
    refine ⟨alike_step hw h.docile hc', ?_⟩
    cases hth : w.tasks[t]? with
    | none =>
      rw [step_of_not_ready w t (by simp [ready, hth])]
      exact .refl w 0
    | some task =>
      have inner := internal_step hw h.docile hth fun th heq => hc' th (heq ▸ hth)
      exact .of_size (changes_step hw.sound t) (by simp [hw.same]) inner.tasks.le (inner.temps 0)

end Steered

/-- How far a load has come that is driven no more: `m` tasks were accepted, and the next one may
have waited in line. If it was not interrupted, every task was run. -/
structure Drove (w : World LoadNote) (interrupted : Bool) (m : Nat) (broken : Bool) : Prop where
  le : m ≤ p.tasks
  whole : interrupted = false →
    m = p.tasks ∧ broken = false ∧ ∀ k < p.tasks, .started 0 k ∈ w.books

/-- The client of the call `t` is shutting the pool of a load down, and does this next. -/
structure Winds (w : World LoadNote) (interrupted : Bool) (m : Nat) (broken : Bool) (t : TaskId)
    (th : Thread LoadNote) : Prop where
  drove : p.Drove w interrupted m broken
  steered : p.Steered w (p.transcript m ++ p.remnant m broken ++ [.closed 0]) none
    (m + broken.toNat) 2 (some t)
  found : w.tasks[t]? = some (.client th)
  body : th.body = p.closing
  wait : th.wait = .closing 0 ∨ ∃ deadline, th.wait = .exits 0 deadline
  since : ∃ u, Evolved p.pool (some fun _ _ => none) u ∧ (u.epoch 0).closed = true ∧
    u.DrainsAt 0 t 0 [] p.closing ∧ Changes u w

/-- What the pool of a load run is like while its driver stands here. -/
inductive Stands (w : World LoadNote) : LoadStage → Prop
  | driving {m : Nat} (hm : m ≤ p.tasks)
    (h : p.Steered w (p.transcript m) (some 0) m 1 none) : Stands w (.driving (m + 1))
  /-- A submission was made and has not begun. -/
  | asked {m : Nat} {t : TaskId} (hm : m < p.tasks)
    (h : p.Steered w (p.transcript m) (some 0) m 1 (some t))
    (ht : w.tasks[t]? = some (.client { body := p.submission (m + 1) })) :
    Stands w (.submitting (m + 1) t)
  /-- It waits in line. -/
  | waits {m : Nat} {t : TaskId} (hm : m < p.tasks) (hl : p.pool.maxTemps.isSome)
    (h : p.Steered w (p.transcript m ++ [.submitted m (p.job (m + 1))]) (some 0) (m + 1) 2 (some t))
    (ht : w.tasks[t]? = some (.client ⟨[], p.submission (m + 1), .inLine 0 m⟩)) :
    Stands w (.submitting (m + 1) t)
  /-- It was accepted. -/
  | told {m : Nat} {t : TaskId} (hm : m < p.tasks)
    (h : p.Steered w (p.transcript (m + 1)) (some 0) (m + 1) 1 none) :
    Stands w (.submitting (m + 1) t)
  | driven {i b : Bool} {m : Nat} (hd : p.Drove w i m b)
    (h : p.Steered w (p.transcript m ++ p.remnant m b) (some 0) (m + b.toNat) 1 none) :
    Stands w (.driven i)
  /-- The shutdown was called and has not begun. -/
  | closes {i b : Bool} {m : Nat} {t : TaskId} (hd : p.Drove w i m b)
    (h : p.Steered w (p.transcript m ++ p.remnant m b) (some 0) (m + b.toNat) 1 (some t))
    (ht : w.tasks[t]? = some (.client { body := p.closing })) : Stands w (.closing i t)
  /-- It drains the queues, then waits for the tasks of the pool. -/
  | winds {i b : Bool} {m : Nat} {t : TaskId} {th : Thread LoadNote}
    (h : p.Winds w i m b t th) : Stands w (.closing i t)
  /-- It was answered; if it was in time, nothing is left to happen. -/
  | ended {i b : Bool} {m : Nat} {t : TaskId} {answer : Except PoolError Unit}
    (hd : p.Drove w i m b)
    (h : p.Steered w
      (p.transcript m ++ p.remnant m b ++ [.closed 0, .note none (.shutdown answer)]) none
      (m + b.toNat) 1 none)
    (ha : answer = .ok () ∧ w.Spent 0 ∨ answer = .error (.shutdownTimeout p.shutdownTimeout)) :
    Stands w (.closing i t)

section Steps

variable {p} {w u : World LoadNote} {m : Nat} {i broken : Bool} {t : TaskId} {stage : LoadStage}

/-- What was begun stays so. -/
theorem Drove.changes (h : p.Drove w i m broken) (c : Changes w u) : p.Drove u i m broken where
  le := h.le
  whole hi := by
    obtain ⟨hm, hb, started⟩ := h.whole hi
    exact ⟨hm, hb, fun k hk => c.grows.booked (started k hk)⟩

/-- What clients do not see leaves a shutdown where it is. -/
theorem Winds.alike {th : Thread LoadNote} (h : p.Winds w i m broken t th) (a : Alike w u)
    (c : Changes w u) : p.Winds u i m broken t th where
  drove := h.drove.changes c
  steered := h.steered.alike a
  found := (a.clients _ _).2 h.found
  body := h.body
  wait := h.wait
  since := h.since.imp fun _ ⟨hu, hc, drains, since⟩ => ⟨hu, hc, drains, since.trans c⟩

/-- What clients do not see leaves the driver where it stands. -/
theorem Stands.alike (h : p.Stands w stage) (hw : Evolved p.pool (some fun _ _ => none) w)
    (a : Alike w u) (c : Changes w u) : p.Stands u stage := by
  cases h with
  | driving hm h => exact .driving hm (h.alike a)
  | asked hm h ht => exact .asked hm (h.alike a) ((a.clients _ _).2 ht)
  | waits hm hl h ht => exact .waits hm hl (h.alike a) ((a.clients _ _).2 ht)
  | told hm h => exact .told hm (h.alike a)
  | driven hd h => exact .driven (hd.changes c) (h.alike a)
  | closes hd h ht => exact .closes (hd.changes c) (h.alike a) ((a.clients _ _).2 ht)
  | winds h => exact .winds (h.alike a c)
  | ended hd h ha =>
    exact .ended (hd.changes c) (h.alike a)
      (ha.imp_left (And.imp_right fun hs => (c.silent hw hs).1))

variable (hw : Evolved p.pool (some fun _ _ => none) w)

include hw

/-- A job that a pool takes at once raises the counter only if a worker is hired for it. -/
theorem Admits.climbs {e : EpochId} {job : Job LoadNote} {x : Entry LoadNote} {th : Thread LoadNote}
    {note : LoadNote} (h : Admits (w.draw job) e x u) (he : e < w.epochs.size)
    (ht : t < w.tasks.size) (c : Changes w ((u.record (.note none note)).setTask t (.client th))) :
    Climbs w ((u.record (.note none note)).setTask t (.client th)) e := by
  have hook : w.hook.isSome := by simp [hw.same]
  cases h with
  | queued hoffer =>
    exact .of_size c hook (by simp)
      (modifyEpoch_keeps (w.draw job) e _ Epoch.temps (Epoch.offer_frame hoffer).2.2.1 e).le
  | handedOver =>
    exact .of_size c hook (by simp [handOver])
      (modifyEpoch_keeps (w.draw job) e _ Epoch.temps rfl e).le
  | hired =>
    have fresh : w.told w.tasks.size = [] := hw.told_eq_nil (by simp)
    have risen : (((w.draw job).hire e x).epoch e).temps = (w.epoch e).temps + 1 :=
      congrArg Epoch.temps (epoch_modifyEpoch_self (w.draw job) e _ he)
    have found : ((((w.draw job).hire e x).record (.note none note)).setTask t
        (.client th)).tasks[w.tasks.size]? =
          some (.worker e .temporary (.seeded (((w.draw job).hire e x).epoch e).temps x)) := by
      rw [getElem?_setTask_of_ne _ _ _ (Nat.ne_of_gt ht), risen]
      simp [hire, spawn]
    exact .of_hired c hook (by simp [hire]) (by simpa [hire, Occurrence.callBy?] using fresh) found

/-- A submission that begins is accepted at once, or it joins the line. -/
theorem Steered.step_asked (h : p.Steered w (p.transcript m) (some 0) m 1 (some t))
    (hm : m < p.tasks) (ht : w.tasks[t]? = some (.client { body := p.submission (m + 1) })) :
    p.Stands (w.step t) (.submitting (m + 1) t) ∧ Climbs w (w.step t) 0 := by
  have c : w.Submits t _ _ (p.job (m + 1)) (.accepted (m + 1)) (.refused (m + 1))
    (.refused (m + 1)) := ⟨ht, rfl, rfl, rfl, by simp [h.handles]⟩
  have changes := changes_step hw.sound t
  have jobs : ∀ k (job : Job LoadNote),
      .submitted k job ∈ p.transcript m ++ [.submitted m (p.job (m + 1))] →
        job = p.job (k + 1) := by
    intro k job hm
    obtain hm | hm := List.mem_append.1 hm
    · exact h.jobs k job hm
    · cases List.mem_singleton.1 hm
      rfl
  obtain ⟨u, hu, hstep⟩ | ⟨hl, hstep⟩ := c.step_of_current hw.sound h.current
  · rw [hstep] at changes ⊢
    refine ⟨.told hm (h.setTask ?_ ?_ ?_ ?_ ?_ ?_ ?_ (.inr rfl)),
      Admits.climbs hw hu (hw.sound.current_lt 0 h.current) (Array.getElem?_eq_some_iff.1 ht).1
        changes⟩
    · exact fun i th _ hi => (hu.alike.clients i th).1 hi
    · exact hu.alike.size.trans h.size
    · rw [outer_record, hu.alike.outer, outer_draw, h.outer, h.tickets, p.transcript_succ]
      simp [Occurrence.isOuter, Task.author?]
    · exact hu.alike.current.trans h.current
    · exact hu.alike.tickets.trans (congrArg (· + 1) h.tickets)
    · exact hu.alike.handles.trans h.handles
    · intro k job hk
      exact ((p.submitted_mem_transcript (m + 1)).1 hk).2
  · rw [hstep] at changes ⊢
    refine ⟨.waits hm (hw.same.1 ▸ hl) (h.setTask ?_ ?_ ?_ ?_ ?_ ?_ jobs (.inl rfl)) ?_, ?_⟩
    · exact fun _ _ _ hi => hi
    · simpa using h.size
    · rw [outer_modifyEpoch, outer_draw]
      exact (congrArg (· ++ _) h.outer).trans (by rw [h.tickets])
    · exact h.current
    · exact congrArg (· + 1) h.tickets
    · exact congrArg (· + 1) h.handles
    · refine (getElem?_setTask_self _ _ _ ?_).trans (by rw [h.tickets]; rfl)
      exact (Array.getElem?_eq_some_iff.1 ht).1
    · exact .of_size changes (by simp [hw.same]) (by simp)
        (modifyEpoch_keeps _ 0 _ Epoch.temps rfl 0).le

/-- A submission that waits in line goes on only once the place is granted to it. -/
theorem Steered.step_waiting
    (h : p.Steered w (p.transcript m ++ [.submitted m (p.job (m + 1))]) (some 0) (m + 1) 2 (some t))
    (hm : m < p.tasks) (hl : p.pool.maxTemps.isSome)
    (ht : w.tasks[t]? = some (.client ⟨[], p.submission (m + 1), .inLine 0 m⟩)) :
    p.Stands (w.step t) (.submitting (m + 1) t) ∧ Climbs w (w.step t) 0 := by
  by_cases hr : w.ready t = true
  swap
  · rw [step_of_not_ready w t (by simpa using hr)]
    exact ⟨.waits hm hl h ht, .refl w 0⟩
  have hopen := hw.sound.current_open 0 h.current
  have hshut : (w.epoch 0).intake.shut = false := by
    by_contra hs
    rw [Bool.not_eq_false] at hs
    rw [hw.closed_of_shut (hw.same.1 ▸ hl) hs] at hopen
    cases hopen
  have changes := changes_step hw.sound t
  have acts : (p.submission (m + 1)).acts = [.ofJob (p.job (m + 1)) (.accepted (m + 1))
    (.refused (m + 1)) (.refused (m + 1))] := rfl
  have hstep := step_of_granted ht rfl acts rfl hopen hshut hr one_ne_zero h.handles
  rw [hstep] at changes ⊢
  refine ⟨.told hm (h.setTask ?_ ?_ ?_ ?_ ?_ ?_ ?_ (.inr rfl)), ?_⟩
  · exact fun _ _ _ hi => hi
  · simpa [handOver] using h.size
  · have outer : w.outer = p.transcript m ++ [.submitted m (p.job (m + 1))] := h.outer
    rw [p.transcript_succ]
    simp only [handOver, outer_record, outer_modifyEpoch]
    simp [World.outer, occurrences] at outer ⊢
    simp [outer, Occurrence.isOuter]
  · exact h.current
  · exact h.tickets
  · rfl
  · intro k job hk
    exact ((p.submitted_mem_transcript (m + 1)).1 hk).2
  · exact .of_size changes (by simp [hw.same]) (by simp [handOver])
      (modifyEpoch_keeps _ 0 _ Epoch.temps rfl 0).le

/-- A shutdown that begins closes the epoch, which it then drains. -/
theorem Steered.step_closing
    (h : p.Steered w (p.transcript m ++ p.remnant m broken) (some 0) (m + broken.toNat) 1 (some t))
    (hd : p.Drove w i m broken) (ht : w.tasks[t]? = some (.client { body := p.closing })) :
    p.Stands (w.step t) (.closing i t) ∧ Climbs w (w.step t) 0 := by
  have held : w.handles ≠ 0 := by simp [h.handles]
  have changes := changes_step hw.sound t
  obtain ⟨closed, drains⟩ := drainsAt_of_shutdown hw.sound ht rfl rfl rfl h.current held
  have hstep := step_of_retiring hw.sound ht rfl rfl rfl h.current held
  have steered : p.Steered (w.step t) (p.transcript m ++ p.remnant m broken ++ [.closed 0]) none
      (m + broken.toNat) 2 (some t) := by
    rw [hstep]
    refine h.setTask (fun _ _ _ hi => by simpa [stop] using hi) ?_ ?_ rfl h.tickets ?_ ?_ (.inl rfl)
    · simpa [stop] using h.size
    · rw [outer_stop]
      exact congrArg (· ++ _) h.outer
    · exact congrArg (· + 1) h.handles
    · intro k job hk
      obtain hk | hk := List.mem_append.1 hk
      · exact h.jobs k job hk
      · cases List.mem_singleton.1 hk
  have found : (w.step t).tasks[t]? = some (.client ⟨[.drain 0 0], p.closing, .closing 0⟩) := by
    rw [hstep]
    exact getElem?_setTask_self _ _ _ (by simpa [stop] using (Array.getElem?_eq_some_iff.1 ht).1)
  refine ⟨.winds ⟨hd.changes changes, steered, found, rfl, .inl rfl, _, hw.changes changes, closed,
    drains, .refl⟩, .of_size changes (by simp [hw.same]) ?_ ?_⟩
  · rw [hstep]
    simp [stop]
  · rw [hstep]
    exact (modifyEpoch_keeps _ 0 _ Epoch.temps rfl 0).le

variable {th : Thread LoadNote}

/-- A shutdown goes on with its drain. -/
theorem Winds.step_of_layers (h : p.Winds w i m broken t th) (hl : th.layers ≠ []) :
    p.Stands (w.step t) (.closing i t) ∧ Climbs w (w.step t) 0 := by
  have changes := changes_step hw.sound t
  have hstep := (World.step_of_layers h.found rfl hl).2
  have inner : Internal w (w.stepLayers th.layers).2 := internal_stepLayers w fun k code hm =>
    h.steered.docile.callback (hw.answers t _ h.found th rfl) k code hm
  have steered : p.Steered (w.step t) (p.transcript m ++ p.remnant m broken ++ [.closed 0]) none
      (m + broken.toNat) 2 (some t) := by
    rw [hstep]
    refine h.steered.setTask (fun i th' hi hv => ?_) (inner.size.trans h.steered.size)
      (inner.outer.trans h.steered.outer) (inner.current.trans h.steered.current)
      (inner.tickets.trans h.steered.tickets) (inner.handles.trans h.steered.handles)
      h.steered.jobs (.inl rfl)
    rw [← getElem?_step_of_ne hw.sound hi (inner.tasks ▸ (Array.getElem?_eq_some_iff.1 hv).1),
      hstep, getElem?_setTask_of_ne _ _ _ hi]
    exact hv
  have found : (w.step t).tasks[t]? =
      some (.client { th with layers := (w.stepLayers th.layers).1 }) := by
    rw [hstep]
    exact getElem?_setTask_self _ _ _ (inner.tasks ▸ (Array.getElem?_eq_some_iff.1 h.found).1)
  refine ⟨.winds ⟨h.drove.changes changes, steered, found, h.body, h.wait, ?_⟩,
    .of_size changes (by simp [hw.same]) ?_ ?_⟩
  · exact h.since.imp fun _ ⟨hu, hc, drains, since⟩ => ⟨hu, hc, drains, since.trans changes⟩
  · rw [hstep, size_setTask, inner.tasks]
  · rw [hstep]
    exact inner.temps 0

omit hw in
/-- A shutdown whose drain is over leaves nothing behind once all tasks of the epoch are. -/
theorem Winds.spent (h : p.Winds w i m broken t th) (hl : th.layers = [])
    (hdes : w.deserted 0 = true) : w.Spent 0 := by
  obtain ⟨u, hu, hc, drains, since⟩ := h.since
  refine ⟨since.grows.closed 0 (lt_of_closed hc) hc, hdes, total_drains_eq_zero_iff.1 ?_⟩
  obtain ⟨_, _, _, later, _⟩ | ⟨_, hz⟩ := since.drainsAt hu hc drains
  · obtain ⟨th', hth', hne, _⟩ := later.exists_layers
    rw [thread?_eq_some.2 ⟨_, h.found, rfl⟩, Option.some.injEq] at hth'
    exact absurd (hth' ▸ hl) hne
  · exact hz

/-- A shutdown that is answered is over. -/
theorem Winds.step_of_answer (h : p.Winds w i m broken t th) (hl : th.layers = []) {notice : Notice}
    {answer : Except PoolError Unit} (hstep : w.step t =
      ((({ w with handles := 1 } : World LoadNote).log notice).record
        (.note none (.shutdown answer))).setTask t (.client th.next))
    (ha : answer = .ok () ∧ w.Spent 0 ∨ answer = .error (.shutdownTimeout p.shutdownTimeout)) :
    p.Stands (w.step t) (.closing i t) ∧ Climbs w (w.step t) 0 := by
  have changes := changes_step hw.sound t
  have next : th.next = { body := ⟨[], .ok ()⟩ } := by
    have hb := h.body
    obtain ⟨layers, body, wait⟩ := th
    cases hl
    cases hb
    rfl
  have steered : p.Steered (w.step t) (p.transcript m ++ p.remnant m broken ++
      [.closed 0, .note none (.shutdown answer)]) none (m + broken.toNat) 1 none := by
    rw [hstep]
    refine h.steered.setTask (fun _ _ _ hi => hi) h.steered.size ?_ h.steered.current
      h.steered.tickets rfl ?_ (.inr next)
    · rw [outer_record, outer_log]
      refine (congrArg (· ++ _) h.steered.outer).trans ?_
      simp [Occurrence.isOuter]
    · intro k job hk
      rw [List.append_cons] at hk
      obtain hk | hk := List.mem_append.1 hk
      · exact h.steered.jobs k job hk
      · cases List.mem_singleton.1 hk
  refine ⟨.ended (h.drove.changes changes) steered
    (ha.imp_left (And.imp_right fun hs => (changes.silent hw hs).1)),
    .of_size changes (by simp [hw.same]) ?_ ?_⟩
  · rw [hstep, size_setTask]
    exact le_rfl
  · rw [hstep]
    exact le_rfl

/-- A shutdown drains, waits, or is answered; if it is answered in time, the epoch is spent. -/
theorem Winds.step (h : p.Winds w i m broken t th) :
    p.Stands (w.step t) (.closing i t) ∧ Climbs w (w.step t) 0 := by
  by_cases hl : th.layers = []
  swap
  · exact h.step_of_layers hw hl
  have changes := changes_step hw.sound t
  have acts : th.body.acts = [.shutdown p.shutdownTimeout (.shutdown (.ok ()))
      (.shutdown (.error (.shutdownTimeout p.shutdownTimeout))) (.shutdown (.ok ()))] := by
    rw [h.body]
    rfl
  obtain ⟨deadline, hstep⟩ | hstep | ⟨hdes, hstep⟩ | hstep :=
    step_of_awaiting h.found hl acts h.wait one_ne_zero h.steered.handles
  · have steered := h.steered
    have found : (w.step t).tasks[t]? = some (.client { th with wait := .exits 0 deadline }) := by
      rw [hstep]
      exact getElem?_setTask_self _ _ _ (Array.getElem?_eq_some_iff.1 h.found).1
    refine ⟨.winds ⟨h.drove.changes changes, ?_, found, h.body, .inr ⟨deadline, rfl⟩, ?_⟩,
      .of_size changes (by simp [hw.same]) (by rw [hstep, size_setTask])
        (by rw [hstep, epoch_setTask])⟩
    · rw [hstep]
      exact steered.setTask (fun _ _ _ hi => hi) steered.size steered.outer steered.current
        steered.tickets steered.handles steered.jobs (.inl rfl)
    · exact h.since.imp fun _ ⟨hu, hc, drains, since⟩ => ⟨hu, hc, drains, since.trans changes⟩
  · rw [hstep]
    exact ⟨.winds h, .refl w 0⟩
  · exact h.step_of_answer hw hl hstep (.inl ⟨rfl, h.spent hl hdes⟩)
  · exact h.step_of_answer hw hl hstep (.inr rfl)

/-- Whoever takes a step, the driver stands where it stood. -/
theorem Stands.step (h : p.Stands w stage) (t : TaskId) :
    p.Stands (w.step t) stage ∧ Climbs w (w.step t) 0 := by
  have changes := changes_step hw.sound t
  have other : (Alike w (w.step t) ∧ Climbs w (w.step t) 0) →
      p.Stands (w.step t) stage ∧ Climbs w (w.step t) 0 :=
    And.imp_left fun a => h.alike hw a changes
  cases h with
  | driving _ h => exact other (h.step_other hw (by simp))
  | told _ h => exact other (h.step_other hw (by simp))
  | driven _ h => exact other (h.step_other hw (by simp))
  | ended _ h => exact other (h.step_other hw (by simp))
  | @asked _ i hm h ht =>
    by_cases hi : i = t
    · subst hi
      exact h.step_asked hw hm ht
    · exact other (h.step_other hw (by simpa using hi))
  | @waits _ i hm hl h ht =>
    by_cases hi : i = t
    · subst hi
      exact h.step_waiting hw hm hl ht
    · exact other (h.step_other hw (by simpa using hi))
  | @closes _ _ _ i hd h ht =>
    by_cases hi : i = t
    · subst hi
      exact h.step_closing hw hd ht
    · exact other (h.step_other hw (by simpa using hi))
  | @winds _ _ _ i _ h =>
    by_cases hi : i = t
    · subst hi
      exact h.step hw
    · exact other (h.steered.step_other hw (by simpa using hi))

end Steps

end LoadPlan

end WorkerPool
