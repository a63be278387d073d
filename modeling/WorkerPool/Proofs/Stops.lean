import WorkerPool.Proofs.Callbacks
import WorkerPool.Proofs.Returns
import WorkerPool.Proofs.Workers

/-!
# What a stop does

The call that stops an epoch abandons what is queued there before it returns. After the stop no job
of the epoch begins but those that temporary workers were hired for before, and these jobs and those
that were running go on as if there had been no stop. No worker begins a job that another epoch than
its own has accepted.
-/

namespace WorkerPool.World

variable {ν : Type} {w u v : World ν} {e : EpochId} {t i : TaskId} {k : Nat} {kind : WorkerKind}
  {source : Source} {settings : Settings} {hook : Option Hook}

/-- Code begins no job. -/
theorem Shift.started_mem {a : Option Nat} {th th' : Thread ν} {w' : World ν}
    (h : Shift t a th w th' w') (hk : .started e k i source ∈ w'.occurrences) :
    .started e k i source ∈ w.occurrences := by
  cases h with
  | @deed d => cases d <;> simpa [Deed.traces] using hk
  | @callbackDeed _ d => cases d <;> simpa [Deed.traces] using hk
  | aside ha => exact ha.mem hk rfl
  | _ => simpa [hire, handOver, giveUp] using hk

/-- A job begins with a worker that was hired for it, or that claims it while its epoch is open. -/
theorem Change.started_mem (c : Change w u) (hk : .started e k i source ∈ u.occurrences) :
    .started e k i source ∈ w.occurrences ∨ ∃ kind state,
      w.tasks[i]? = some (.worker e kind state) ∧
        (source = .seed ∧ (∃ live x, state = .seeded live x ∧ x.ticket = k) ∨
          (w.epoch e).closed = false) := by
  have silent : ∀ {j : EpochId} {t : TaskId} {call : HookCall},
      .started e k i source ∉ w.hookTrace j t call := by
    intro j t call hm
    unfold hookTrace at hm
    split at hm <;> simp at hm
  cases c with
  | aside ha => exact .inl (ha.mem hk rfl)
  | posted => exact .inl hk
  | code _ _ h => exact .inl (h.started_mem hk)
  | welcomed ht =>
    simp only [World.assign, occurrences_record, occurrences_setTask, occurrences_recordAll,
      List.mem_append, List.mem_singleton, reduceCtorEq, or_false, silent,
      Occurrence.started.injEq] at hk
    obtain hk | ⟨rfl, rfl, rfl, rfl⟩ := hk
    · exact .inl hk
    · exact .inr ⟨_, _, ht, .inl ⟨rfl, _, _, rfl, rfl⟩⟩
  | claimed ht ho =>
    simp only [World.assign, occurrences_record, occurrences_setTask, occurrences_modifyEpoch,
      List.mem_append, List.mem_singleton, Occurrence.started.injEq] at hk
    obtain hk | ⟨rfl, rfl, rfl, rfl⟩ := hk
    · exact .inl hk
    · exact .inr ⟨_, _, ht, .inr ho⟩
  | finished _ _ hos =>
    left
    obtain ⟨_, rfl⟩ | ⟨p, _, rfl⟩ := hos <;> simpa [silent] using hk
  | _ => exact .inl (by simpa [silent, takeIn, shutIntake] using hk)

/-- Only a worker of the epoch begins a job there. -/
theorem Evolved.worker_of_started (h : Evolved settings hook w)
    (hk : .started e k i source ∈ w.occurrences) :
    ∃ kind state, w.tasks[i]? = some (.worker e kind state) := by
  induction h with
  | opened =>
    rw [occurrences_launch] at hk
    simp [occurrences] at hk
  | @next w u h c ih =>
    have held : ∃ kind state, w.tasks[i]? = some (.worker e kind state) := by
      obtain hk | ⟨kind, state, hi, _⟩ := c.started_mem hk
      · exact ih hk
      · exact ⟨kind, state, hi⟩
    obtain ⟨kind, state, hi⟩ := held
    obtain ⟨state', _, hu, _⟩ := c.turn hi
    exact ⟨kind, state', hu⟩

/-- Nobody is hired in a closed epoch. -/
theorem Change.seeded_mem (c : Change w u) (hw : w.Sound) (hc : (w.epoch e).closed = true)
    {live : Nat} {x : Entry ν} (hi : u.tasks[i]? = some (.worker e kind (.seeded live x))) :
    w.tasks[i]? = some (.worker e kind (.seeded live x)) := by
  cases ht : w.tasks[i]? with
  | none =>
    cases c.hired_of_new hi ht with
    | seed hcurrent => exact absurd ((hw.current_open e hcurrent).symm.trans hc) (by decide)
  | some task =>
    obtain ⟨task', hu, hrole⟩ := c.role_eq ht
    rw [hi, Option.some.injEq] at hu
    subst hu
    obtain ⟨old, rfl⟩ := Task.role_eq_worker.1 hrole.symm
    obtain ⟨state', cs, hu, _, turn⟩ := c.turn ht
    rw [hi, Option.some.injEq, Task.worker.injEq] at hu
    obtain ⟨_, _, rfl⟩ := hu
    cases turn with
    | still => rfl
    | finishes _ _ _ hs => obtain ⟨h, _⟩ | ⟨_, h, _⟩ | ⟨h, _⟩ := hs <;> cases h

/-- After an epoch was closed the only jobs that begin there are those of workers that were hired
for them before. -/
theorem Changes.started_mem (h : Changes w v) (hw : Evolved settings hook w)
    (hc : (w.epoch e).closed = true) (hk : .started e k i source ∈ v.occurrences) :
    .started e k i source ∈ w.occurrences ∨ source = .seed ∧ ∃ kind live x,
      w.tasks[i]? = some (.worker e kind (.seeded live x)) ∧ x.ticket = k := by
  have closed : ∀ {v : World ν}, Changes w v → (v.epoch e).closed = true :=
    fun h => h.grows.closed e (lt_of_closed hc) hc
  have seeded : ∀ {v : World ν}, Changes w v → ∀ {kind live x},
      v.tasks[i]? = some (.worker e kind (.seeded live x)) →
        w.tasks[i]? = some (.worker e kind (.seeded live x)) := by
    intro v h
    induction h with
    | refl => exact id
    | tail before c ih =>
      exact fun hi => ih (c.seeded_mem (hw.changes before).sound (closed before) hi)
  induction h with
  | refl => exact .inl hk
  | tail before c ih =>
    obtain hk | ⟨kind, state, hi, ⟨rfl, live, x, rfl, rfl⟩ | ho⟩ := c.started_mem hk
    · exact ih hk
    · exact .inr ⟨rfl, kind, live, x, seeded before hi, rfl⟩
    · exact absurd (ho.symm.trans (closed before)) (by decide)

/-- A job that a worker runs is run by it until it ends as its own code does. -/
theorem Changes.busy (h : Changes w v) {th : Thread ν}
    (hi : w.tasks[i]? = some (.worker e kind (.busy source k th))) :
    (∃ th', v.tasks[i]? = some (.worker e kind (.busy source k th')) ∧
      th'.body.ending = th.body.ending) ∨ .finished e k th.body.ending ∈ v.occurrences := by
  induction h with
  | refl => exact .inl ⟨th, hi, rfl⟩
  | tail _ c ih =>
    obtain ⟨th', hv, hend⟩ | hf := ih
    · obtain ⟨state', cs, hu, _, turn⟩ := c.turn hv
      cases turn with
      | still => exact .inl ⟨th', hu, hend⟩
      | works h => exact .inl ⟨_, hu, h.suffix.2.trans hend⟩
      | finishes _ hf => exact .inr (hend ▸ hf)
      | quits hq => obtain ⟨_, h, _⟩ | ⟨h, _⟩ := hq <;> cases h
    · exact .inr (c.grows.mem hf)

/-- A job that a temporary worker was hired for waits for it, or is run by it until it ends as its
own code does, or is lost. -/
theorem Changes.seeded (h : Changes w v) {live : Nat} {x : Entry ν}
    (hi : w.tasks[i]? = some (.worker e kind (.seeded live x))) :
    v.tasks[i]? = some (.worker e kind (.seeded live x)) ∨
      (∃ source th, v.tasks[i]? = some (.worker e kind (.busy source x.ticket th)) ∧
        th.body.ending = x.job.run.ending) ∨
      .finished e x.ticket x.job.run.ending ∈ v.occurrences ∨
      .lost e x.ticket i ∈ v.occurrences := by
  induction h with
  | refl => exact .inl hi
  | tail _ c ih =>
    obtain hv | ⟨source, th, hv, hend⟩ | hf | hl := ih
    · obtain ⟨state', cs, hu, _, turn⟩ := c.turn hv
      cases turn with
      | still => exact .inl hu
      | joins => exact .inr (.inl ⟨_, _, hu, rfl⟩)
      | fails _ hl => exact .inr (.inr (.inr hl))
      | quits hq => obtain ⟨_, h, _⟩ | ⟨h, _⟩ := hq <;> cases h
    · obtain ⟨th', hu, hend'⟩ | hf := Changes.busy (.single c) hv
      · exact .inr (.inl ⟨_, th', hu, hend'.trans hend⟩)
      · exact .inr (.inr (.inl (hend ▸ hf)))
    · exact .inr (.inr (.inl (c.grows.mem hf)))
    · exact .inr (.inr (.inr (c.grows.mem hl)))

/-- How often a job was abandoned is in the books. -/
theorem count_abandonedIn (w : World ν) (e : EpochId) (k : Nat) :
    (w.abandonedIn e).count k = w.books.count (.abandoned e k) := by
  rw [abandonedIn, picked, books, List.count, List.count, List.countP_filterMap,
    List.countP_filterMap]
  congr 1
  funext o
  cases o with
  | abandoned i ticket =>
    by_cases hi : i = e <;> simp [Occurrence.abandonedIn?, Occurrence.booking?, hi]
  | _ => rfl

/-- An epoch abandons a job no more than once. -/
theorem Ledger.nodup_abandonedIn (h : w.Ledger) (e : EpochId) : (w.abandonedIn e).Nodup := by
  rw [List.nodup_iff_count_le_one]
  intro k
  rw [count_abandonedIn]
  by_cases hz : w.books.count (.accepted e k) = 0
  · have := h.begun_le_accepted e k
    omega
  · have hone := h.count_accepted (List.count_pos_iff.1 (Nat.pos_of_ne_zero hz)) e
    have := h.begun_le_accepted e k
    rw [if_pos rfl] at hone
    omega

/-- A job that a worker holds, or that ended with its worker, is not abandoned. -/
theorem Ledger.not_abandoned (h : w.Ledger) (hp : 0 < w.holders e k +
    w.books.count (.finished e k) + w.books.count (.lost e k)) :
    .abandoned e k ∉ w.occurrences := by
  intro ha
  have habandoned := List.count_pos_iff.2 (mem_books ha rfl)
  have hkept := h.kept e k
  have haccepted : w.AcceptedBy e k := List.count_pos_iff.1 (by omega)
  have hone := h.count_accepted haccepted e
  rw [if_pos rfl] at hone
  omega

/-- The job of this ticket was run to its end: it ended as its own code does, and whatever reports
one looks at, it has made those of its own code and no other, unless one looks at the answers to its
own submissions and shutdowns. -/
structure Ran (w : World ν) (e : EpochId) (k : Nat) (job : Job ν) : Prop where
  finished : .finished e k job.run.ending ∈ w.occurrences
  heard : ∀ sel, job.Discreet sel → w.heard sel k = (job.run.acts.map (Act.reports sel)).sum

/-- A job that a worker has finished has made the reports of its own code. -/
theorem Evolved.ran (h : Evolved settings hook w) {job : Job ν}
    (hs : .submitted k job ∈ w.occurrences) (hf : .finished e k job.run.ending ∈ w.occurrences) :
    w.Ran e k job := by
  refine ⟨hf, fun sel hd => ?_⟩
  have ledger := h.ledger
  have hfinished := List.count_pos_iff.2 (mem_books hf rfl)
  have hkept := ledger.kept e k
  have hbegun := ledger.begun e k
  have ha : w.AcceptedBy e k := List.count_pos_iff.1 (by omega)
  have hone := ledger.count_accepted ha e
  have hrunners := w.runners_le_holders e k
  rw [if_pos rfl] at hone
  have hsaid := h.kept sel k job (fun _ hj => ledger.job_unique hs hj) hd
  have hnone : .abandoned e k ∉ w.occurrences := ledger.not_abandoned (by omega)
  have hunheard : w.unheard sel k = 0 := by
    refine unheard_eq_zero sel ledger ha (by omega) fun t task th code ht hth hm => ?_
    obtain ⟨i, hi, _⟩ := h.drained.callback ht hth hm
    obtain rfl := ledger.eq_of_abandoned ha hi
    exact hnone hi
  have hstarts : w.books.countP (·.starts k) = 1 := by
    rw [ledger.starts_eq ha]
    omega
  have habandons : w.books.countP (·.abandons k) = 0 := by
    rw [ledger.abandons_eq ha]
    omega
  rwa [hunheard, Nat.add_zero, promised, hstarts, habandons, Nat.one_mul, Nat.zero_mul,
    Nat.add_zero] at hsaid

/-- A worker runs the job of this ticket and has left to do what is left of its code. -/
def Runs (w : World ν) (e : EpochId) (i : TaskId) (k : Nat) (job : Job ν) : Prop :=
  ∃ kind source th, w.tasks[i]? = some (.worker e kind (.busy source k th)) ∧
    th.body.acts <:+ job.run.acts ∧ th.body.ending = job.run.ending

/-- A worker that is busy runs the job that was submitted. -/
theorem Evolved.runs (h : Evolved settings hook w) {job : Job ν}
    (hs : .submitted k job ∈ w.occurrences) {th : Thread ν}
    (hi : w.tasks[i]? = some (.worker e kind (.busy source k th))) : w.Runs e i k job := by
  obtain ⟨job', hs', hacts, hending⟩ := (h.papers.tasks i _ hi).body e kind source k th rfl
  obtain rfl := h.ledger.job_unique hs hs'
  exact ⟨kind, source, th, hi, hacts, hending⟩

/-- What holds of an epoch after a stop. In a move from `w` to `u` task `t` has closed the epoch,
with these layers and this body left to do; `v` is any later state. -/
structure Stopped (w u v : World ν) (e : EpochId) (t : TaskId) (below : List (Layer ν))
    (body : Script (Act ν) Unit) : Prop where
  /-- Of what was queued `n` jobs were abandoned, in order; either the task is still at it and can
  go on, or these are all and it has returned. -/
  drain : ∃ n m, Faded (u.epoch e) (v.epoch e) n m (v.abandonedIn e) ∧
    (v.DrainsAt e t n below body ∧ v.ready t = true ∨
      n = (w.epoch e).queue.length ∧ ∃ a, DrainedAt u a v e t n below body)
  /-- No job is abandoned twice. -/
  once : (v.abandonedIn e).Nodup
  /-- No job has begun since but those of temporary workers that were hired for them before. -/
  begun : ∀ (i : TaskId) (k : Nat) (source : Source), .started e k i source ∈ v.occurrences →
    .started e k i source ∈ u.occurrences ∨ source = .seed ∧ ∃ kind live x,
      w.tasks[i]? = some (.worker e kind (.seeded live x)) ∧ x.ticket = k
  /-- A job that was running goes on with its worker, or has ended as its own code does. -/
  running : ∀ (i : TaskId) (kind : WorkerKind) (source : Source) (k : Nat) (th : Thread ν),
    w.tasks[i]? = some (.worker e kind (.busy source k th)) →
      ∃ job, .submitted k job ∈ w.occurrences ∧ (v.Runs e i k job ∨ v.Ran e k job)
  /-- So has a job that a temporary worker was hired for, once it began, and it begins unless the
  hook ends the worker as it joins. -/
  seeds : ∀ (i : TaskId) (kind : WorkerKind) (live : Nat) (x : Entry ν),
    w.tasks[i]? = some (.worker e kind (.seeded live x)) →
      v.tasks[i]? = some (.worker e kind (.seeded live x)) ∨ v.Runs e i x.ticket x.job ∨
        v.Ran e x.ticket x.job ∨ v.LostBy e x.ticket
  /-- None of these is abandoned. -/
  spared : ∀ (i : TaskId) (task : Task ν) (k : Nat), w.tasks[i]? = some task →
    task.held? = some (e, k) → .abandoned e k ∉ v.occurrences
  /-- Whoever begins a job works for the epoch that accepted it. -/
  home : ∀ (i : TaskId) (j : EpochId) (k : Nat) (source : Source),
    .started j k i source ∈ v.occurrences → v.AcceptedBy e k →
      j = e ∧ ∃ kind state, v.tasks[i]? = some (.worker e kind state)

/-- A worker begins only jobs that its epoch accepted. -/
theorem Evolved.home_of_started (h : Evolved settings hook w) {j : EpochId}
    (hk : .started j k i source ∈ w.occurrences) (ha : w.AcceptedBy e k) :
    j = e ∧ ∃ kind state, w.tasks[i]? = some (.worker e kind state) := by
  have begins : (Booking.started j k).begins k = true := by simp [Booking.begins]
  obtain ⟨i', hi', heq | heq⟩ := h.ledger.accepted_of_begins (mem_books hk rfl) begins
  · obtain rfl : j = i' := by simpa using heq
    obtain rfl := h.ledger.accepted_unique ha hi'
    exact ⟨rfl, h.worker_of_started hk⟩
  · cases heq

/-- A job that a worker runs is still run by it later, or was run to its end. -/
theorem Evolved.runs_or_ran (h : Evolved settings hook w) (c : Changes w v) {th : Thread ν}
    (hi : w.tasks[i]? = some (.worker e kind (.busy source k th))) :
    ∃ job, .submitted k job ∈ w.occurrences ∧ (v.Runs e i k job ∨ v.Ran e k job) := by
  have later := h.changes c
  obtain ⟨job, hs, _, hend⟩ := (h.papers.tasks i _ hi).body e kind source k th rfl
  have hs' := (Changes.grows c).mem hs
  obtain ⟨th', hi', _⟩ | hf := c.busy hi
  · exact ⟨job, hs, .inl (later.runs hs' hi')⟩
  · exact ⟨job, hs, .inr (later.ran hs' (hend ▸ hf))⟩

/-- A job that a temporary worker was hired for still waits for it later, or is run by it, or was
run to its end, or the hook ended the worker as it joined. -/
theorem Evolved.fate_of_seeded (h : Evolved settings hook w) (c : Changes w v) {live : Nat}
    {x : Entry ν} (hi : w.tasks[i]? = some (.worker e kind (.seeded live x))) :
    v.tasks[i]? = some (.worker e kind (.seeded live x)) ∨ v.Runs e i x.ticket x.job ∨
      v.Ran e x.ticket x.job ∨ v.LostBy e x.ticket := by
  have later := h.changes c
  have hs := (Changes.grows c).mem ((h.papers.tasks i _ hi).seed e kind live x rfl).1
  obtain hi' | ⟨source, th', hi', _⟩ | hf | hl := c.seeded hi
  · exact .inl hi'
  · exact .inr (.inl (later.runs hs hi'))
  · exact .inr (.inr (.inl (later.ran hs hf)))
  · exact .inr (.inr (.inr (later.papers.lostBy (mem_books hl rfl))))

/-- A worker that was hired for a job or runs it spares it for good. -/
theorem Evolved.not_abandoned (h : Evolved settings hook w) (c : Changes w v) {task : Task ν}
    (hi : w.tasks[i]? = some task) (hh : task.held? = some (e, k)) :
    .abandoned e k ∉ v.occurrences := by
  have ledger := (h.changes c).ledger
  have busy : ∀ {kind source th}, v.tasks[i]? = some (.worker e kind (.busy source k th)) →
      .abandoned e k ∉ v.occurrences := fun ht => by
    have := holders_pos ht rfl
    exact ledger.not_abandoned (by omega)
  have finished : ∀ {ending}, .finished e k ending ∈ v.occurrences →
      .abandoned e k ∉ v.occurrences := fun hf => by
    have := List.count_pos_iff.2 (mem_books hf rfl)
    exact ledger.not_abandoned (by omega)
  obtain ⟨kind, live, x, rfl, rfl⟩ | ⟨kind, source, th, rfl⟩ := Task.held?_eq_some hh
  · obtain hv | ⟨_, _, hv, _⟩ | hf | hl := c.seeded hi
    · have := holders_pos hv rfl
      exact ledger.not_abandoned (by omega)
    · exact busy hv
    · exact finished hf
    · have := List.count_pos_iff.2 (mem_books hl rfl)
      exact ledger.not_abandoned (by omega)
  · obtain ⟨_, hv, _⟩ | hf := c.busy hi
    · exact busy hv
    · exact finished hf

/-- Nothing has been abandoned in an epoch when it is closed. -/
theorem Closes.abandonedIn_eq_nil {th : Thread ν} {below : List (Layer ν)}
    (h : Closes w u e t th below) (hd : w.Drained) (ho : (w.epoch e).closed = false) :
    u.abandonedIn e = [] := by
  refine List.eq_nil_iff_forall_not_mem.2 fun k hk => ?_
  have hclosed := hd.abandoned e k (h.abandoned k (mem_abandonedIn.1 hk))
  exact absurd (ho.symm.trans hclosed) (by decide)

/-- A stop takes effect at once and for good. Whichever move closes an epoch, whatever state it is
made in and whatever follows: the task that made it abandons what was queued, each job once and in
order, before it returns, and logs how many there were; no job of the epoch begins any more but
those that temporary workers were hired for before; these and the jobs that were running are run to
their own ends by their own workers, but for those whose worker the hook ends as it joins. -/
theorem stopped_of_closed (h : Reachable settings hook w) (m : Move w u)
    (ho : (w.epoch e).closed = false) (hc : (u.epoch e).closed = true) :
    ∃ t th below, Closes w u e t th below ∧ ∀ v, Run u v → Stopped w u v e t below th.body := by
  have hw := h.evolved
  have hu := hw.changes (m.changes hw.sound)
  obtain ⟨t, th, below, closes⟩ := m.closes hw.sound hw.orderly ho hc
  refine ⟨t, th, below, closes, fun v r => ?_⟩
  have later := hu.changes_of_run r
  have whole : Changes w v := (m.changes hw.sound).trans later
  have hv := hu.changes later
  have hnone := closes.abandonedIn_eq_nil hw.drained ho
  have hdrain : u.DrainsAt e t 0 below th.body :=
    ⟨th, closes.thread, rfl, closes.layers ▸ List.suffix_rfl⟩
  refine ⟨?_, hv.ledger.nodup_abandonedIn e, fun i k source hk => ?_,
    fun i kind source k th hi => hw.runs_or_ran whole hi,
    fun i kind live x hi => hw.fate_of_seeded whole hi,
    fun i task k hi hh => hw.not_abandoned whole hi hh,
    fun i j k source hk ha => hv.home_of_started hk ha⟩
  · obtain ⟨n, m, hd, faded⟩ | ⟨a, ha⟩ := hu.drainsAt_or_drainedAt hc hnone hdrain r
    · exact ⟨n, m, faded, .inl ⟨hd, hd.ready⟩⟩
    · obtain ⟨n, m, faded⟩ := hu.faded hc hnone r
      obtain rfl := faded.eq_length (ha.queue_eq_nil hu hc)
      rw [closes.queue] at ha faded
      exact ⟨_, m, faded, .inr ⟨rfl, a, ha⟩⟩
  · obtain hk | ⟨rfl, kind, live, x, hi, rfl⟩ := later.started_mem hu hc hk
    · exact .inl hk
    · refine .inr ⟨rfl, kind, live, x, ?_, rfl⟩
      rw [← closes.tasks i ?_, hi]
      rintro rfl
      have hth := closes.thread
      simp [thread?, hi, Task.thread?] at hth

/-- A hook that always panics. -/
def hostile : Hook := fun _ _ => some .unprintable

/-- A narrow pool with this hook, to which a client submitted three jobs before its worker began and
which it is about to stop. As they are abandoned the jobs start and stop the pool, and panic. -/
def crammed : World Nat :=
  [1, 1, 1].foldl step
    (({ settings := narrow, hook := some hostile : World Nat }.launch).spawn
      (.client { body :=
        ⟨List.replicate 3 (.submit ⟨[], .ok ()⟩ ⟨[.start, .stop], .error .unprintable⟩ 0 1 2) ++
          [.deed .stop], .ok ()⟩ }))

/-- The same pool after the stop has returned and the worker that was hired for the third job has
begun. -/
def cleared : World Nat := (List.replicate 12 1 ++ [2]).foldl step (crammed.step 1)

/-- The two jobs that were queued were abandoned and the stop has returned; the third job was
neither run nor abandoned. -/
theorem stopped_of_closed_cleared :
    Reachable narrow (some hostile) crammed ∧ (crammed.epoch 0).closed = false ∧
      ((crammed.step 1).epoch 0).closed = true ∧ Run (crammed.step 1) cleared ∧
      cleared.abandonedIn 0 = [0, 1] ∧ (cleared.thread? 1).map (·.layers.length) = some 0 ∧
      cleared.LostBy 0 2 ∧ cleared.calls 2 = 0 ∧
      ∃ t th below, Closes crammed (crammed.step 1) 0 t th below ∧
        Stopped crammed (crammed.step 1) cleared 0 t below th.body := by
  have reachable : Reachable narrow (some hostile) crammed :=
    (Reachable.launch _ narrow_valid).call _ [1, 1, 1]
  have run : Run (crammed.step 1) cleared := run_steps _ _
  have isOpen : (crammed.epoch 0).closed = false := by decide
  have closed : ((crammed.step 1).epoch 0).closed = true := by decide
  have move : Move crammed (crammed.step 1) := .step crammed 1
  have lost : cleared.LostBy 0 2 :=
    ((reachable.move move).run run).evolved.papers.lostBy (by decide)
  obtain ⟨t, th, below, closes, later⟩ := stopped_of_closed reachable move isOpen closed
  exact ⟨reachable, isOpen, closed, run, by decide, by decide, lost, by decide, t, th, below,
    closes, later cleared run⟩

end WorkerPool.World
