import WorkerPool.Proofs.Drains
import WorkerPool.Proofs.Reports
import WorkerPool.Proofs.Stillness

/-!
# A pool at rest

When a pool was never stopped, no task of it can take a step and no job is under way, then nothing
is left to do: nothing is queued, buffered or seeded, and no report is still to be made. If its hook
never panics, every job that was accepted was run to its end.
-/

namespace WorkerPool.World

variable {ν : Type} {w u : World ν} {e : EpochId} {k : Nat}

/-- No task can take a step, no worker is inside of a job, and no epoch was stopped. -/
structure AtRest (w : World ν) : Prop where
  settled : w.Settled
  idle : ∀ task ∈ w.tasks.toList, task.running? = none
  unstopped : ∀ ep ∈ w.epochs.toList, ep.closed = false

/-- Only tasks that are there can take a step. -/
theorem Settled.of_lt (h : ∀ t < w.tasks.size, w.ready t = false) : w.Settled := by
  intro t
  by_cases ht : t < w.tasks.size
  · exact h t ht
  · rw [ready, Array.getElem?_eq_none (Nat.not_lt.1 ht)]

/-- Where no task can take a step, no drain and no callback is under way. -/
theorem Settled.layers_eq_nil (h : w.Settled) {t : TaskId} {task : Task ν} {th : Thread ν}
    (ht : w.tasks[t]? = some task) (hth : task.thread? = some th) : th.layers = [] := by
  have hready := h t
  rw [ready, ht] at hready
  obtain ⟨_, _, _, _, rfl⟩ | ⟨_, _, rfl, _⟩ | rfl := Task.thread?_eq_some hth
  · simp only [threadReady, Bool.or_eq_false_iff, Bool.not_eq_false', List.isEmpty_iff] at hready
    exact hready.1
  · cases hready
  · by_contra hne
    simp [threadReady, Thread.isOver, hne] at hready

namespace AtRest

/-- No worker is inside of a job. -/
theorem not_busy (h : w.AtRest) {t : TaskId} {kind : WorkerKind} {source : Source} {th : Thread ν} :
    w.tasks[t]? ≠ some (.worker e kind (.busy source k th)) := by
  intro ht
  have hrunning := h.idle _ (List.mem_of_getElem? (by rwa [Array.getElem?_toList]))
  cases hrunning

/-- Every epoch is open. -/
theorem closed_eq_false (h : w.AtRest) (e : EpochId) : (w.epoch e).closed = false := by
  by_cases he : e < w.epochs.size
  · have hmem : w.epochs[e] ∈ w.epochs.toList := by simp
    have hep : w.epoch e = w.epochs[e] := by simp [epoch, he]
    rw [hep]
    exact h.unstopped _ hmem
  · rw [epoch_of_size_le _ _ (Nat.not_lt.1 he)]

/-- No report is still to be made. -/
theorem unheard_eq_zero (h : w.AtRest) (sel : ν → Bool) (k : Nat) : w.unheard sel k = 0 := by
  apply w.total_eq_zero
  intro t task ht
  cases hth : task.thread? with
  | none => simp [Task.reports, hth]
  | some th =>
    have hauthor : task.author? = none := by
      by_contra hne
      obtain ⟨i, hi⟩ := Option.ne_none_iff_exists'.1 hne
      obtain ⟨_, _, _, _, rfl⟩ := Task.author?_eq_some hi
      exact h.not_busy ht
    rw [reports_of_thread? sel hth, Thread.reports, h.settled.layers_eq_nil ht hth, hauthor]
    rfl

/-- No worker holds a job. -/
theorem holders_eq_zero (h : w.AtRest) (e : EpochId) (k : Nat) : w.holders e k = 0 := by
  apply w.total_eq_zero
  intro t task ht
  apply if_neg
  intro hheld
  have hready := h.settled t
  rw [ready, ht] at hready
  obtain ⟨_, _, _, rfl, _⟩ | ⟨_, _, _, rfl⟩ := Task.held?_eq_some hheld
  · cases hready
  · exact h.not_busy ht

/-- If the hook is calm, nothing is queued, in the intake, or buffered. -/
theorem entries_eq_nil {settings : Settings} {hook : Option Hook} (h : w.AtRest)
    (hv : Evolved settings hook w) (calm : Calm hook) (e : EpochId) :
    (w.epoch e).entries = [] := by
  by_cases he : e < w.epochs.size
  case neg => rw [epoch_of_size_le _ _ (Nat.not_lt.1 he)]; rfl
  have valid : w.settings.Valid := hv.same.1 ▸ hv.valid
  have still := h.settled.stillIn e
  have ho := h.closed_eq_false e
  obtain ⟨hfree, _⟩ := still.intake hv.sound hv.orderly hv.manned hv.dispatched he ho
  have hqueues : ¬ ((w.epoch e).primary ≠ [] ∨ (w.epoch e).temp ≠ []) := by
    intro hq
    obtain ⟨t, source, k, th, ht⟩ :=
      still.permanent hv.manned (hv.staffed calm) he ho hq valid.minWorkers_pos
    exact h.not_busy ht
  simp only [ne_eq, not_or, not_not] at hqueues
  have hbacklog : (w.epoch e).backlog = [] := by
    by_contra hb
    have hfull := (still.backlog hv.manned hv.dispatched he ho hb).1
    have hpos := valid.primaryCapacity_pos
    rw [hqueues.1, List.length_nil] at hfull
    omega
  simp [Epoch.entries, hqueues.1, hqueues.2, (Intake.isFree_iff.1 hfree).1, hbacklog]

end AtRest

/-- A job is lost only where the hook panics as a worker joins. -/
theorem Change.lost_mem (c : Change w u) (calm : Calm w.hook) {t : TaskId}
    (hk : .lost e k t ∈ u.occurrences) : .lost e k t ∈ w.occurrences := by
  cases c with
  | aside ha => exact ha.mem hk rfl
  | code _ _ h => exact h.lost_mem hk
  | @lost j i kind live x _ hh =>
    rw [callHook_of_calm w i j calm] at hh
    cases hh
  | welcomed => simpa [World.assign, mem_hookTrace_iff] using hk
  | finished _ _ hos =>
    obtain ⟨_, rfl⟩ | ⟨p, _, rfl⟩ := hos <;> simpa [mem_hookTrace_iff] using hk
  | retired => simpa [mem_hookTrace_iff] using hk
  | claimed => simpa [World.assign] using hk
  | _ => simpa [takeIn, shutIntake] using hk

/-- A calm hook loses no job. -/
theorem Evolved.not_lost {settings : Settings} {hook : Option Hook} (h : Evolved settings hook w)
    (calm : Calm hook) (e : EpochId) (k : Nat) : .lost e k ∉ w.books := by
  have never : ∀ t, .lost e k t ∉ w.occurrences := by
    induction h with
    | opened =>
      intro t hk
      rw [occurrences_launch] at hk
      simp [occurrences] at hk
    | next h c ih => exact fun t hk => ih t (c.lost_mem (by rw [h.same.2]; exact calm) hk)
  intro hk
  obtain ⟨t, _, _, _, _, ht⟩ := h.papers.lostBy hk
  exact never t ht

/-- A job that a pool at rest accepted was run once, to its end, and was not abandoned. -/
theorem AtRest.started {settings : Settings} {hook : Option Hook} (h : w.AtRest)
    (hv : Evolved settings hook w) (calm : Calm hook) (ha : w.AcceptedBy e k) :
    w.books.count (.started e k) = 1 ∧ w.books.count (.finished e k) = 1 ∧
      w.books.count (.abandoned e k) = 0 := by
  have ledger := hv.ledger
  have hstock : w.stock e k = 0 := by
    rw [stock, h.entries_eq_nil hv calm]
    rfl
  have hlost : w.books.count (.lost e k) = 0 := List.count_eq_zero.2 (hv.not_lost calm e k)
  have habandoned : w.books.count (.abandoned e k) = 0 := by
    apply List.count_eq_zero.2
    intro hm
    have hclosed := hv.drained.abandoned e k (abandoned_mem_books.1 hm)
    rw [h.closed_eq_false e] at hclosed
    cases hclosed
  have haccepted := ledger.count_accepted ha e
  rw [if_pos rfl] at haccepted
  have hholders := h.holders_eq_zero e k
  have hrunners := w.runners_le_holders e k
  have hkept := ledger.kept e k
  have hbegun := ledger.begun e k
  omega

/-- A job that a pool at rest accepted has reported what its body says, and nothing else. -/
theorem AtRest.heard_eq {settings : Settings} {hook : Option Hook} (h : w.AtRest)
    (hv : Evolved settings hook w) (calm : Calm hook) {sel : ν → Bool} {job : Job ν}
    (hd : job.Discreet sel) (hs : .submitted k job ∈ w.occurrences) (ha : w.AcceptedBy e k) :
    w.heard sel k = (job.run.acts.map (Act.reports sel)).sum := by
  have ledger := hv.ledger
  obtain ⟨hstarted, _, habandoned⟩ := h.started hv calm ha
  have kept := hv.kept sel k job (fun job' hj => ledger.job_unique hs hj) hd
  rw [h.unheard_eq_zero, promised, ledger.starts_eq ha, ledger.abandons_eq ha, hstarted,
    habandoned] at kept
  omega

end WorkerPool.World
