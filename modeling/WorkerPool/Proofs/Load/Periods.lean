import Mathlib.Data.Nat.Factorization.Basic
import WorkerPool.Proofs.Load.Accounts

/-!
# How many tasks panic, fail and succeed

Of the tasks of a load that was not interrupted each was run, so what became of them is a matter of
counting multiples: those of the one period panic, and those of the other one fail if they are not
multiples of both.
-/

namespace WorkerPool

open World

section Periods

variable {n d : Nat}

/-- Every so many numbers one is a multiple. -/
theorem isEvery_succ : isEvery (n + 1) d = decide (d ∣ n + 1) := by
  rw [Bool.eq_iff_iff, decide_eq_true_iff]
  obtain rfl | hd := Nat.eq_zero_or_pos d
  · simp [isEvery]
  · simp [isEvery, hd.ne', Nat.dvd_iff_mod_eq_zero]

/-- There are as many multiples as the period goes into the last number. -/
theorem sum_isEvery (n d : Nat) : ∑ k ∈ Finset.range n, (isEvery (k + 1) d).toNat = n / d := by
  rw [← Nat.card_multiples, Finset.card_filter]
  refine Finset.sum_congr rfl fun k _ => ?_
  rw [isEvery_succ]
  split_ifs with h <;> simp [h]

/-- The multiples of both periods are those of their least common multiple. -/
theorem isEvery_lcm (d e : Nat) :
    isEvery (n + 1) (d.lcm e) = (isEvery (n + 1) d && isEvery (n + 1) e) := by
  simp only [isEvery_succ, Nat.lcm_dvd_iff, Bool.decide_and]

end Periods

/-- The handler panicked with this message. -/
def Outcome.isPanickedAs {ρ ε : Type} (message : String) : Outcome ρ ε → Bool
  | .error (.panicked other) => other == message
  | _ => false

/-- What the summary of a load run says that was not interrupted. The quotient by zero is zero, as
the tasks of the period zero are none. -/
structure LoadPlan.Complete (p : LoadPlan) (summary : LoadSummary) : Prop where
  panicked : summary.panicked = p.tasks / p.panicEvery
  failed : summary.failed = p.tasks / p.failEvery - p.tasks / p.panicEvery.lcm p.failEvery
  ok : summary.ok = p.tasks - summary.panicked - summary.failed
  dropped : summary.dropped = 0
  /-- The first panic is that of one of the tasks that do. -/
  firstPanic : p.panicEvery ≠ 0 → p.panicEvery ≤ p.tasks → ∃ n, p.panicEvery ∣ n ∧ 0 < n ∧
    n ≤ p.tasks ∧ summary.firstPanic = some ("task " ++ Nat.repr n ++ " panicked on purpose")

namespace LoadPlan

variable {p : LoadPlan} {w : World LoadNote} {s : LoadState} {peak m n : Nat} {i b : Bool}

/-- Those tasks panic that are multiples of the one period. -/
theorem isPanicked_outcome : (p.outcome n).isPanicked = isEvery n p.panicEvery := by
  rw [outcome_eq]
  split_ifs with hp hf <;> simp_all [Outcome.isPanicked]

/-- Those tasks fail that are multiples of the other period alone. -/
theorem isFailed_outcome :
    (p.outcome n).isFailed = (isEvery n p.failEvery && !isEvery n p.panicEvery) := by
  rw [outcome_eq]
  split_ifs with hp hf <;> simp_all [Outcome.isFailed]

/-- The message of a task that panics. -/
theorem eq_of_outcome_eq_panicked {message : String}
    (h : p.outcome n = .error (.panicked message)) :
    isEvery n p.panicEvery = true ∧ message = "task " ++ Nat.repr n ++ " panicked on purpose" := by
  rw [outcome_eq] at h
  split_ifs at h with hp hf <;> cases h
  exact ⟨hp, rfl⟩

/-- Of the first tasks so many fail as are multiples of the one period but not of both. -/
theorem sum_isFailed (p : LoadPlan) (n : Nat) :
    ∑ k ∈ Finset.range n, (p.outcome (k + 1)).isFailed.toNat =
      n / p.failEvery - n / p.panicEvery.lcm p.failEvery := by
  have split : ∀ k, (isEvery (k + 1) p.failEvery).toNat = (p.outcome (k + 1)).isFailed.toNat +
      (isEvery (k + 1) (p.panicEvery.lcm p.failEvery)).toNat := by
    intro k
    rw [isFailed_outcome, isEvery_lcm]
    cases isEvery (k + 1) p.failEvery <;> cases isEvery (k + 1) p.panicEvery <;> rfl
  rw [← sum_isEvery n p.failEvery, ← sum_isEvery n (p.panicEvery.lcm p.failEvery),
    Finset.sum_congr rfl fun k _ => split k, Finset.sum_add_distrib, Nat.add_sub_cancel]

section Over

variable (h : p.Over w i m b) (hw : Evolved p.pool (some fun _ _ => none) w)

include h hw

/-- The first panic that is answered is that of a task of the pool. -/
theorem Over.exists_of_firstPanic {message : String}
    (hm : w.occurrences.findSome? Occurrence.panic? = some message) :
    ∃ k < m, p.reply w k = .error (.panicked message) := by
  obtain ⟨o, ho, hpanic⟩ := List.exists_of_findSome?_eq_some hm
  have answered : 0 < w.occurrences.countP
      (Occurrence.isNote (LoadNote.answers (Outcome.isPanickedAs message))) := by
    refine List.countP_pos_iff.2 ⟨o, ho, ?_⟩
    rcases o with ⟨_, _ | _ | ⟨_, ⟨_ | _ | _⟩ | _⟩ | _⟩ | _ <;> cases hpanic
    simp [Occurrence.isNote, LoadNote.answers, Outcome.isPanickedAs]
  rw [h.countP_answers hw] at answered
  obtain ⟨k, hk, hq⟩ := Finset.exists_ne_zero_of_sum_ne_zero answered.ne'
  refine ⟨k, Finset.mem_range.1 hk, ?_⟩
  rcases hr : p.reply w k with (_ | other | _) | _ <;> simp [hr, Outcome.isPanickedAs] at hq
  rw [hq]

/-- A load run that comes to its end in time and was not interrupted is complete. -/
theorem Over.complete (heights : Heights w peak) (hi : i = false) : p.Complete (w.summary i) := by
  obtain ⟨rfl, replies⟩ := h.reply_eq hi
  have counted : ∀ q : Outcome Nat String → Bool,
      ∑ k ∈ Finset.range p.tasks, (q (p.reply w k)).toNat =
        ∑ k ∈ Finset.range p.tasks, (q (p.outcome (k + 1))).toNat := fun q =>
    Finset.sum_congr rfl fun k hk => by rw [replies k (Finset.mem_range.1 hk)]
  have panicked : ∑ k ∈ Finset.range p.tasks, (p.reply w k).isPanicked.toNat =
      p.tasks / p.panicEvery := by
    rw [counted, ← sum_isEvery]
    simp only [isPanicked_outcome]
  have failed : ∑ k ∈ Finset.range p.tasks, (p.reply w k).isFailed.toNat =
      p.tasks / p.failEvery - p.tasks / p.panicEvery.lcm p.failEvery := by
    rw [counted, sum_isFailed]
  have dropped : ∑ k ∈ Finset.range p.tasks, (p.reply w k).isDropped.toNat = 0 := by
    rw [counted]
    simp [isDropped_outcome]
  have kinds := Outcome.sum_kinds (p.reply w) p.tasks
  have some_iff := isSome_findSome?_panic (w := w)
  rw [h.countP_answers hw, panicked] at some_iff
  rw [h.summary_eq hw heights]
  refine ⟨panicked, failed, ?_, dropped, fun hp hle => ?_⟩
  · simp only
    omega
  · obtain ⟨message, hm⟩ :=
      Option.isSome_iff_exists.1 (some_iff.2 (Nat.div_pos hle (Nat.pos_of_ne_zero hp)))
    obtain ⟨k, hk, hreply⟩ := h.exists_of_firstPanic hw hm
    rw [replies k hk] at hreply
    obtain ⟨hevery, rfl⟩ := eq_of_outcome_eq_panicked hreply
    rw [isEvery_succ, decide_eq_true_iff] at hevery
    exact ⟨k + 1, hevery, Nat.succ_pos k, hk, hm⟩

end Over

/-- A load run that comes to its end in time and was not interrupted has run each task once,
whatever the sizes of its pool are and in whatever order its tasks and its driver have taken their
steps. -/
theorem Course.complete_of_ends (h : p.Course s peak) {summary : LoadSummary}
    (he : s.Ends (.ok summary)) (hi : summary.interrupted = false) : p.Complete summary := by
  obtain hlate | ⟨i, m, b, hok, ended⟩ := h.over_of_ends he
  · cases hlate
  · obtain rfl := Except.ok.inj hok
    refine ended.complete h.evolved h.stands.2 ?_
    rwa [World.summary_eq] at hi

/-- The load run after all tasks were run. -/
def tightServed : LoadState :=
  tightWaiting.turns (List.replicate 5 1 ++ [7] ++ List.replicate 4 5 ++ List.replicate 6 0 ++
    List.replicate 4 1 ++ List.replicate 6 0)

/-- The load run after all tasks were answered, and counted step by step. -/
def tightAnswered : LoadState :=
  (tightServed.accepts 5).counts [0, 1, 0, 2, 1, 3, 4, 4, 4, 3, 3, 2, 2, 1, 0]

theorem comes_tightAnswered : tightLoad.Comes tightAnswered := by
  have served : tightLoad.Comes tightServed := comes_tightWaiting.turns _
  have answers : tightServed.world.answers = 5 := by decide +kernel
  have accepted : tightLoad.Comes (tightServed.accepts 5) :=
    served.move (.accepted tightServed 5 7 rfl (accepted_mem_of_any (by decide +kernel)))
  refine accepted.counts _ fun i hi => ?_
  rw [LoadState.accepts, answers]
  revert i
  decide

/-- The load run after its driver has waited for the answers. -/
def tightDriven : LoadState :=
  { (tightAnswered.awaits tightLoad).awaits tightLoad with stage := .driven false }

theorem comes_tightDriven : tightLoad.Comes tightDriven := by
  have looked : tightLoad.Comes (tightAnswered.awaits tightLoad) :=
    comes_tightAnswered.move (.await tightAnswered 6 rfl (by decide))
  have waited : tightLoad.Comes ((tightAnswered.awaits tightLoad).awaits tightLoad) :=
    looked.move (.await _ 6 rfl (by decide))
  exact waited.move (.drained _ 6 rfl (by decide) (by decide +kernel))

/-- The load run after it was shut down. -/
def tightCompleted : LoadState :=
  (tightDriven.closes tightLoad false).turns
    ([8, 8, 8] ++ [0, 0, 0] ++ List.replicate 5 5 ++ List.replicate 9 1 ++ [8])

theorem comes_tightCompleted : tightLoad.Comes tightCompleted :=
  (comes_tightDriven.move (.close tightDriven false rfl)).turns _

/-- Of the five tasks two panic, one fails, and the other two succeed. -/
theorem complete_of_ends_tight : tightLoad.Comes tightCompleted ∧
    tightCompleted.Ends (.ok (tightCompleted.world.summary false)) ∧
      (tightCompleted.world.summary false).interrupted = false ∧
        tightLoad.Complete (tightCompleted.world.summary false) ∧
          (tightCompleted.world.summary false).panicked = 2 := by
  have answer : Occurrence.note none (.shutdown (.ok ())) ∈ tightCompleted.world.occurrences :=
    closed_mem_of_any (by decide +kernel)
  have ends : tightCompleted.Ends (.ok (tightCompleted.world.summary false)) :=
    .answered rfl answer
  have whole : (tightCompleted.world.summary false).interrupted = false := by decide +kernel
  obtain ⟨peak, course⟩ := comes_tightCompleted
  have complete := course.complete_of_ends ends whole
  exact ⟨⟨peak, course⟩, ends, whole, complete, complete.panicked⟩

end LoadPlan

end WorkerPool
