import WorkerPool.Load.Run
import WorkerPool.Proofs.Closed

/-!
# The course of a load run

The driver of a load run and the tasks of its pool take their steps in any order, and the run may be
interrupted between any two of them. A submission is a call that the driver waits for, and that it
breaks off if it is interrupted. Each answer that has come is counted, and the driver looks at the
count, in steps of their own. Of the counter of temporary workers the highest value is remembered.
-/

namespace WorkerPool

open World

/-- Where the driver of a load run stands. -/
inductive LoadStage where
  /-- It is about to submit task `next`, or waits for the answers if that is beyond the last one. -/
  | driving (next : Nat)
  /-- Task `n` is being submitted by a call. -/
  | submitting (n : Nat) (call : TaskId)
  /-- It is about to shut the pool down. -/
  | driven (interrupted : Bool)
  /-- The pool is being shut down by a call. -/
  | closing (interrupted : Bool) (call : TaskId)
  deriving DecidableEq, Repr

/-- A load run: its pool, its driver, and the counting of answers. -/
structure LoadState where
  world : World LoadNote
  stage : LoadStage := .driving 1
  race : Tally.Race

/-- How many answers have come. -/
def World.answers (w : World LoadNote) : Nat := w.occurrences.countP LoadRun.isAnswer

/-- Answers that have come stay. -/
theorem World.Changes.answers_le {w u : World LoadNote} (h : Changes w u) :
    w.answers ≤ u.answers := by
  obtain ⟨os, hos⟩ := h.grows.occurrences
  rw [answers, answers, ← hos, List.countP_append]
  exact Nat.le_add_right _ _

/-- What a load run counts, as it reads it off the journal. -/
def World.summary (w : World LoadNote) (interrupted : Bool) : LoadSummary :=
  w.journal.foldl (fun summary o => summary.observe o.what)
    { elapsedMillis := w.clock, interrupted }

/-- A step of counting leaves an answer counted, and adds one if it was not before. -/
theorem Tally.Counting.step_cases (c : Tally.Counting) (tally : Tally) :
    (c.step tally).1 ≠ .pending ∧
      (c.step tally).2.done = tally.done + if c = .pending then 1 else 0 := by
  cases c <;> simp [Tally.Counting.step]
  split_ifs <;> simp

/-- Whoever waits counts nothing. -/
theorem Tally.Waiting.done_step (waiting : Tally.Waiting) (count : Nat) (tally : Tally) :
    (waiting.step count tally).2.done = tally.done := by
  cases waiting <;> simp only [Waiting.step]
  split_ifs <;> rfl

/-- A race for `count` answers of which `answers` have come: no other ones were counted, and the
waiting is over only once all were. -/
structure Tally.Race.Honest (r : Race) (count answers : Nat) : Prop where
  done : r.tally.done = r.countings.countP (· ≠ .pending)
  late : ∀ c ∈ r.countings.drop answers, c = .pending
  waited : r.waiting = .finished → count ≤ r.tally.done

namespace Tally.Race.Honest

variable {r : Race} {count answers : Nat}

theorem start (count : Nat) : (Race.start count).Honest count 0 where
  done := by simp [Race.start, List.countP_replicate]
  late c hc := by
    rw [Race.start, List.drop_zero] at hc
    exact List.eq_of_mem_replicate hc
  waited h := by cases h

/-- More answers may come. -/
theorem mono (h : r.Honest count answers) {more : Nat} (hm : answers ≤ more) :
    r.Honest count more :=
  ⟨h.done, fun c hc => h.late c ((List.drop_sublist_drop_left _ hm).mem hc), h.waited⟩

/-- Whoever counts an answer that has come keeps the race honest. -/
theorem stepCounting (h : r.Honest count answers) {i : Nat} (hi : i < answers) :
    (r.stepCounting i).Honest count answers := by
  cases hc : r.countings[i]? with
  | none => simpa [Race.stepCounting, hc] using h
  | some c =>
    obtain ⟨hlt, rfl⟩ := List.getElem?_eq_some_iff.1 hc
    obtain ⟨counted, hdone⟩ := r.countings[i].step_cases r.tally
    have one := List.boole_getElem_le_countP (p := (· ≠ .pending)) hlt
    have heq : r.stepCounting i = { r with
        tally := (r.countings[i].step r.tally).2
        countings := r.countings.set i (r.countings[i].step r.tally).1 } := by
      simp [Race.stepCounting, hc]
    rw [heq]
    refine ⟨?_, fun c hc => h.late c ?_,
      fun hw => (h.waited hw).trans (hdone ▸ Nat.le_add_right ..)⟩
    · have hset := List.countP_set (p := (· ≠ Counting.pending))
        (a := (r.countings[i].step r.tally).1) (h := hlt)
      have done := h.done
      by_cases hp : r.countings[i] = .pending <;> simp_all
    · rwa [List.drop_set_of_lt hi] at hc

/-- Whoever waits keeps the race honest. -/
theorem stepWaiting (h : r.Honest count answers) : (r.stepWaiting count).Honest count answers := by
  obtain ⟨tally, countings, waiting⟩ := r
  have same : (waiting.step count tally).2.done = tally.done := waiting.done_step count tally
  refine ⟨same.trans h.done, h.late, fun hw => same ▸ ?_⟩
  cases waiting with
  | looking =>
    by_contra hlt
    simp [Race.stepWaiting, Waiting.step, hlt] at hw
  | finished => exact h.waited rfl
  | _ => simp only [Race.stepWaiting, Waiting.step] at hw; (try split_ifs at hw) <;> cases hw

/-- Once the waiting is over, all answers have come. -/
theorem le_of_finished (h : r.Honest count answers) (hf : r.waiting = .finished) :
    count ≤ answers := by
  have none : (r.countings.drop answers).countP (· ≠ .pending) = 0 := by
    simpa [List.countP_eq_zero] using h.late
  calc count ≤ r.tally.done := h.waited hf
    _ = (r.countings.take answers).countP (· ≠ .pending) := by
      rw [h.done, ← List.take_append_drop answers r.countings, List.countP_append, none,
        Nat.add_zero, List.take_append_drop]
    _ ≤ answers := List.countP_le_length.trans (List.length_take_le ..)

end Tally.Race.Honest

namespace LoadPlan

/-- One move of a load run. -/
inductive Move (p : LoadPlan) : LoadState → LoadState → Prop where
  /-- A task of the pool, or a call of the driver, takes a step. -/
  | step (s : LoadState) (t : TaskId) : Move p s { s with world := s.world.step t }
  /-- Time passes. -/
  | pass (s : LoadState) (time : Nat) (h : s.world.clock ≤ time) :
    Move p s { s with world := { s.world with clock := time } }
  /-- The driver submits the next task. -/
  | submit (s : LoadState) (n : Nat) (hs : s.stage = .driving n) (hn : n ≤ p.tasks) :
    Move p s { s with
      world := s.world.spawn (.client { body := p.submission n })
      stage := .submitting n s.world.tasks.size }
  /-- The driver sees that the task was accepted. -/
  | accepted (s : LoadState) (n : Nat) (t : TaskId) (hs : s.stage = .submitting n t)
    (ha : .note none (.accepted n) ∈ s.world.occurrences) :
    Move p s { s with stage := .driving (n + 1) }
  /-- The counting of an answer that has come takes a step. -/
  | count (s : LoadState) (i : Nat) (hi : i < s.world.answers) :
    Move p s { s with race := s.race.stepCounting i }
  /-- The driver, which has submitted every task, takes a step of waiting for the answers. -/
  | await (s : LoadState) (n : Nat) (hs : s.stage = .driving n) (hn : p.tasks < n) :
    Move p s { s with race := s.race.stepWaiting p.tasks }
  /-- The driver has waited for the last answer. -/
  | drained (s : LoadState) (n : Nat) (hs : s.stage = .driving n) (hn : p.tasks < n)
    (hr : s.race.waiting = .finished) : Move p s { s with stage := .driven false }
  /-- The driver is interrupted between two submissions or while it waits for the answers. -/
  | interrupted (s : LoadState) (n : Nat) (hs : s.stage = .driving n) :
    Move p s { s with world := s.world.log .loadInterrupted, stage := .driven true }
  /-- The driver is interrupted while it submits a task; the call is broken off. -/
  | brokenOff (s : LoadState) (n : Nat) (t : TaskId) (hs : s.stage = .submitting n t) :
    Move p s { s with world := (s.world.withdraw t).log .loadInterrupted, stage := .driven true }
  /-- The driver shuts the pool down. -/
  | close (s : LoadState) (i : Bool) (hs : s.stage = .driven i) :
    Move p s { s with
      world := s.world.spawn (.client { body := p.closing })
      stage := .closing i s.world.tasks.size }

/-- A load run of this plan may come to a state, and the highest value that the counter of temporary
workers has had meanwhile is `peak`. -/
inductive Course (p : LoadPlan) : LoadState → (peak : Nat) → Prop
  | opened {w : World LoadNote} (h : World.opened p.pool (some fun _ _ => none) = .ok w) :
    Course p { world := w, race := .start p.tasks } 0
  | move {s s' : LoadState} {peak : Nat} (h : Course p s peak) (m : p.Move s s') :
    Course p s' (max peak (s'.world.epoch 0).temps)

end LoadPlan

/-- A load run that has come to this state ends with this outcome: a submission was refused, or the
shutdown was answered. -/
inductive LoadState.Ends (s : LoadState) : Except PoolError LoadSummary → Prop
  | refused {n : Nat} {t : TaskId} (hs : s.stage = .submitting n t)
    (hr : .note none (.refused n) ∈ s.world.occurrences) : Ends s (.error .stopped)
  | answered {i : Bool} {t : TaskId} {answer : Except PoolError Unit} (hs : s.stage = .closing i t)
    (ha : .note none (.shutdown answer) ∈ s.world.occurrences) :
    Ends s (answer.map fun _ => s.world.summary i)

/-- The load run after these tasks of its pool have taken steps, in this order. -/
def LoadState.turns (s : LoadState) (order : List TaskId) : LoadState :=
  { s with world := order.foldl step s.world }

/-- The load run after task `n` was submitted and its call has taken its step. -/
def LoadState.submits (p : LoadPlan) (n : Nat) (s : LoadState) : LoadState :=
  { s with
    world := (s.world.spawn (.client { body := p.submission n })).step s.world.tasks.size
    stage := .submitting n s.world.tasks.size }

/-- The load run after the counting of these answers has taken a step, in this order. -/
def LoadState.counts (s : LoadState) (order : List Nat) : LoadState :=
  { s with race := order.foldl Tally.Race.stepCounting s.race }

/-- The load run after its driver has taken a step of waiting. -/
def LoadState.awaits (p : LoadPlan) (s : LoadState) : LoadState :=
  { s with race := s.race.stepWaiting p.tasks }

/-- The load run after its driver was told that task `n` was accepted. -/
def LoadState.accepts (s : LoadState) (n : Nat) : LoadState := { s with stage := .driving (n + 1) }

/-- The load run after its driver has called for the shutdown. -/
def LoadState.closes (p : LoadPlan) (interrupted : Bool) (s : LoadState) : LoadState :=
  { s with
    world := s.world.spawn (.client { body := p.closing })
    stage := .closing interrupted s.world.tasks.size }

namespace LoadPlan

variable {p : LoadPlan} {s s' : LoadState} {peak : Nat}

/-- A pool that was opened has just been started, with settings that are valid. -/
theorem launch_of_opened {ν : Type} {settings : Settings} {hook : Option Hook} {w : World ν}
    (h : World.opened settings hook = .ok w) :
    settings.Valid ∧ w = ({ settings, hook : World ν }).launch := by
  unfold World.opened at h
  split at h
  · cases h
  · rename_i hcheck
    cases h
    refine ⟨?_, rfl⟩
    rw [← Settings.fault?_eq_none_iff]
    unfold Settings.check at hcheck
    split at hcheck
    · cases hcheck
    · assumption

/-- Every move of a load run is made of changes of its pool. -/
theorem Move.changes (m : p.Move s s') (hw : s.world.Sound) : Changes s.world s'.world := by
  cases m with
  | step t => exact changes_step hw t
  | pass time h => exact .single (.aside (.passing s.world h))
  | submit n => exact .single (.posted (p.submission n))
  | interrupted => exact .single (.aside (.log _ _))
  | brokenOff n t => exact (changes_withdraw hw t).tail (.aside (.log _ _))
  | close => exact .single (.posted p.closing)
  | _ => exact .refl

/-- The pool of a load run goes from state to state as every pool does. -/
theorem Course.evolved (h : p.Course s peak) :
    Evolved p.pool (some fun _ _ => none) s.world := by
  induction h with
  | opened h =>
    obtain ⟨valid, rfl⟩ := launch_of_opened h
    exact .opened valid
  | move _ m ih => exact ih.changes (m.changes ih.sound)

/-- The answers that have come are counted, and no other ones. -/
theorem Course.honest (h : p.Course s peak) : s.race.Honest p.tasks s.world.answers := by
  induction h with
  | opened => exact (Tally.Race.Honest.start _).mono (Nat.zero_le _)
  | move before m ih =>
    have more := (m.changes before.evolved.sound).answers_le
    cases m with
    | count i hi => exact ih.stepCounting hi
    | await => exact ih.stepWaiting
    | _ => exact ih.mono more

/-- A load run of this plan may come to this state. -/
def Comes (p : LoadPlan) (s : LoadState) : Prop := ∃ peak, p.Course s peak

theorem Comes.move (h : p.Comes s) {s' : LoadState} (m : p.Move s s') : p.Comes s' := by
  obtain ⟨peak, h⟩ := h
  exact ⟨_, h.move m⟩

theorem Comes.turns (h : p.Comes s) (order : List TaskId) : p.Comes (s.turns order) := by
  induction order generalizing s with
  | nil => exact h
  | cons t order ih => exact ih (h.move (.step s t))

theorem Comes.submits (h : p.Comes s) {n : Nat} (hs : s.stage = .driving n) (hn : n ≤ p.tasks) :
    p.Comes (s.submits p n) :=
  (h.move (.submit s n hs hn)).move (.step _ _)

/-- A task that is accepted at once. -/
theorem Comes.accepts (h : p.Comes s) {n : Nat} (hs : s.stage = .driving n) (hn : n ≤ p.tasks)
    (ha : .note none (.accepted n) ∈ (s.submits p n).world.occurrences) :
    p.Comes ((s.submits p n).accepts n) :=
  (h.submits hs hn).move (.accepted (s.submits p n) n _ rfl ha)

/-- Answers that have come are counted in any order, step by step. -/
theorem Comes.counts (h : p.Comes s) (order : List Nat) (hi : ∀ i ∈ order, i < s.world.answers) :
    p.Comes (s.counts order) := by
  induction order generalizing s with
  | nil => exact h
  | cons i order ih =>
    exact ih (h.move (.count s i (hi i List.mem_cons_self))) fun j hj =>
      hi j (List.mem_cons_of_mem _ hj)

end LoadPlan

end WorkerPool
