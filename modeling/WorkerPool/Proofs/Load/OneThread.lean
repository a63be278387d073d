import WorkerPool.Proofs.Load.Accounts

/-!
# Load runs on one thread

A load that is run on one thread takes the course of a load run: its driver submits, counts and
waits in moves of a course, and the turns that its tasks get meanwhile are steps and the passing of
time. So what was proved of every course holds of such a run, as far as its bound on turns has
sufficed.
-/

namespace WorkerPool

open World

/-- The report is an answer to a shutdown. -/
def LoadNote.isShutdown : LoadNote → Bool
  | .shutdown _ => true
  | _ => false

namespace Tally

/-- The race in which so many answers were counted in full and no other one has begun to be. -/
def race (count : Nat) (tally : Tally) (waiting : Waiting) : Race where
  tally := tally
  countings := List.replicate tally.done .finished ++ List.replicate (count - tally.done) .pending
  waiting := waiting

variable {count : Nat} {tally : Tally} {waiting : Waiting}

/-- An answer is counted in full by three steps of its counting. -/
theorem stepCounting_race (h : tally.done < count) :
    (((tally.race count waiting).stepCounting tally.done).stepCounting tally.done).stepCounting
      tally.done = tally.record.race count waiting := by
  obtain ⟨rest, hrest⟩ : ∃ rest, count - tally.done = rest + 1 :=
    Nat.exists_eq_add_one_of_ne_zero (by omega)
  have fewer : count - (tally.done + 1) = rest := by omega
  have shape : List.replicate (tally.done + 1) Counting.finished =
      List.replicate tally.done .finished ++ [.finished] := List.replicate_succ'
  rw [record_eq]
  simp only [race, hrest, fewer, shape, List.replicate_succ]
  by_cases hlast : tally.done + 1 = tally.expected <;>
    simp [Race.stepCounting, Counting.step, hlast]

theorem stepWaiting_race : (tally.race count waiting).stepWaiting count =
    (waiting.step count tally).2.race count (waiting.step count tally).1 := by
  simp [race, Race.stepWaiting, Waiting.done_step]

/-- Waiting goes on by four steps. -/
theorem iterate_stepWaiting_race : (Race.stepWaiting count)^[4] (tally.race count waiting) =
    (waiting.go count tally).2.race count (waiting.go count tally).1 := by
  simp only [Function.iterate_succ_apply', Function.iterate_zero, id, stepWaiting_race]
  rfl

theorem done_go : (waiting.go count tally).2.done = tally.done := by
  simp only [Waiting.go, Nat.repeat, Waiting.done_step]

/-- Counting one answer after the other counts as many as there are. -/
theorem done_record_iterate (n : Nat) : (record^[n] tally).done = tally.done + n := by
  induction n with
  | zero => rfl
  | succ n ih => rw [Function.iterate_succ_apply', record_eq, ih, Nat.add_assoc]

/-- Answers that are counted as they are found in a journal. -/
theorem foldl_record (os : List (Stamped LoadNote)) :
    os.foldl (fun tally o => if LoadRun.isAnswer o.what then tally.record else tally) tally =
      record^[(os.map (·.what)).countP LoadRun.isAnswer] tally := by
  induction os generalizing tally with
  | nil => rfl
  | cons o os ih =>
    rw [List.foldl_cons, ih, List.map_cons, List.countP_cons]
    split_ifs <;> rfl

end Tally

namespace LoadRun

/-- The state that a run on one thread is in as a load run. -/
def state (r : LoadRun) : LoadState where
  world := r.schedule.world
  stage := match r.held with
    | none => .driving r.next
    | some t => .submitting (r.next - 1) t
  race := r.tally.race r.plan.tasks r.waiting

theorem stage_of_none {r : LoadRun} (hh : r.held = none) : r.state.stage = .driving r.next := by
  simp [state, hh]

theorem stage_of_some {r : LoadRun} {t : TaskId} (hh : r.held = some t) :
    r.state.stage = .submitting (r.next - 1) t := by simp [state, hh]

/-- A run on one thread is on its way as a load run: each answer in the part of the journal that it
has read is counted, and it has waited for the last one only after the last submission. -/
structure OnWay (p : LoadPlan) (r : LoadRun) : Prop where
  plan : r.plan = p
  comes : p.Comes r.state
  first : 0 < r.next
  last : r.next ≤ p.tasks + 1
  seen : r.seen ≤ r.schedule.world.occurrences.length
  done : r.tally.done = (r.schedule.world.occurrences.take r.seen).countP isAnswer
  waited : r.waiting = .finished → r.held = none ∧ p.tasks < r.next

end LoadRun

namespace LoadPlan

variable {p : LoadPlan} {s : LoadState} {w : World LoadNote}

/-- A load run may go on from this state to this world by steps of tasks and the passing of time. -/
def Ahead (p : LoadPlan) (s : LoadState) (w : World LoadNote) : Prop :=
  p.Comes { s with world := w } ∧ Changes s.world w

theorem lasting_ahead (p : LoadPlan) (s : LoadState) : Lasting (p.Ahead s) where
  step w t h := by
    obtain ⟨peak, course⟩ := h.1
    exact ⟨h.1.move (.step _ t), h.2.trans (changes_step course.evolved.sound t)⟩
  pass w time hle h := ⟨h.1.move (.pass _ time hle), h.2.tail (.aside (.passing w hle))⟩

/-- While tasks are submitted or answers awaited, no more answers come than there are tasks. -/
theorem Stands.answers_le {stage : LoadStage} (h : p.Stands w stage)
    (hw : Evolved p.pool (some fun _ _ => none) w)
    (hs : (∃ n, stage = .driving n) ∨ ∃ n t, stage = .submitting n t) : w.answers ≤ p.tasks := by
  cases h with
  | driving hm h => exact (h.answers_le hw mute_transcript).trans hm
  | asked hm h => exact (h.answers_le hw mute_transcript).trans hm.le
  | waits hm _ h =>
    refine (h.answers_le hw fun author n outcome hmem => ?_).trans hm
    obtain hmem | hmem := List.mem_append.1 hmem
    · exact mute_transcript author n outcome hmem
    · simp at hmem
  | told hm h => exact (h.answers_le hw mute_transcript).trans hm
  | _ => simp at hs

/-- A submission that is over was accepted. -/
theorem Stands.accepted_of_over {n : Nat} {t : TaskId} (h : p.Stands w (.submitting n t))
    (ho : w.tasks[t]?.all Task.isOver = true) : .note none (.accepted n) ∈ w.occurrences := by
  cases h with
  | asked _ _ ht =>
    rw [ht] at ho
    cases ho
  | waits _ _ _ ht =>
    rw [ht] at ho
    cases ho
  | told _ h =>
    rw [← mem_outer rfl, h.outer, transcript_succ]
    simp

/-- Wherever the driver stands, it alone has told the answer to a shutdown. -/
theorem Stands.eq_none_of_shutdown {stage : LoadStage} (h : p.Stands w stage)
    (hw : Evolved p.pool (some fun _ _ => none) w) {author : Option Nat}
    {answer : Except PoolError Unit} (hm : .note author (.shutdown answer) ∈ w.occurrences) :
    author = none := by
  obtain ⟨written, current, drawn, held, call, steered⟩ : ∃ written current drawn held call,
      p.Steered w written current drawn held call := by
    cases h with
    | winds h => exact ⟨_, _, _, _, _, h.steered⟩
    | driving _ h | asked _ h | waits _ _ h | told _ h | driven _ h | closes _ h | ended _ h =>
      exact ⟨_, _, _, _, _, h⟩
  cases author with
  | none => rfl
  | some k =>
    have silent : w.heard LoadNote.isShutdown k ≤ 0 := steered.heard_le _ hw (fun _ _ => le_rfl) k
    have spoken : 0 < w.heard LoadNote.isShutdown k :=
      List.countP_pos_iff.2 ⟨_, hm, by simp [Occurrence.isReport, LoadNote.isShutdown]⟩
    exact absurd spoken (Nat.not_lt.2 silent)

/-- The answer that is read off a journal is in it, if there is one. -/
theorem exists_shutdownAnswer {journal : Array (Stamped LoadNote)}
    (ha : ∃ o ∈ journal.toList, ∃ author answer, o.what = .note author (.shutdown answer)) :
    ∃ o ∈ journal.toList, ∃ author, o.what = .note author (.shutdown (shutdownAnswer journal)) := by
  obtain ⟨o, ho, author, answer, heq⟩ := ha
  rw [shutdownAnswer]
  generalize hf : Array.findSome? _ journal = found
  cases found with
  | none =>
    have none := Array.findSome?_eq_none_iff.1 hf o (Array.mem_toList_iff.1 ho)
    simp [heq] at none
  | some given =>
    obtain ⟨o, ho, heq⟩ := Array.exists_of_findSome?_eq_some hf
    refine ⟨o, Array.mem_toList_iff.2 ho, ?_⟩
    split at heq
    · rename_i author told hwhat
      cases heq
      exact ⟨author, hwhat⟩
    · cases heq

/-- Answers that have come are counted in full, one after the other. -/
theorem Comes.counted {tally : Tally} {waiting : Tally.Waiting} {n : Nat}
    (h : p.Comes { s with race := tally.race p.tasks waiting })
    (hn : tally.done + n ≤ s.world.answers) (ha : s.world.answers ≤ p.tasks) :
    p.Comes { s with race := (Tally.record^[n] tally).race p.tasks waiting } := by
  induction n with
  | zero => exact h
  | succ n ih =>
    have before := ih (Nat.le_of_succ_le hn)
    have fewer : (Tally.record^[n] tally).done < s.world.answers := by
      rw [Tally.done_record_iterate]
      exact hn
    rw [Function.iterate_succ_apply', ← Tally.stepCounting_race (fewer.trans_le ha)]
    refine before.counts (List.replicate 3 (Tally.record^[n] tally).done) fun i hi => ?_
    obtain rfl := List.eq_of_mem_replicate hi
    exact fewer

/-- Any number of steps of waiting for the answers. -/
theorem Comes.awaited (h : p.Comes s) {m : Nat} (hs : s.stage = .driving m) (hm : p.tasks < m)
    (n : Nat) : p.Comes { s with race := (Tally.Race.stepWaiting p.tasks)^[n] s.race } := by
  induction n with
  | zero => exact h
  | succ n ih =>
    rw [Function.iterate_succ_apply']
    exact ih.move (.await _ m hs hm)

end LoadPlan

namespace LoadRun.OnWay

open LoadPlan

variable {p : LoadPlan} {r : LoadRun} (h : OnWay p r)

include h

/-- Nothing but the pool has gone on. -/
theorem ahead {schedule : Schedule LoadNote} (ha : p.Ahead r.state schedule.world) :
    OnWay p { r with schedule } := by
  obtain ⟨comes, since⟩ := ha
  obtain ⟨os, hos⟩ := since.grows.occurrences
  have hos : r.schedule.world.occurrences ++ os = schedule.world.occurrences := hos
  exact {
    plan := h.plan, comes, first := h.first, last := h.last, waited := h.waited
    seen := by
      rw [← hos, List.length_append]
      exact h.seen.trans (Nat.le_add_right _ _)
    done := by
      rw [← hos, List.take_append_of_le_length h.seen]
      exact h.done }

theorem settle : OnWay p { r with schedule := r.schedule.settle } :=
  h.ahead ((p.lasting_ahead r.state).settle ⟨h.comes, .refl⟩)

theorem setClock (time : Nat) : OnWay p { r with schedule := r.schedule.setClock time } :=
  h.ahead ((p.lasting_ahead r.state).setClock time ⟨h.comes, .refl⟩)

/-- A submission that is over was accepted, and the driver sees it. -/
theorem told {t : TaskId} (hh : r.held = some t) (ho : r.schedule.isOver t = true) :
    OnWay p { r with held := none } := by
  obtain ⟨peak, course⟩ := h.comes
  have stands := course.stands.1
  rw [stage_of_some hh] at stands
  have moved := h.comes.move (.accepted _ _ t (stage_of_some hh) (stands.accepted_of_over ho))
  rw [Nat.sub_add_cancel h.first] at moved
  exact { h with
    comes := moved
    waited := fun hf => absurd (h.waited hf).1 (by simp [hh]) }

/-- The driver submits the next task. -/
theorem asked (hh : r.held = none) (hn : r.next ≤ p.tasks) :
    OnWay p { r with
      schedule := (r.schedule.call (r.plan.submission r.next)).2
      next := r.next + 1
      held := some r.schedule.world.tasks.size } := by
  obtain rfl := h.plan
  have posted : OnWay r.plan { r with
      schedule := { r.schedule with
        world := r.schedule.world.spawn (.client { body := r.plan.submission r.next })
        enlisted := r.schedule.enlisted + 1 }
      next := r.next + 1
      held := some r.schedule.world.tasks.size } := {
    plan := rfl
    comes := h.comes.move (.submit r.state r.next (stage_of_none hh) hn)
    first := Nat.succ_pos _
    last := Nat.succ_le_succ hn
    seen := h.seen
    done := h.done
    waited := fun hf => absurd (h.waited hf).2 (Nat.not_lt.2 hn) }
  exact posted.ahead ((r.plan.lasting_ahead _).turn _ ⟨posted.comes, .refl⟩)

/-- The driver submits tasks until one has to wait. -/
theorem submitUpTo {n : Nat} (hh : r.held = none) (hn : r.next + n = p.tasks + 1) :
    OnWay p (LoadRun.submitUpTo n r) := by
  induction n generalizing r with
  | zero => exact h
  | succ n ih =>
    have asked := h.asked hh (by omega)
    rw [LoadRun.submitUpTo]
    simp only
    split
    · rename_i ended
      have told := asked.told rfl ended
      rw [← hh] at told
      exact ih told hh (by simp only; omega)
    · exact asked

theorem submit : OnWay p r.submit := by
  unfold LoadRun.submit
  split
  · rename_i free
    have unheld : OnWay p { r with held := none } := by
      cases hh : r.held with
      | none => exact hh ▸ h
      | some t => exact h.told hh (by simpa [canSubmit, hh] using free)
    have last := h.last
    refine unheld.submitUpTo rfl ?_
    simp only [h.plan]
    omega
  · exact h

/-- The driver counts the answers in the part of the journal that it has not read. -/
theorem count : OnWay p r.count := by
  obtain rfl := h.plan
  obtain ⟨peak, course⟩ := h.comes
  have stage : (∃ n, r.state.stage = .driving n) ∨ ∃ n t, r.state.stage = .submitting n t := by
    cases hh : r.held with
    | none => exact .inl ⟨_, stage_of_none hh⟩
    | some t => exact .inr ⟨_, t, stage_of_some hh⟩
  have few : r.schedule.world.answers ≤ r.plan.tasks :=
    course.stands.1.answers_le course.evolved stage
  let fresh := (r.schedule.world.occurrences.drop r.seen).countP isAnswer
  have whole : r.tally.done + fresh = r.schedule.world.answers := by
    rw [h.done, ← List.countP_append, List.take_append_drop, answers]
  have read : r.count.tally = Tally.record^[fresh] r.tally := by
    simp only [LoadRun.count, ← Array.foldl_toList, Tally.foldl_record]
    simp [fresh, occurrences, List.take_of_length_le]
  have length : r.count.seen = r.schedule.world.occurrences.length := by
    simp [LoadRun.count, occurrences]
  exact {
    plan := rfl
    first := h.first
    last := h.last
    waited := h.waited
    comes := by
      have counted := Comes.counted (s := r.state) h.comes whole.le few
      rw [← read] at counted
      exact counted
    seen := length.le
    done := by
      rw [read, Tally.done_record_iterate, whole, length, answers]
      rw [show r.count.schedule = r.schedule from rfl, List.take_length] }

/-- The driver waits for the answers, if every task was submitted. -/
theorem await : OnWay p r.await := by
  unfold LoadRun.await
  split
  · rename_i ready
    obtain rfl := h.plan
    obtain ⟨hh, hn⟩ : r.held = none ∧ r.plan.tasks < r.next := by simpa using ready
    have waited := h.comes.awaited (stage_of_none hh) hn 4
    exact {
      plan := rfl
      comes := by
        rw [show r.state.race = r.tally.race r.plan.tasks r.waiting from rfl,
          Tally.iterate_stepWaiting_race] at waited
        exact waited
      first := h.first
      last := h.last
      seen := h.seen
      done := Tally.done_go.trans h.done
      waited := fun _ => ⟨hh, hn⟩ }
  · exact h

/-- The driver drives until every task was answered, or it is interrupted, or its turns are over. -/
theorem drive (interruption : Option Nat) (n : Nat) : OnWay p (r.drive interruption n).2 := by
  induction n generalizing r with
  | zero => exact h
  | succ n ih =>
    have waiting := h.submit.count.await
    have settled := waiting.settle.count.await
    rw [LoadRun.drive]
    simp only
    split
    · exact waiting
    split
    · exact waiting
    split
    · exact ih settled
    split
    · split
      · exact settled.setClock _
      · exact ih (settled.setClock _)
    · exact ih (settled.setClock _)
    · exact settled.setClock _
    · exact settled

/-- A run that was interrupted, or that has waited for the last answer, is driven no more. -/
theorem driven {interrupted : Bool} (hi : interrupted = true ∨ r.isDrained = true) :
    ∃ s, p.Comes s ∧ s.stage = .driven interrupted ∧
      s.world = (if interrupted then r.interrupt else r).schedule.world := by
  cases interrupted with
  | true =>
    cases hh : r.held with
    | none =>
      exact ⟨_, h.comes.move (.interrupted _ _ (stage_of_none hh)), rfl,
        by simp [interrupt, hh, state]⟩
    | some t =>
      exact ⟨_, h.comes.move (.brokenOff _ _ t (stage_of_some hh)), rfl,
        by simp [interrupt, hh, state]⟩
  | false =>
    have drained : r.waiting = .finished := by simpa [isDrained] using hi
    obtain ⟨hh, hn⟩ := h.waited drained
    exact ⟨_, h.comes.move (.drained _ _ (stage_of_none hh) hn drained), rfl, rfl⟩

/-- Its pool is shut down then. -/
theorem closed {interrupted : Bool} (hi : interrupted = true ∨ r.isDrained = true) :
    ∃ t s, p.Comes s ∧ s.stage = .closing interrupted t ∧
      s.world = (if interrupted then r.interrupt else r).close.schedule.world := by
  obtain ⟨s, comes, stage, world⟩ := h.driven hi
  have plan : (if interrupted then r.interrupt else r).plan = p := by split <;> exact h.plan
  generalize (if interrupted then r.interrupt else r) = r at world plan
  obtain rfl := plan
  let called : LoadState := { s with
    world := s.world.spawn (.client { body := r.plan.closing })
    stage := .closing interrupted s.world.tasks.size }
  have ahead : r.plan.Ahead called r.close.schedule.world := by
    have lasting := r.plan.lasting_ahead called
    refine lasting.runUntilOver _ _ (lasting.call (s := r.schedule) ?_)
    rw [← world]
    exact ⟨comes.move (.close s _ stage), .refl⟩
  exact ⟨_, _, ahead.1, rfl, rfl⟩

end LoadRun.OnWay

namespace LoadPlan

variable {p : LoadPlan} {interruption : Option Nat} {w : World LoadNote}

/-- How a run on one thread is driven, from a pool that was opened. -/
def driven (p : LoadPlan) (interruption : Option Nat) (w : World LoadNote) : Bool × LoadRun :=
  LoadRun.drive interruption p.bound { plan := p, schedule := .ofWorld w p.bound }

/-- The run on one thread after it was shut down. -/
def closed (p : LoadPlan) (interruption : Option Nat) (w : World LoadNote) : LoadRun :=
  (if (p.driven interruption w).1 then (p.driven interruption w).2.interrupt
    else (p.driven interruption w).2).close

theorem run_eq (hw : World.opened p.pool (some fun _ _ => none) = .ok w) :
    p.run interruption = ⟨(p.closed interruption w).schedule.world.journal,
      (shutdownAnswer (p.closed interruption w).schedule.world.journal).map fun _ =>
        (p.closed interruption w).schedule.world.summary (p.driven interruption w).1⟩ := by
  simp only [run, hw]
  rfl

theorem onWay_of_opened (hw : World.opened p.pool (some fun _ _ => none) = .ok w) :
    LoadRun.OnWay p { plan := p, schedule := .ofWorld w p.bound } where
  plan := rfl
  comes := ⟨0, .opened hw⟩
  first := Nat.one_pos
  last := Nat.succ_le_succ (Nat.zero_le _)
  seen := Nat.zero_le _
  done := rfl
  waited hf := by cases hf

/-- A load that is run on one thread takes the course of a load run and ends as that does: if it was
interrupted or has waited for the last answer, and its shutdown was answered, all within its bound
on turns. -/
theorem exists_ends_run (hw : World.opened p.pool (some fun _ _ => none) = .ok w)
    (hd : (p.driven interruption w).1 = true ∨ (p.driven interruption w).2.isDrained = true)
    (ha : ∃ o ∈ (p.run interruption).journal.toList, ∃ author answer,
      o.what = .note author (.shutdown answer)) :
    ∃ s, p.Comes s ∧ s.world.journal = (p.run interruption).journal ∧
      s.Ends (p.run interruption).outcome := by
  rw [run_eq hw] at ha ⊢
  obtain ⟨t, s, comes, stage, world⟩ := ((onWay_of_opened hw).drive interruption p.bound).closed hd
  obtain ⟨o, ho, author, heq⟩ := exists_shutdownAnswer ha
  have world : s.world = (p.closed interruption w).schedule.world := world
  rw [← world] at ho heq ⊢
  have told : .note author (.shutdown (shutdownAnswer s.world.journal)) ∈ s.world.occurrences :=
    List.mem_map.2 ⟨o, ho, heq⟩
  obtain ⟨peak, course⟩ := comes
  obtain rfl := course.stands.1.eq_none_of_shutdown course.evolved told
  exact ⟨s, ⟨peak, course⟩, rfl, .answered stage told⟩

example : (tightLoad.driven none tightStart.world).2.isDrained = true ∧
    (tightLoad.driven (some 0) tightStart.world).1 = true ∧
      (tightLoad.run none).journal.any (fun o => tellsClosed o.what) = true ∧
        (tightLoad.run (some 0)).journal.any (fun o => tellsClosed o.what) = true := by
  decide +kernel

end LoadPlan

end WorkerPool
