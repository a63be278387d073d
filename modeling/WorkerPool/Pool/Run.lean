import WorkerPool.Pool.Schedule

/-!
# Runs of a pool

A run takes a pool from one state to another by moves in any order: a task takes a step, time
passes, a client makes a call or breaks it off, passes are left at a gate. What lasts through steps
and lapses of time lasts through all that a schedule does by itself. So whatever a schedule does is
a run, and a law of all runs holds under every schedule.
-/

namespace WorkerPool

namespace World

variable {ν : Type}

/-- One move of a pool or of those around it. -/
inductive Move : World ν → World ν → Prop where
  /-- A task takes a step. -/
  | step (w : World ν) (t : TaskId) : Move w (w.step t)
  /-- Time passes. -/
  | pass (w : World ν) (time : Nat) (h : w.clock ≤ time) : Move w { w with clock := time }
  /-- A client makes a call. -/
  | post (w : World ν) (code : Script (Act ν) Unit) : Move w (w.spawn (.client { body := code }))
  /-- A client breaks off its call. -/
  | withdraw (w : World ν) (t : TaskId) : Move w (w.withdraw t)
  /-- Passes are left at a gate. -/
  | release (w : World ν) (gate : Int) (passes : Nat) :
    Move w { w with gates := w.gates.add gate passes }

/-- Any number of moves, one after the other. -/
inductive Run : World ν → World ν → Prop where
  | refl (w : World ν) : Run w w
  | tail {w v u : World ν} : Run w v → Move v u → Run w u

/-- A state that a pool with these settings and this hook may come to. -/
def Reachable (settings : Settings) (hook : Option Hook) (w : World ν) : Prop :=
  ∃ first, World.opened settings hook = .ok first ∧ Run first w

/-- No task can take a step. -/
def Settled (w : World ν) : Prop := ∀ t, w.ready t = false

namespace Run

theorem single {w v : World ν} (h : Move w v) : Run w v := .tail (.refl w) h

theorem trans {w v u : World ν} (h : Run w v) (h' : Run v u) : Run w u := by
  induction h' with
  | refl => exact h
  | tail _ m ih => exact .tail ih m

/-- What holds at first and survives every move holds at the end of a run. -/
theorem invariant {P : World ν → Prop} {w v : World ν} (h : Run w v) (first : P w)
    (keeps : ∀ v u, P v → Move v u → P u) : P v := by
  induction h with
  | refl => exact first
  | tail _ m ih => exact keeps _ _ ih m

end Run

/-- What holds of a world still holds after a step of a task and after a lapse of time. -/
structure Lasting (P : World ν → Prop) : Prop where
  step : ∀ w t, P w → P (w.step t)
  pass : ∀ w time, w.clock ≤ time → P w → P { w with clock := time }

/-- Steps and lapses of time go on with a run. -/
theorem lasting_run (w : World ν) : Lasting (Run w) where
  step v t h := .tail h (.step v t)
  pass v time hle h := .tail h (.pass v time hle)

end World

namespace Schedule

variable {ν : Type}

@[simp] theorem world_enlist (s : Schedule ν) : s.enlist.world = s.world := rfl

/-- Looking for the next task changes nothing but the queue. -/
theorem world_of_next? {s s' : Schedule ν} {t : TaskId} (h : s.next? = some (t, s')) :
    s'.world = s.world := by
  simp only [next?] at h
  split at h
  · cases h
    rfl
  · split at h
    · cases h
      rfl
    · cases h

end Schedule

namespace World.Lasting

variable {ν : Type} {P : World ν → Prop} {s : Schedule ν} (hP : Lasting P)

include hP

theorem runTask (t : TaskId) (n : Nat) {w : World ν} (h : P w) :
    P (Schedule.runTask t n w) := by
  induction n generalizing w with
  | zero => exact h
  | succ n ih =>
    rw [Schedule.runTask]
    split
    · exact ih (hP.step w t h)
    · exact h

/-- What lasts lasts through the turn of a task. -/
theorem turn (t : TaskId) (h : P s.world) : P (s.turn t).world := by
  unfold Schedule.turn
  simp only
  split <;> exact hP.runTask t s.bound h

theorem settleIn (n : Nat) (h : P s.world) : P (Schedule.settleIn n s).world := by
  induction n generalizing s with
  | zero => exact h
  | succ n ih =>
    rw [Schedule.settleIn]
    split
    · exact h
    · rename_i t s' next
      exact ih (hP.turn t (Schedule.world_of_next? next ▸ h))

/-- What lasts lasts until every task has to wait. -/
theorem settle (h : P s.world) : P s.settle.world := hP.settleIn s.bound h

theorem setClock (time : Nat) (h : P s.world) : P (s.setClock time).world :=
  hP.pass s.world _ (Nat.le_max_left ..) h

theorem passAlarms (time n : Nat) (h : P s.world) : P (Schedule.passAlarms time n s).world := by
  induction n generalizing s with
  | zero => exact h
  | succ n ih =>
    rw [Schedule.passAlarms]
    split
    · exact hP.settle h
    · split
      · exact ih (hP.setClock _ (hP.settle h))
      · exact hP.settle h

/-- What lasts lasts until a task is over. -/
theorem runUntilOver (t : TaskId) (n : Nat) (h : P s.world) : P (s.runUntilOver t n).world := by
  induction n generalizing s with
  | zero => exact h
  | succ n ih =>
    rw [Schedule.runUntilOver]
    split
    · exact hP.settle h
    · split
      · exact hP.settle h
      · exact ih (hP.setClock _ (hP.settle h))

/-- What holds once a call was made holds when its first turn is over. -/
theorem call {code : Script (Act ν) Unit} (h : P (s.world.spawn (.client { body := code }))) :
    P (s.call code).2.world := by
  let called : Schedule ν := { s with
    world := s.world.spawn (.client { body := code })
    enlisted := s.enlisted + 1 }
  exact hP.turn s.world.tasks.size (s := called) h

end World.Lasting

namespace Schedule

open World

variable {ν : Type}

/-- Settling is a run. -/
theorem run_settle (s : Schedule ν) : Run s.world s.settle.world :=
  (lasting_run s.world).settle (.refl _)

theorem run_setClock (s : Schedule ν) (time : Nat) : Run s.world (s.setClock time).world :=
  (lasting_run s.world).setClock time (.refl _)

/-- Letting time pass is a run. -/
theorem run_advanceTo (s : Schedule ν) (time : Nat) : Run s.world (s.advanceTo time).world := by
  have lasting := lasting_run s.world
  exact lasting.settle (lasting.setClock time (lasting.passAlarms time s.bound (.refl _)))

/-- Waiting for a task to be over is a run. -/
theorem run_runUntilOver (t : TaskId) (n : Nat) (s : Schedule ν) :
    Run s.world (s.runUntilOver t n).world :=
  (lasting_run s.world).runUntilOver t n (.refl _)

/-- Posting a call is a run. -/
theorem run_post (s : Schedule ν) (code : Script (Act ν) Unit) : Run s.world (s.post code).world :=
  .single (.post s.world code)

/-- A call made at once is a run. -/
theorem run_call (s : Schedule ν) (code : Script (Act ν) Unit) :
    Run s.world (s.call code).2.world :=
  (lasting_run s.world).call (.single (.post s.world code))

/-- Leaving passes at a gate is a run. -/
theorem run_release (s : Schedule ν) (gate : Int) (passes : Nat) :
    Run s.world (s.release gate passes).world :=
  .single (.release s.world gate passes)

end Schedule

end WorkerPool
