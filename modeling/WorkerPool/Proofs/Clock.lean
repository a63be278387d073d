import WorkerPool.Proofs.Hooks

/-!
# Time

Tasks take their steps at one moment: a step does not turn the clock, and what it writes into the
journal bears the time at which it was taken. On a virtual clock, moreover, time passes only while
no task can take a step.
-/

namespace WorkerPool.World

variable {ν : Type} {w v u : World ν} {t : TaskId} {a : Option Nat}

/-- On the way from `w` to `u` no time has passed, and whatever was written into the journal bears
the time of `w`. -/
structure Dated (w u : World ν) : Prop where
  clock : u.clock = w.clock
  journal : ∃ os : List (Occurrence ν),
    u.journal.toList = w.journal.toList ++ os.map (Stamped.mk w.clock)

namespace Dated

theorem of_same (hc : u.clock = w.clock) (hj : u.journal = w.journal) : Dated w u :=
  ⟨hc, [], by simp [hj]⟩

theorem refl (w : World ν) : Dated w w := of_same rfl rfl

theorem trans (h : Dated w v) (h' : Dated v u) : Dated w u := by
  obtain ⟨hc, os, hos⟩ := h
  obtain ⟨hc', os', hos'⟩ := h'
  exact ⟨hc'.trans hc, os ++ os', by simp [hos', hos, hc]⟩

theorem record (h : Dated w u) (o : Occurrence ν) : Dated w (u.record o) :=
  h.trans ⟨rfl, [o], by simp [World.record]⟩

theorem recordAll (h : Dated w u) (os : List (Occurrence ν)) : Dated w (u.recordAll os) := by
  induction os generalizing u with
  | nil => exact h
  | cons o os ih => exact ih (h.record o)

theorem log (h : Dated w u) (notice : Notice) : Dated w (u.log notice) := h.record _

theorem setTask (h : Dated w u) (t : TaskId) (task : Task ν) : Dated w (u.setTask t task) :=
  h.trans (of_same rfl rfl)

theorem modifyEpoch (h : Dated w u) (e : EpochId) (f : Epoch ν → Epoch ν) :
    Dated w (u.modifyEpoch e f) :=
  h.trans (of_same rfl rfl)

theorem callHook (h : Dated w u) (e : EpochId) (t : TaskId) (call : HookCall) :
    Dated w (u.callHook e t call).2 := by
  obtain ⟨n, hn⟩ := u.callHook_eq e t call
  rw [hn]
  exact (h.recordAll _).trans (of_same rfl rfl)

theorem launch (h : Dated w u) : Dated w u.launch := by
  rw [launch_eq]
  exact (h.recordAll [.opened u.epochs.size,
    .log none (.poolStarted u.settings.minWorkers u.settings.maxTemps)]).trans (of_same rfl rfl)

theorem retire (h : Dated w u) : Dated w u.retire.2 := by
  unfold World.retire
  split
  · exact h.trans (of_same rfl rfl)
  · exact h

/-- A stop is written down; a pool that does not run is left alone. -/
theorem halt (h : Dated w u) : Dated w u.halt.2 := by
  have retired := h.retire
  unfold World.halt
  rcases hr : u.retire with ⟨_ | e, x⟩ <;> rw [hr] at retired
  · exact retired
  · exact (retired.modifyEpoch e _).record _

theorem letGo (h : Dated w u) : Dated w u.letGo.2 := by
  unfold World.letGo
  split
  · exact h
  · exact halt (h.trans (of_same rfl rfl))
  · exact h.trans (of_same rfl rfl)

theorem conclude (h : Dated w u) (a : Option Nat) (th : Thread ν) (answer : ν) :
    Dated w (u.conclude a th answer).2 := (h.record _).letGo

end Dated

section Code

variable {th : Thread ν}

/-- A deed takes no time. -/
theorem dated_perform (w : World ν) (a : Option Nat) (d : Deed ν) : Dated w (w.perform a d).2 := by
  have refl := Dated.refl w
  cases d with
  | note | log => exact refl.record _
  | start =>
    simp only [perform, start]
    split_ifs
    · exact refl
    · exact refl
    · exact refl.launch
  | stop =>
    simp only [perform]
    split_ifs
    · exact refl
    · exact refl.halt
  | hold =>
    simp only [perform]
    split_ifs
    · exact refl
    · exact .of_same rfl rfl
  | drop => exact refl.letGo

/-- Neither do drains and callbacks. -/
theorem dated_stepLayers (w : World ν) (layers : List (Layer ν)) :
    Dated w (w.stepLayers layers).2 := by
  have refl := Dated.refl w
  rcases layers with _ | ⟨⟨e, n⟩ | ⟨k, _ | ⟨d, ds⟩, _ | p⟩, rest⟩
  · exact refl
  · simp only [stepLayers]
    split
    · exact (refl.modifyEpoch e _).record _
    · dsimp only
      split_ifs
      · exact refl
      · exact refl.log _
  · exact refl.log _
  · exact refl
  · exact w.dated_perform (some k) d
  · exact w.dated_perform (some k) d

/-- A submission takes no time until it is answered or stands in line. -/
theorem dated_submit (w : World ν) (t : TaskId) (x : Entry ν) : Dated w (w.submit t x).2 := by
  have refl := Dated.refl w
  have hired : ∀ e, Dated w (w.hire e x) := fun e =>
    ((refl.modifyEpoch e _).record _).trans (.of_same rfl rfl)
  unfold submit
  split
  · exact refl.record _
  · split
    · exact (refl.modifyEpoch _ _).record _
    · exact refl.record _
    · split
      · exact hired _
      · split_ifs
        · exact hired _
        · exact (refl.modifyEpoch _ _).record _
        · exact refl.modifyEpoch _ _

theorem dated_submitGranted (w : World ν) (t : TaskId) (e : EpochId) (x : Entry ν) :
    Dated w (w.submitGranted t e x).2 := by
  unfold submitGranted
  split <;> exact ((Dated.refl w).modifyEpoch e _).record _

theorem dated_awaitExits (w : World ν) (a : Option Nat) (th : Thread ν) (e : EpochId)
    (deadline : Nat) (timeout : Duration) (done late : ν) :
    Dated w (w.awaitExits a th e deadline timeout done late).2 := by
  unfold awaitExits
  split_ifs
  · exact ((Dated.refl w).log _).conclude a th done
  · exact ((Dated.refl w).log _).conclude a th late
  · exact .refl w

/-- An act of a body takes no time: to wait is to stand still. -/
theorem dated_stepAct (w : World ν) (t : TaskId) (a : Option Nat) (th : Thread ν) (act : Act ν) :
    Dated w (w.stepAct t a th act).2 := by
  have refl := Dated.refl w
  cases act with
  | deed d => exact w.dated_perform a d
  | pass gate => exact .of_same rfl rfl
  | sleep time =>
    simp only [stepAct]
    split <;> exact refl
  | submit run abandon accepted refused gone =>
    simp only [stepAct]
    split
    · rename_i e k _
      have answered := w.dated_submitGranted t e ⟨k, ⟨run, abandon⟩⟩
      rcases hr : w.submitGranted t e ⟨k, ⟨run, abandon⟩⟩ with ⟨answer, u⟩
      rw [hr] at answered
      cases answer <;> exact answered.conclude a th _
    · split_ifs
      · exact refl.record _
      · have drawn : Dated w
            { w with nextTicket := w.nextTicket + 1, handles := w.handles + 1 } :=
          .of_same rfl rfl
        have answered := (drawn.record (.submitted w.nextTicket ⟨run, abandon⟩)).trans
          (dated_submit _ t ⟨w.nextTicket, ⟨run, abandon⟩⟩)
        split <;> rename_i hr <;> rw [hr] at answered
        · exact answered.conclude a th _
        · exact answered.conclude a th _
        · exact answered
  | shutdown timeout done late gone =>
    simp only [stepAct]
    split
    · exact w.dated_awaitExits a th _ _ timeout done late
    · exact w.dated_awaitExits a th _ _ timeout done late
    · split_ifs
      · exact refl.record _
      · have retired := (Dated.of_same (w := w) (u := { w with handles := w.handles + 1 })
          rfl rfl).retire
        split <;> rename_i hr <;> rw [hr] at retired
        · exact retired.conclude a th _
        · exact (retired.modifyEpoch _ _).record _

theorem dated_stepThread (w : World ν) (t : TaskId) (a : Option Nat) (th : Thread ν) :
    Dated w (w.stepThread t a th).2 := by
  unfold stepThread
  split
  · split
    · exact .refl w
    · exact w.dated_stepAct t a th _
  · exact w.dated_stepLayers _

end Code

section Tasks

variable {e : EpochId}

/-- A worker whose job is over rests or leaves at that moment. -/
theorem dated_finish (w : World ν) (t : TaskId) (e : EpochId) (kind : WorkerKind)
    (source : Source) (k : Nat) (ending : Except Panic Unit) :
    Dated w (w.finish t e kind source k ending) := by
  have rest : ∀ {v : World ν}, Dated w v → Dated w (v.rest t e kind source) := by
    intro v hv
    obtain ⟨state, _, h | h⟩ := v.rest_cases t e kind source <;> rw [h]
    · exact hv.setTask t _
    · exact (hv.setTask t _).record _
  have refl := Dated.refl w
  cases ending with
  | ok => exact rest (refl.record _)
  | error p =>
    have told := ((refl.record (.finished e k (.error p))).log (.jobPanicked p.message)).callHook
      e t (.panicked p.message)
    simp only [finish]
    split <;> rename_i hu <;> rw [hu] at told
    · exact (told.setTask t _).record _
    · exact rest told

theorem dated_stepWorker (w : World ν) (t : TaskId) (e : EpochId) (kind : WorkerKind)
    (state : WorkerState ν) : Dated w (w.stepWorker t e kind state) := by
  have refl := Dated.refl w
  cases state with
  | hired =>
    cases kind
    · exact (refl.log _).setTask t _
    · exact refl.setTask t _
  | seeded live x =>
    have told := refl.callHook e t (.join live)
    simp only [stepWorker]
    split <;> rename_i hu <;> rw [hu] at told
    · exact ((told.record _).setTask t _).record _
    · exact ((told.log _).setTask t _).record _
  | idle alarm =>
    simp only [stepWorker, stepIdle]
    split_ifs
    · exact refl.setTask t _
    all_goals split
    · exact ((refl.modifyEpoch e _).setTask t _).record _
    · exact (refl.log _).setTask t _
    · exact ((refl.modifyEpoch e _).setTask t _).record _
    · exact refl
  | busy source k th =>
    simp only [stepWorker]
    split_ifs
    · exact w.dated_finish t e kind source k _
    · exact (w.dated_stepThread t (some k) th).setTask t _
  | leaving =>
    cases kind
    · exact ((refl.log _).setTask t _).record _
    · exact ((((refl.modifyEpoch e _).log _).callHook e t _).setTask t _).record _
  | gone => exact refl

theorem dated_stepCollecting (w : World ν) (t : TaskId) (e : EpochId) :
    Dated w (w.stepCollecting t e) := by
  have refl := Dated.refl w
  simp only [stepCollecting]
  split
  · exact ((refl.modifyEpoch e _).record _).setTask t _
  · split_ifs
    · exact refl.setTask t _
    · exact (refl.log _).setTask t _
    · exact refl.setTask t _

theorem dated_stepDispatcher (w : World ν) (t : TaskId) (e : EpochId)
    (state : DispatcherState ν) : Dated w (w.stepDispatcher t e state) := by
  have refl := Dated.refl w
  rcases state with _ | _ | _ | _ | _ | (_ | ⟨layer, layers⟩) | _
  · exact (refl.log _).setTask t _
  · simp only [stepDispatcher, stepFlushing_eq]
    split
    · exact ((refl.modifyEpoch e _).recordAll _).setTask t _
    · exact (((refl.modifyEpoch e _).recordAll _).modifyEpoch e _).setTask t _
  · simp only [stepDispatcher, stepParked]
    split_ifs
    · exact (refl.modifyEpoch e _).setTask t _
    · exact (refl.modifyEpoch e _).setTask t _
    · split
      · exact ((refl.modifyEpoch e _).record _).setTask t _
      · exact refl
  · exact w.dated_stepCollecting t e
  · exact w.dated_stepCollecting t e
  · simp only [stepDispatcher]
    split
    · exact ((refl.log _).setTask t _).record _
    · exact ((refl.modifyEpoch e _).record _).setTask t _
  · exact (w.dated_stepLayers _).setTask t _
  · exact refl

/-- A step takes no time, and what it writes down bears the time at which it is taken. -/
theorem dated_step (w : World ν) (t : TaskId) : Dated w (w.step t) := by
  unfold step
  split
  · split
    · exact .refl w
    · exact w.dated_stepWorker t _ _ _
    · exact w.dated_stepDispatcher t _ _
    · exact (w.dated_stepThread t none _).setTask t _
  · exact .refl w

/-- Neither does it take time to break off a call. -/
theorem dated_withdraw (w : World ν) (t : TaskId) : Dated w (w.withdraw t) := by
  have refl := Dated.refl w
  unfold withdraw
  split
  · rename_i wait _
    cases wait with
    | nothing | alarm => exact refl.setTask t _
    | inLine e k => exact ((refl.modifyEpoch e _).record _).letGo.setTask t _
    | closing | exits => exact refl.letGo.setTask t _
  · exact refl

end Tasks

/-- In a move time passes and nothing else happens, or no time passes. -/
theorem Move.dated (m : Move w u) : Dated w u ∨ ∃ time, w.clock ≤ time ∧
    u = { w with clock := time } := by
  cases m with
  | step t => exact .inl (w.dated_step t)
  | pass time h => exact .inr ⟨time, h, rfl⟩
  | post code => exact .inl (.of_same rfl rfl)
  | withdraw t => exact .inl (w.dated_withdraw t)
  | release gate passes => exact .inl (.of_same rfl rfl)

/-- A move on a virtual clock: time passes only while no task can take a step. -/
def Punctual (w u : World ν) : Prop := Move w u ∧ (w.clock < u.clock → w.Settled)

/-- Moves on a virtual clock, one after the other. -/
abbrev PunctualRun : World ν → World ν → Prop := Relation.ReflTransGen Punctual

/-- A step is always in time. -/
theorem Punctual.step (w : World ν) (t : TaskId) : Punctual w (w.step t) :=
  ⟨.step w t, fun h => absurd (w.dated_step t).clock (Nat.ne_of_gt h)⟩

/-- Steps of tasks, in any order, are in time. -/
theorem punctualRun_steps (order : List TaskId) (w : World ν) :
    PunctualRun w (order.foldl World.step w) := by
  induction order generalizing w with
  | nil => exact .refl
  | cons t order ih => exact .head (.step w t) (ih (w.step t))

/-- What happens on a virtual clock is a run. -/
theorem PunctualRun.run (h : PunctualRun w v) : Run w v := by
  induction h with
  | refl => exact .refl w
  | tail _ m ih => exact ih.tail m.1

/-- On the way from `w` to `u` time has not gone back, and whatever was written into the journal
bears a time in between. -/
theorem PunctualRun.journal (h : PunctualRun w v) : w.clock ≤ v.clock ∧ ∃ later,
    v.journal.toList = w.journal.toList ++ later ∧
      ∀ s ∈ later, w.clock ≤ s.clock ∧ s.clock ≤ v.clock := by
  induction h with
  | refl => exact ⟨Nat.le_refl _, [], by simp, by simp⟩
  | @tail v u _ m ih =>
    obtain ⟨hle, later, hj, hall⟩ := ih
    obtain ⟨hc, os, hos⟩ | ⟨time, htime, rfl⟩ := m.1.dated
    · refine ⟨hc ▸ hle, later ++ os.map (Stamped.mk v.clock), by rw [hos, hj, List.append_assoc],
        fun s hs => ?_⟩
      obtain hs | hs := List.mem_append.1 hs
      · exact hc ▸ hall s hs
      · obtain ⟨o, _, rfl⟩ := List.mem_map.1 hs
        exact ⟨hle, Nat.le_of_eq hc.symm⟩
    · exact ⟨Nat.le_trans hle htime, later, hj,
        fun s hs => (hall s hs).imp_right (Nat.le_trans · htime)⟩

end WorkerPool.World
