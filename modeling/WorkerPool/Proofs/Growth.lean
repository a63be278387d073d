import Mathlib.Data.Nat.Basic
import WorkerPool.Proofs.Change
import WorkerPool.Proofs.Epoch

/-!
# What only ever grows

A world never forgets: its journal, its epochs and its tasks only become more, a closed epoch stays
closed, and a task stays what it is. So whatever was written down once can be cited ever after.
-/

namespace WorkerPool.World

variable {ν : Type}

/-- The world `u` has come out of `w` and has forgotten nothing of it. -/
structure Grows (w u : World ν) : Prop where
  settings : u.settings = w.settings
  hook : u.hook = w.hook
  occurrences : w.occurrences <+: u.occurrences
  epochs : w.epochs.size ≤ u.epochs.size
  tasks : w.tasks.size ≤ u.tasks.size
  tickets : w.nextTicket ≤ u.nextTicket
  closed : ∀ e, e < w.epochs.size → (w.epoch e).closed = true → (u.epoch e).closed = true

namespace Grows

variable {w v u : World ν}

protected theorem refl (w : World ν) : Grows w w :=
  ⟨rfl, rfl, List.prefix_refl _, le_rfl, le_rfl, le_rfl, fun _ _ h => h⟩

protected theorem trans (h : Grows w v) (h' : Grows v u) : Grows w u where
  settings := h'.settings.trans h.settings
  hook := h'.hook.trans h.hook
  occurrences := h.occurrences.trans h'.occurrences
  epochs := Nat.le_trans h.epochs h'.epochs
  tasks := Nat.le_trans h.tasks h'.tasks
  tickets := Nat.le_trans h.tickets h'.tickets
  closed e he hc := h'.closed e (Nat.lt_of_lt_of_le he h.epochs) (h.closed e he hc)

/-- What was written down stays written down. -/
theorem mem (h : Grows w u) {o : Occurrence ν} (ho : o ∈ w.occurrences) : o ∈ u.occurrences :=
  h.occurrences.subset ho

theorem recordAll (w : World ν) (os : List (Occurrence ν)) : Grows w (w.recordAll os) :=
  ⟨by simp, by simp, by simp, by simp, by simp, by simp, fun e _ h => by simpa using h⟩

theorem record (w : World ν) (o : Occurrence ν) : Grows w (w.record o) := recordAll w [o]

theorem setTask (w : World ν) (t : TaskId) (task : Task ν) : Grows w (w.setTask t task) :=
  ⟨rfl, rfl, List.prefix_refl _, le_rfl, by simp, le_rfl, fun _ _ h => h⟩

theorem spawn (w : World ν) (task : Task ν) : Grows w (w.spawn task) :=
  ⟨rfl, rfl, List.prefix_refl _, le_rfl, by simp, le_rfl, fun _ _ h => h⟩

/-- A change of an epoch that does not open it again. -/
theorem modifyEpoch (w : World ν) (e : EpochId) (f : Epoch ν → Epoch ν)
    (h : (f (w.epoch e)).closed = (w.epoch e).closed) : Grows w (w.modifyEpoch e f) :=
  ⟨rfl, rfl, List.prefix_refl _, by simp, le_rfl, le_rfl, fun i _ hi => by
    rwa [w.modifyEpoch_keeps e f Epoch.closed h]⟩

theorem draw (w : World ν) (job : Job ν) : Grows w (w.draw job) :=
  ⟨rfl, rfl, by simp, le_rfl, le_rfl, Nat.le_succ _, fun _ _ h => h⟩

theorem launch (w : World ν) : Grows w w.launch :=
  ⟨by simp, by simp, by simp, by simp, by simp, by simp, fun e _ h => by simpa using h⟩

/-- Stopping the pool closes its epoch. -/
theorem stop (w : World ν) (e : EpochId) : Grows w (w.stop e) := by
  refine ⟨by simp, by simp, by simp, by simp, by simp, by simp, fun i hi h => ?_⟩
  by_cases hie : i = e
  · subst hie
    rw [epoch_stop_self _ _ hi]
  · rwa [epoch_stop_of_ne _ _ hie]

theorem aside (h : Aside w u) : Grows w u := by
  obtain ⟨os, ho, _⟩ := h.occurrences
  exact ⟨h.settings, h.hook, ⟨os, ho.symm⟩, by rw [h.epochs], by rw [h.tasks],
    by rw [h.nextTicket], fun e _ hc => by rwa [epoch, h.epochs, ← epoch]⟩

end Grows

/-- Code makes a world grow. -/
theorem Shift.grows {t : TaskId} {a : Option Nat} {th th' : Thread ν} {w w' : World ν}
    (h : Shift t a th w th' w') : Grows w w' := by
  cases h with
  | deed => exact .recordAll _ _
  | callbackDeed => exact .recordAll _ _
  | paused => exact .refl _
  | asleep => exact .refl _
  | awaiting => exact .refl _
  | answered => exact .record _ _
  | returned => exact .refl _
  | @abandoned e _ _ _ ep _ hd =>
    exact (Grows.modifyEpoch w e _ (Epoch.drain_frame hd).1).trans (.record _ _)
  | drained => exact .refl _
  | halted => exact .stop _ _
  | launched => exact .launch _
  | aside h => exact .aside h
  | @queued job _ _ _ _ e _ ep _ _ _ _ ho =>
    refine (Grows.draw w job).trans ((Grows.modifyEpoch _ e _ ?_).trans (.record _ _))
    exact (Epoch.offer_frame ho).1.trans (Epoch.offer_eq_placed.1 ho).1.symm
  | hired =>
    exact (Grows.draw w _).trans ((Grows.modifyEpoch _ _ _ rfl).trans
      ((Grows.record _ _).trans (.spawn _ _)))
  | handedOver =>
    exact (Grows.draw w _).trans ((Grows.modifyEpoch _ _ _ rfl).trans (.record _ _))
  | refused => exact (Grows.draw w _).trans (.record _ _)
  | joined => exact (Grows.draw w _).trans (.modifyEpoch _ _ _ rfl)
  | granted => exact (Grows.modifyEpoch _ _ _ rfl).trans (.record _ _)
  | gaveUp => exact (Grows.modifyEpoch _ _ _ rfl).trans (.record _ _)

/-- Every elementary change makes a world grow. -/
theorem Change.grows {w u : World ν} (h : Change w u) : Grows w u := by
  cases h with
  | aside h => exact .aside h
  | posted => exact .spawn _ _
  | code _ _ h => exact h.grows.trans (.setTask _ _ _)
  | brokenOff => exact .setTask _ _ _
  | began => exact .setTask _ _ _
  | welcomed => exact (Grows.recordAll _ _).trans ((Grows.setTask _ _ _).trans (.record _ _))
  | lost => exact (Grows.recordAll _ _).trans (.setTask _ _ _)
  | @claimed _ e _ _ _ _ ep _ _ hc =>
    have hclosed := (Epoch.claim_frame hc).1
    exact (Grows.modifyEpoch w e _ hclosed).trans ((Grows.setTask _ _ _).trans (.record _ _))
  | finished => exact (Grows.recordAll _ _).trans (.setTask _ _ _)
  | quit => exact .setTask _ _ _
  | left => exact .setTask _ _ _
  | retired =>
    exact (Grows.modifyEpoch w _ _ rfl).trans ((Grows.recordAll _ _).trans (.setTask _ _ _))
  | dispatching => exact .setTask _ _ _
  | flushed =>
    exact (Grows.modifyEpoch w _ _ (Epoch.flushes_flush _ _).closed).trans
      ((Grows.recordAll _ _).trans (.setTask _ _ _))
  | woken => exact (Grows.modifyEpoch w _ _ rfl).trans (.setTask _ _ _)
  | tookIn =>
    exact (Grows.modifyEpoch w _ _ rfl).trans ((Grows.record _ _).trans (.setTask _ _ _))
  | shut => exact (Grows.modifyEpoch w _ _ rfl).trans (.setTask _ _ _)
  | collected =>
    exact (Grows.modifyEpoch w _ _ rfl).trans ((Grows.record _ _).trans (.setTask _ _ _))
  | expecting => exact .setTask _ _ _
  | discarding => exact .setTask _ _ _
  | discarded =>
    exact (Grows.modifyEpoch w _ _ rfl).trans ((Grows.record _ _).trans (.setTask _ _ _))
  | dispersed => exact .setTask _ _ _

/-- Settings and hook of a pool never change. -/
theorem Evolved.same {settings : Settings} {hook : Option Hook} {w : World ν}
    (h : Evolved settings hook w) : w.settings = settings ∧ w.hook = hook := by
  induction h with
  | opened => exact ⟨by simp, by simp⟩
  | next _ c ih => exact ⟨c.grows.settings.trans ih.1, c.grows.hook.trans ih.2⟩

/-- Settings that a pool was opened with are valid. -/
theorem Evolved.valid {settings : Settings} {hook : Option Hook} {w : World ν}
    (h : Evolved settings hook w) : settings.Valid := by
  induction h with
  | opened hv => exact hv
  | next _ _ ih => exact ih

end WorkerPool.World
