import WorkerPool.Proofs.Closed
import WorkerPool.Proofs.Workers

/-!
# The counts that temporary workers join with

A temporary worker that is hired remembers how many are alive, itself included, and joins with that
count. So a count that is announced once was reached by the counter of the epoch, and only a worker
that is new announces one that was not announced before.
-/

namespace WorkerPool.World

variable {ν : Type} {w u : World ν} {t : TaskId} {e : EpochId} {n : Nat}

/-- Task `t` is a worker of epoch `e` that has joined as one of `n` that were alive, or it is about
to. -/
def AnnouncedBy (w : World ν) (t : TaskId) (e : EpochId) (n : Nat) : Prop :=
  ∃ kind state, w.tasks[t]? = some (.worker e kind state) ∧
    ((∃ x, state = .seeded n x) ∨ ∃ panic, (.join n, panic) ∈ w.told t)

/-- A worker of epoch `e` has joined as one of `n` that were alive, or it is about to. -/
def Announces (w : World ν) (e : EpochId) (n : Nat) : Prop := ∃ t, w.AnnouncedBy t e n

/-- A worker that tells the hook how many are alive has just remembered it. -/
theorem Turn.seeded_of_join {kind : WorkerKind} {state state' : WorkerState ν}
    {cs : History} (h : Turn w u t e kind state state' cs) {panic : Option Panic}
    (hm : (.join n, panic) ∈ cs) : ∃ x, state = .seeded n x := by
  have told : ∀ {call}, (.join n, panic) ∈ w.answer call → call = .join n := by
    intro call hm
    unfold answer at hm
    split at hm
    · cases hm
    · simp only [List.mem_singleton, Prod.mk.injEq] at hm
      exact hm.1.symm
  cases h with
  | joins =>
    cases told hm
    exact ⟨_, rfl⟩
  | fails =>
    cases told hm
    exact ⟨_, rfl⟩
  | finishes _ _ hcs =>
    obtain ⟨-, rfl⟩ | ⟨_, -, rfl⟩ := hcs
    · cases hm
    · cases told hm
  | retires => cases told hm
  | _ => cases hm

/-- A count that was announced stays so. -/
theorem Change.announcedBy (c : Change w u) (hh : w.hook.isSome) (h : w.AnnouncedBy t e n) :
    u.AnnouncedBy t e n := by
  obtain ⟨kind, state, ht, h⟩ := h
  obtain ⟨state', cs, hu, hcs, turn⟩ := c.turn ht
  refine ⟨kind, state', hu, ?_⟩
  rw [hcs]
  obtain ⟨x, rfl⟩ | ⟨panic, hm⟩ := h
  · obtain ⟨hook, hhook⟩ := Option.isSome_iff_exists.1 hh
    have told : ∃ panic, (.join n, panic) ∈ w.told t ++ w.answer (.join n) :=
      ⟨hook w.hookCalls (.join n), by simp [answer, hhook]⟩
    cases turn with
    | still => exact .inl ⟨x, rfl⟩
    | joins => exact .inr told
    | fails => exact .inr told
    | quits hq => obtain ⟨_, hq, -⟩ | ⟨hq, -⟩ := hq <;> cases hq
  · exact .inr ⟨panic, List.mem_append_left _ hm⟩

/-- A count that a task announces after a change it announced before, unless it is new. -/
theorem Change.of_announcedBy (c : Change w u) (hlt : t < w.tasks.size)
    (h : u.AnnouncedBy t e n) : w.AnnouncedBy t e n := by
  obtain ⟨kind, state, hu, h⟩ := h
  obtain ⟨task', hu', hrole⟩ := c.role_eq (Array.getElem?_eq_getElem hlt)
  rw [hu, Option.some.injEq] at hu'
  subst hu'
  obtain ⟨old, hold⟩ := Task.role_eq_worker.1 hrole.symm
  have ht : w.tasks[t]? = some (.worker e kind old) :=
    (Array.getElem?_eq_getElem hlt).trans (congrArg some hold)
  obtain ⟨state', cs, hu', hcs, turn⟩ := c.turn ht
  rw [hu, Option.some.injEq, Task.worker.injEq] at hu'
  obtain ⟨-, -, rfl⟩ := hu'
  refine ⟨kind, old, ht, ?_⟩
  obtain ⟨x, rfl⟩ | ⟨panic, hm⟩ := h
  · cases turn with
    | still => exact .inl ⟨x, rfl⟩
    | finishes _ _ _ hs => obtain ⟨hs, -⟩ | ⟨_, hs, -⟩ | ⟨hs, -⟩ := hs <;> cases hs
  · rw [hcs] at hm
    obtain hm | hm := List.mem_append.1 hm
    · exact .inr ⟨panic, hm⟩
    · exact .inl (turn.seeded_of_join hm)

/-- What was announced stays so whatever happens. -/
theorem Changes.announces (c : Changes w u) (hh : w.hook.isSome) (h : w.Announces e n) :
    u.Announces e n := by
  induction c with
  | refl => exact h
  | tail before c ih => exact ih.imp fun _ => c.announcedBy ((Changes.grows before).hook ▸ hh)

/-- A task that is not new announces nothing that it did not announce before. -/
theorem Changes.of_announcedBy (c : Changes w u) (hlt : t < w.tasks.size)
    (h : u.AnnouncedBy t e n) : w.AnnouncedBy t e n := by
  induction c with
  | refl => exact h
  | tail before c ih => exact ih (c.of_announcedBy (hlt.trans_le (Changes.grows before).tasks) h)

/-- What was announced in `w` is so in `u`, and what is new there the counter of the epoch has come
to; if the counter has risen, its value is announced. -/
structure Climbs (w u : World ν) (e : EpochId) : Prop where
  kept : ∀ n, w.Announces e n → u.Announces e n
  fresh : ∀ n, u.Announces e n → w.Announces e n ∨ n ≤ (u.epoch e).temps
  reached : (u.epoch e).temps ≤ (w.epoch e).temps ∨ u.Announces e (u.epoch e).temps

namespace Climbs

theorem refl (w : World ν) (e : EpochId) : Climbs w w e :=
  ⟨fun _ => id, fun _ => .inl, .inl le_rfl⟩

/-- Only the announcements of tasks that are new are to be looked at. -/
theorem of_changes (c : Changes w u) (hh : w.hook.isSome)
    (hnew : ∀ t, w.tasks.size ≤ t → ∀ n, u.AnnouncedBy t e n → n ≤ (u.epoch e).temps)
    (hr : (u.epoch e).temps ≤ (w.epoch e).temps ∨ u.Announces e (u.epoch e).temps) :
    Climbs w u e where
  kept _ h := c.announces hh h
  fresh n h := by
    obtain ⟨t, h⟩ := h
    obtain hlt | hge := lt_or_ge t w.tasks.size
    · exact .inl ⟨t, c.of_announcedBy hlt h⟩
    · exact .inr (hnew t hge n h)
  reached := hr

/-- Nothing is announced anew while no task is new. -/
theorem of_size (c : Changes w u) (hh : w.hook.isSome) (hs : u.tasks.size ≤ w.tasks.size)
    (ht : (u.epoch e).temps ≤ (w.epoch e).temps) : Climbs w u e :=
  of_changes c hh (fun _ hge _ h => absurd (hs.trans hge) (by
    obtain ⟨_, _, hu, -⟩ := h
    exact Nat.not_le.2 (Array.getElem?_eq_some_iff.1 hu).1)) (.inl ht)

/-- A client that makes a call announces nothing. -/
theorem spawn_client (hh : w.hook.isSome) (code : Script (Act ν) Unit) :
    Climbs w (w.spawn (.client { body := code })) e := by
  refine of_changes (.single (.posted code)) hh (fun t hge n h => ?_) (.inl le_rfl)
  obtain ⟨kind, state, hu, -⟩ := h
  obtain ⟨-, hnew⟩ | hold := getElem?_spawn_cases hu
  · cases hnew
  · exact absurd (Array.getElem?_eq_some_iff.1 hold).1 (Nat.not_lt.2 hge)

/-- A temporary worker that is hired announces the value that the counter has come to. -/
theorem of_hired {kind : WorkerKind} {x : Entry ν} (c : Changes w u) (hh : w.hook.isSome)
    (hs : u.tasks.size = w.tasks.size + 1) (htold : u.told w.tasks.size = [])
    (ht : u.tasks[w.tasks.size]? = some (.worker e kind (.seeded (u.epoch e).temps x))) :
    Climbs w u e := by
  refine of_changes c hh (fun t hge n h => ?_) (.inr ⟨_, kind, _, ht, .inl ⟨x, rfl⟩⟩)
  obtain ⟨kind', state, hu, h⟩ := h
  have hlt := (Array.getElem?_eq_some_iff.1 hu).1
  obtain rfl : t = w.tasks.size := by omega
  rw [ht, Option.some.injEq, Task.worker.injEq] at hu
  obtain ⟨-, -, rfl⟩ := hu
  obtain ⟨_, hstate⟩ | ⟨_, hm⟩ := h
  · rw [WorkerState.seeded.injEq] at hstate
    exact hstate.1.symm.le
  · rw [htold] at hm
    cases hm

end Climbs

end WorkerPool.World
