import Mathlib.Data.List.Perm.Basic
import WorkerPool.Pool.Epoch

/-!
# What the operations of an epoch do

One statement for each operation on the queues, the intake and the backlog of an epoch, saying all
that it does. A flush is followed by its effect as a whole: jobs only move, room in the queues is
never exceeded, and what stays behind in an open epoch stays because both queues are full.
-/

namespace WorkerPool

namespace Backlog

variable {α : Type}

/-- Closing the gap only reorders the row. -/
theorem perm_closeGap (rest : List α) : (closeGap rest).Perm rest := by
  unfold closeGap
  split
  · rename_i h
    rw [List.getLast?_eq_none_iff.1 h]
  · rename_i last h
    obtain ⟨ys, rfl⟩ := List.getLast?_eq_some_iff.1 h
    simpa using @List.perm_append_comm _ [last] ys

/-- Taking the front takes one job and reorders the others. -/
theorem perm_of_takeFront? {row rest : List α} {x : α} (h : takeFront? row = some (x, rest)) :
    row.Perm (x :: rest) := by
  cases row with
  | nil => simp [takeFront?] at h
  | cons y ys =>
    simp only [takeFront?, Option.some.injEq, Prod.mk.injEq] at h
    obtain ⟨rfl, rfl⟩ := h
    exact (perm_closeGap ys).symm.cons y

/-- Only an empty row has no front. -/
theorem takeFront?_eq_none {row : List α} : takeFront? row = none ↔ row = [] := by
  cases row <;> simp [takeFront?]

end Backlog

namespace Intake

variable {α : Type}

/-- Taking the job that was handed over clears the place and grants it to the next in line. -/
theorem take?_eq_some {i i' : Intake α} {x : α} : i.take? = some (x, i') ↔
    i.slot = some x ∧ i' = grantNext { i with slot := none } := by
  unfold take?
  cases i.slot <;> simp [eq_comm]

/-- The place is free if no job is in it and it is kept for no one. -/
theorem isFree_iff {i : Intake α} : i.isFree = true ↔ i.slot = none ∧ i.granted = none := by
  simp [isFree]

end Intake

namespace Epoch

variable {ν : Type} {s : Settings} {e e' : Epoch ν} {x : Entry ν} {tier : Tier}

/-- The jobs that an epoch holds. -/
def entries (e : Epoch ν) : List (Entry ν) :=
  e.primary ++ e.temp ++ e.intake.slot.toList ++ e.backlog

/-- Both queues are full. -/
def Full (s : Settings) (e : Epoch ν) : Prop :=
  s.primaryCapacity ≤ e.primary.length ∧ s.tempCapacity ≤ e.temp.length

/-- Neither queue holds more than it has room for. -/
def Bounded (s : Settings) (e : Epoch ν) : Prop :=
  e.primary.length ≤ s.primaryCapacity ∧ e.temp.length ≤ s.tempCapacity

/-- A job is placed at the end of the first queue with room. -/
theorem offer_eq_placed : e.offer s x = .placed tier e' ↔ e.closed = false ∧
    ((tier = .primary ∧ e.primary.length < s.primaryCapacity ∧
        e' = { e with primary := e.primary ++ [x] }) ∨
      (tier = .temp ∧ s.primaryCapacity ≤ e.primary.length ∧ e.temp.length < s.tempCapacity ∧
        e' = { e with temp := e.temp ++ [x] })) := by
  unfold offer
  cases hc : e.closed with
  | true => simp
  | false =>
    by_cases hp : e.primary.length < s.primaryCapacity
    · simp [hp, Nat.not_le.2 hp, eq_comm]
    · by_cases ht : e.temp.length < s.tempCapacity
      · simp [hp, ht, Nat.not_lt.1 hp, eq_comm]
      · simp [hp, ht]

/-- A job finds no room in an open epoch exactly if both queues are full. -/
theorem offer_eq_full : e.offer s x = .full ↔ e.closed = false ∧ e.Full s := by
  unfold offer Full
  cases hc : e.closed with
  | true => simp
  | false =>
    by_cases hp : e.primary.length < s.primaryCapacity
    · simp [hp, Nat.not_le.2 hp]
    · by_cases ht : e.temp.length < s.tempCapacity
      · simp [hp, ht, Nat.not_le.2 ht]
      · simp [hp, ht, Nat.not_lt.1 hp, Nat.not_lt.1 ht]

/-- A job is turned away exactly if the epoch is closed. -/
theorem offer_eq_closed : e.offer s x = .closed ↔ e.closed = true := by
  unfold offer
  cases hc : e.closed with
  | true => simp
  | false =>
    simp only [Bool.false_eq_true, if_false, iff_false]
    split
    · simp
    · split <;> simp

/-- A drain takes the first job of the primary queue, else the first of the temporary one. -/
theorem drain?_eq_some : e.drain? = some (x, e') ↔
    (∃ rest, e.primary = x :: rest ∧ e' = { e with primary := rest }) ∨
      (e.primary = [] ∧ ∃ rest, e.temp = x :: rest ∧ e' = { e with temp := rest }) := by
  unfold drain?
  cases hp : e.primary with
  | cons y rest => simp [eq_comm]
  | nil => cases ht : e.temp <;> simp [eq_comm]

/-- A drain finds nothing exactly if both queues are empty. -/
theorem drain?_eq_none : e.drain? = none ↔ e.primary = [] ∧ e.temp = [] := by
  unfold drain?
  cases hp : e.primary with
  | cons y rest => simp
  | nil => cases ht : e.temp <;> simp

/-- A worker claims the first job of a queue that it reads, and says that there is room again. -/
theorem claim?_eq_some {b : Bool} : e.claim? b = some (tier, x, e') ↔
    (tier = .primary ∧ b = true ∧ ∃ rest, e.primary = x :: rest ∧
        e' = { e with primary := rest, freed := true }) ∨
      (tier = .temp ∧ (b = true → e.primary = []) ∧ ∃ rest, e.temp = x :: rest ∧
        e' = { e with temp := rest, freed := true }) := by
  unfold claim?
  cases b with
  | false => cases ht : e.temp <;> simp [eq_comm]
  | true =>
    cases hp : e.primary with
    | cons y rest => simp [eq_comm]
    | nil => cases ht : e.temp <;> simp [eq_comm]

/-- What a flush leaves as it was. -/
structure Flushes (s : Settings) (e : Epoch ν) (f : Flush ν) : Prop where
  closed : f.epoch.closed = e.closed
  freed : f.epoch.freed = e.freed
  temps : f.epoch.temps = e.temps
  intake : f.epoch.intake = e.intake
  /-- Jobs move; none is added and none is lost. -/
  perm : f.epoch.entries.Perm e.entries
  bounded : e.Bounded s → f.epoch.Bounded s
  /-- A closed epoch is met exactly if there is something to offer to it. -/
  isOpen : f.isOpen = false → e.closed = true ∧ f.epoch = e ∧ f.moved = []

/-- Placing a job touches nothing but the queues of an open epoch, and keeps within their room. -/
theorem offer_frame (h : e.offer s x = .placed tier e') :
    e'.closed = false ∧ e'.freed = e.freed ∧ e'.temps = e.temps ∧ e'.intake = e.intake ∧
      e'.backlog = e.backlog ∧ (e.Bounded s → e'.Bounded s) := by
  obtain ⟨hc, ⟨_, hlt, rfl⟩ | ⟨_, _, hlt, rfl⟩⟩ := offer_eq_placed.1 h
  · refine ⟨hc, rfl, rfl, rfl, rfl, fun hb => ⟨?_, hb.2⟩⟩
    rw [List.length_append]
    exact hlt
  · refine ⟨hc, rfl, rfl, rfl, rfl, fun hb => ⟨hb.1, ?_⟩⟩
    rw [List.length_append]
    exact hlt

/-- A claim touches nothing but the queues and the signal for room. -/
theorem claim_frame {b : Bool} (h : e.claim? b = some (tier, x, e')) :
    e'.closed = e.closed ∧ e'.temps = e.temps ∧ e'.intake = e.intake ∧ e'.backlog = e.backlog := by
  obtain ⟨_, _, _, _, rfl⟩ | ⟨_, _, _, _, rfl⟩ := claim?_eq_some.1 h <;> exact ⟨rfl, rfl, rfl, rfl⟩

/-- A drain touches nothing but the queues. -/
theorem drain_frame (h : e.drain? = some (x, e')) :
    e'.closed = e.closed ∧ e'.temps = e.temps ∧ e'.intake = e.intake ∧ e'.backlog = e.backlog := by
  obtain ⟨_, _, rfl⟩ | ⟨_, _, _, rfl⟩ := drain?_eq_some.1 h <;> exact ⟨rfl, rfl, rfl, rfl⟩

/-- An epoch holds a job that it placed in addition. -/
theorem perm_entries_of_placed (h : e.offer s x = .placed tier e') :
    e'.entries.Perm (x :: e.entries) := by
  obtain ⟨_, ⟨_, _, rfl⟩ | ⟨_, _, _, rfl⟩⟩ := offer_eq_placed.1 h
  · simp only [entries, List.append_assoc, List.singleton_append]
    exact List.perm_middle
  · simpa only [entries, List.append_assoc, List.cons_append, List.nil_append] using
      @List.perm_middle _ x (e.primary ++ e.temp) (e.intake.slot.toList ++ e.backlog)

/-- A drain takes one job out. -/
theorem perm_entries_of_drain (h : e.drain? = some (x, e')) : e.entries.Perm (x :: e'.entries) := by
  obtain ⟨rest, hp, rfl⟩ | ⟨hp, rest, ht, rfl⟩ := drain?_eq_some.1 h
  · simp [entries, hp]
  · simp [entries, hp, ht]

/-- A claim takes one job out. -/
theorem perm_entries_of_claim {b : Bool} (h : e.claim? b = some (tier, x, e')) :
    e.entries.Perm (x :: e'.entries) := by
  obtain ⟨_, _, rest, hp, rfl⟩ | ⟨_, _, rest, ht, rfl⟩ := claim?_eq_some.1 h
  · simp [entries, hp]
  · simp only [entries, ht, List.append_assoc, List.cons_append]
    exact List.perm_middle

/-- A job handed over is held in addition. -/
theorem perm_entries_put (h : e.intake.slot = none) (x : Entry ν) :
    { e with intake := e.intake.put x }.entries.Perm (x :: e.entries) := by
  simpa [entries, h, Intake.put] using @List.perm_middle _ x (e.primary ++ e.temp) e.backlog

/-- A job that is taken in from the intake stays where it is held. -/
theorem perm_entries_take {i : Intake (Entry ν)} (h : e.intake.take? = some (x, i)) :
    { e with intake := i, backlog := e.backlog ++ [x] }.entries.Perm e.entries := by
  obtain ⟨hs, rfl⟩ := Intake.take?_eq_some.1 h
  simp only [entries, Intake.slot_grantNext, hs, Option.toList_none, Option.toList_some,
    List.append_nil, List.append_assoc]
  exact ((List.perm_append_comm.append_left _).append_left _)

/-- Placing a job taken from the backlog keeps the jobs of the epoch. -/
theorem perm_entries_of_offer {rest : List (Entry ν)}
    (hb : Backlog.takeFront? e.backlog = some (x, rest))
    (ho : { e with backlog := rest }.offer s x = .placed tier e') :
    e'.entries.Perm e.entries := by
  refine (perm_entries_of_placed ho).trans ?_
  have hp := (Backlog.perm_of_takeFront? hb).symm.append_left
    (e.primary ++ e.temp ++ e.intake.slot.toList)
  exact List.perm_middle.symm.trans hp

/-- A flush that does nothing. -/
theorem Flushes.still (e : Epoch ν) {isOpen : Bool} (h : isOpen = false → e.closed = true) :
    Flushes s e ⟨e, [], isOpen⟩ :=
  ⟨rfl, rfl, rfl, rfl, .refl _, id, fun ho => ⟨h ho, rfl, rfl⟩⟩

/-- Whatever the number of offers, a flush only moves jobs into room that is there. -/
theorem flushes_flushUpTo (n : Nat) (e : Epoch ν) : Flushes s e (e.flushUpTo s n) := by
  induction n generalizing e with
  | zero => exact .still e (by simp)
  | succ n ih =>
    rw [flushUpTo]
    cases hb : Backlog.takeFront? e.backlog with
    | none => exact .still e (by simp)
    | some front =>
      obtain ⟨x, rest⟩ := front
      have back : { e with backlog := Backlog.putFront x rest } = e := by
        rw [Backlog.putFront_of_takeFront? hb]
      simp only
      cases ho : { e with backlog := rest }.offer s x with
      | full =>
        simp only [back]
        exact .still e (by simp)
      | closed =>
        simp only [back]
        have hc : { e with backlog := rest }.closed = true := offer_eq_closed.1 ho
        exact .still e fun _ => hc
      | placed tier e' =>
        obtain ⟨hopen, hfreed, htemps, hintake, _, hbounded⟩ := offer_frame ho
        have later := ih e'
        have hc : e.closed = false := (offer_eq_placed.1 ho).1
        refine ⟨later.closed.trans (hopen.trans hc.symm), later.freed.trans hfreed,
          later.temps.trans htemps, later.intake.trans hintake,
          later.perm.trans (perm_entries_of_offer hb ho), fun hbd => later.bounded (hbounded hbd),
          fun h => ?_⟩
        have met := (later.isOpen h).1
        rw [hopen] at met
        cases met

/-- A flush only moves jobs into room that is there. -/
theorem flushes_flush (s : Settings) (e : Epoch ν) : Flushes s e (e.flush s) :=
  flushes_flushUpTo _ e

/-- Offers enough for the whole backlog leave something behind in an open epoch only if both queues
are full. -/
theorem full_or_nil_of_flushUpTo (n : Nat) (e : Epoch ν) (hn : e.backlog.length ≤ n)
    (ho : (e.flushUpTo s n).isOpen = true) :
    (e.flushUpTo s n).epoch.backlog = [] ∨ (e.flushUpTo s n).epoch.Full s := by
  induction n generalizing e with
  | zero => exact .inl (List.length_eq_zero_iff.1 (Nat.le_zero.1 hn))
  | succ n ih =>
    rw [flushUpTo] at ho ⊢
    cases hb : Backlog.takeFront? e.backlog with
    | none => exact .inl (Backlog.takeFront?_eq_none.1 hb)
    | some front =>
      obtain ⟨x, rest⟩ := front
      rw [hb] at ho
      simp only at ho ⊢
      cases hx : { e with backlog := rest }.offer s x with
      | full => exact .inr (offer_eq_full.1 hx).2
      | closed =>
        rw [hx] at ho
        cases ho
      | placed tier e' =>
        rw [hx] at ho
        have hl := Backlog.length_of_takeFront? hb
        have he' : e'.backlog = rest := (offer_frame hx).2.2.2.2.1
        exact ih e' (by rw [he']; omega) ho

/-- What a flush leaves behind in an open epoch stays because both queues are full. -/
theorem full_or_nil_of_flush (ho : (e.flush s).isOpen = true) :
    (e.flush s).epoch.backlog = [] ∨ (e.flush s).epoch.Full s :=
  full_or_nil_of_flushUpTo _ e (Nat.le_refl _) ho

/-- A flush moves nothing in a closed epoch. -/
theorem epoch_flush_of_closed (h : e.closed = true) : (e.flush s).epoch = e := by
  unfold flush
  cases e.backlog.length with
  | zero => rfl
  | succ n =>
    rw [flushUpTo]
    cases hb : Backlog.takeFront? e.backlog with
    | none => rfl
    | some front =>
      have ho : { e with backlog := front.2 }.offer s front.1 = .closed := offer_eq_closed.2 h
      simp only [ho, Backlog.putFront_of_takeFront? hb]

end Epoch

end WorkerPool
