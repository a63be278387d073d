import Mathlib.Tactic.SplitIfs
import WorkerPool.Proofs.Epoch

/-!
# The order in which a backlog is published

A flush takes the front of the backlog and then, as the gap in front is closed from the back, the
jobs from the back to the front. So what it publishes is the beginning of a fixed reordering of the
backlog, as much of it as the queues have room for, and what stays behind stays in its order but for
the job that stands in front. The loop of a flush ends by itself, after at most one offer for each
job of the backlog.
-/

namespace WorkerPool

namespace Backlog

variable {α : Type} (x : α) (rest : List α) (k : Nat)

/-- The jobs of a row as they leave it if nobody joins: the front, then from the back. -/
def outgoing : List α → List α
  | [] => []
  | x :: rest => x :: rest.reverse

/-- The row once so many jobs have left it. -/
def after : Nat → List α → List α
  | 0, row => row
  | _ + 1, [] => []
  | k + 1, _ :: rest => after k (closeGap rest)

@[simp] theorem outgoing_nil : outgoing ([] : List α) = [] := rfl

@[simp] theorem outgoing_cons : outgoing (x :: rest) = x :: rest.reverse := rfl

@[simp] theorem length_outgoing (row : List α) : (outgoing row).length = row.length := by
  cases row <;> simp

/-- The gap is closed by the job at the back. -/
@[simp] theorem closeGap_concat : closeGap (rest ++ [x]) = x :: rest := by simp [closeGap]

/-- Behind the front the jobs leave from the back. -/
@[simp] theorem outgoing_closeGap : outgoing (closeGap rest) = rest.reverse := by
  obtain rfl | ⟨ys, last, rfl⟩ := rest.eq_nil_or_concat
  · rfl
  · simp

@[simp] theorem after_nil : after k ([] : List α) = [] := by cases k <;> rfl

/-- The gap behind the jobs that have left is closed by the last one that has not. -/
theorem after_cons (hk : k ≤ rest.length) :
    after (k + 1) (x :: rest) = closeGap (rest.take (rest.length - k)) := by
  induction k generalizing x rest with
  | zero => rw [after, after, Nat.sub_zero, List.take_length]
  | succ k ih =>
    rw [after]
    obtain rfl | ⟨ys, last, rfl⟩ := rest.eq_nil_or_concat
    · cases hk
    · rw [List.concat_eq_append] at hk ⊢
      have hle : k ≤ ys.length := by simpa using hk
      rw [closeGap_concat, ih last ys hle, List.length_append, List.length_singleton,
        Nat.add_sub_add_right, List.take_append_of_le_length (Nat.sub_le _ _)]

/-- Once all jobs have left, none is left. -/
theorem after_of_length_le {row : List α} (h : row.length ≤ k) : after k row = [] := by
  induction k generalizing row with
  | zero => exact List.length_eq_zero_iff.1 (Nat.le_zero.1 h)
  | succ k ih =>
    cases row with
    | nil => rfl
    | cons x rest => exact ih (by simpa using h)

/-- Of the jobs that have not left the last one stands in front, and the others stand as before. -/
theorem after_eq_cons {row : List α} (h0 : 0 < k) (hk : k < row.length) :
    ∃ front, row[row.length - k]? = some front ∧
      after k row = front :: (row.take (row.length - k)).tail := by
  obtain ⟨k, rfl⟩ := Nat.exists_eq_add_of_lt h0
  rw [Nat.zero_add] at hk ⊢
  cases row with
  | nil => cases hk
  | cons x rest =>
    have hlt : k < rest.length := by simpa using hk
    obtain ⟨j, hj⟩ := Nat.exists_eq_add_of_lt hlt
    have hsub : rest.length - k = j + 1 := by omega
    have hget : j < rest.length := by omega
    refine ⟨rest[j], ?_, ?_⟩
    · simp [hsub]
    · rw [after_cons x rest k (Nat.le_of_lt hlt), hsub, List.length_cons, Nat.add_sub_add_right,
        hsub,
        List.take_succ_cons, List.tail_cons, List.take_succ_eq_append_getElem hget, closeGap_concat]

example : (outgoing [0, 1, 2, 3, 4]).take 3 = [0, 4, 3] ∧ after 3 [0, 1, 2, 3, 4] = [2, 1] := by
  decide

end Backlog

namespace Epoch

variable {ν : Type} {s : Settings} {e e' : Epoch ν} {f : Flush ν} {n m : Nat}

/-- The loop of a flush, which knows no bound, ends with this result after so many offers. -/
inductive FlushesIn (s : Settings) : Epoch ν → Flush ν → (offers : Nat) → Prop
  /-- Nothing is left to be offered. -/
  | nothing {e : Epoch ν} (h : Backlog.takeFront? e.backlog = none) : FlushesIn s e ⟨e, [], true⟩ 0
  /-- The front is refused by full queues. -/
  | full {e : Epoch ν} {x : Entry ν} {rest : List (Entry ν)}
      (h : Backlog.takeFront? e.backlog = some (x, rest))
      (ho : { e with backlog := rest }.offer s x = .full) :
      FlushesIn s e ⟨{ e with backlog := Backlog.putFront x rest }, [], true⟩ 1
  /-- The front is refused by closed queues. -/
  | closed {e : Epoch ν} {x : Entry ν} {rest : List (Entry ν)}
      (h : Backlog.takeFront? e.backlog = some (x, rest))
      (ho : { e with backlog := rest }.offer s x = .closed) :
      FlushesIn s e ⟨{ e with backlog := Backlog.putFront x rest }, [], false⟩ 1
  /-- The front is placed, and the loop goes on. -/
  | placed {e e' : Epoch ν} {x : Entry ν} {rest : List (Entry ν)} {tier : Tier} {f : Flush ν}
      {offers : Nat} (h : Backlog.takeFront? e.backlog = some (x, rest))
      (ho : { e with backlog := rest }.offer s x = .placed tier e') (hf : FlushesIn s e' f offers) :
      FlushesIn s e { f with moved := (tier, x) :: f.moved } (offers + 1)

/-- A bound on the offers that covers the backlog is never felt: the loop ends by itself, after at
most one offer for each job. -/
theorem exists_flushesIn (hn : e.backlog.length ≤ n) :
    ∃ offers ≤ e.backlog.length, FlushesIn s e (e.flushUpTo s n) offers := by
  induction n generalizing e with
  | zero =>
    have nothing : e.backlog = [] := List.length_eq_zero_iff.1 (Nat.le_zero.1 hn)
    exact ⟨0, Nat.zero_le _, .nothing (Backlog.takeFront?_eq_none.2 nothing)⟩
  | succ n ih =>
    rw [flushUpTo]
    cases hb : Backlog.takeFront? e.backlog with
    | none => exact ⟨0, Nat.zero_le _, .nothing hb⟩
    | some front =>
      obtain ⟨x, rest⟩ := front
      have length := Backlog.length_of_takeFront? hb
      simp only
      cases ho : { e with backlog := rest }.offer s x with
      | full => exact ⟨1, by omega, .full hb ho⟩
      | closed => exact ⟨1, by omega, .closed hb ho⟩
      | placed tier e' =>
        obtain ⟨-, -, -, -, hback, -⟩ := offer_frame ho
        obtain ⟨offers, hle, later⟩ := ih (e := e') (by simp [hback]; omega)
        refine ⟨offers + 1, ?_, .placed hb ho later⟩
        rw [hback] at hle
        exact length ▸ Nat.succ_le_succ hle

/-- Offers enough for an open epoch publish as much of the backlog as there is room for, in the
order in which it leaves: into the primary queue first, then into the temporary one. -/
theorem flushUpTo_of_open (hn : e.backlog.length ≤ n) (ho : e.closed = false) {p t : Nat}
    (hp : p = s.primaryCapacity - e.primary.length) (ht : t = s.tempCapacity - e.temp.length) :
    e.flushUpTo s n =
      let jobs := (Backlog.outgoing e.backlog).take (p + t)
      { epoch := { e with
          primary := e.primary ++ jobs.take p
          temp := e.temp ++ jobs.drop p
          backlog := Backlog.after (p + t) e.backlog }
        moved := (jobs.take p).map (.primary, ·) ++ (jobs.drop p).map (.temp, ·)
        isOpen := true } := by
  induction n generalizing e p t with
  | zero =>
    have nothing : e.backlog = [] := List.length_eq_zero_iff.1 (Nat.le_zero.1 hn)
    cases e
    simp_all [flushUpTo]
  | succ n ih =>
    cases hb : e.backlog with
    | nil =>
      cases e
      simp_all [flushUpTo, Backlog.takeFront?]
    | cons x rest =>
      have hlen : (Backlog.closeGap rest).length ≤ n := by
        rw [hb] at hn
        simpa using hn
      have front : Backlog.takeFront? e.backlog = some (x, Backlog.closeGap rest) := by rw [hb]; rfl
      rw [flushUpTo, front]
      simp only
      by_cases hprimary : e.primary.length < s.primaryCapacity
      · -- The front goes into the primary queue, which has room for one job fewer then.
        obtain ⟨p, rfl⟩ : ∃ q, p = q + 1 := ⟨p - 1, by omega⟩
        have placed : { e with backlog := Backlog.closeGap rest }.offer s x =
            .placed .primary { e with
              primary := e.primary ++ [x]
              backlog := Backlog.closeGap rest } :=
          offer_eq_placed.2 ⟨ho, .inl ⟨rfl, hprimary, rfl⟩⟩
        have later := ih (e := { e with
            primary := e.primary ++ [x]
            backlog := Backlog.closeGap rest }) (p := p) (t := t) hlen ho (by simp; omega) ht
        rw [placed]
        simp only [later]
        simp [Backlog.after, Nat.add_right_comm p 1 t]
      · obtain rfl : p = 0 := by omega
        by_cases htemp : e.temp.length < s.tempCapacity
        · -- The primary queue is full; the front goes into the temporary one.
          obtain ⟨t, rfl⟩ : ∃ q, t = q + 1 := ⟨t - 1, by omega⟩
          have placed : { e with backlog := Backlog.closeGap rest }.offer s x =
              .placed .temp { e with
                temp := e.temp ++ [x]
                backlog := Backlog.closeGap rest } :=
            offer_eq_placed.2 ⟨ho, .inr ⟨rfl, Nat.not_lt.1 hprimary, htemp, rfl⟩⟩
          have later := ih (e := { e with
              temp := e.temp ++ [x]
              backlog := Backlog.closeGap rest }) (p := 0) (t := t) hlen ho hp (by simp; omega)
          rw [placed]
          simp only [later]
          simp [Backlog.after]
        · -- Both queues are full; the front goes back to its place.
          obtain rfl : t = 0 := by omega
          have refused : { e with backlog := Backlog.closeGap rest }.offer s x = .full :=
            offer_eq_full.2 ⟨ho, Nat.not_lt.1 hprimary, Nat.not_lt.1 htemp⟩
          rw [refused]
          simp [Backlog.after]

/-- What a flush of an open epoch comes to that has room for `p` jobs in its primary queue and moves
`k` of the `n` jobs of its backlog. -/
structure Reorders (e : Epoch ν) (p n k : Nat) (f : Flush ν) : Prop where
  isOpen : f.isOpen = true
  /-- The first `k` of the jobs as they leave the backlog are moved, as many of them into the
  primary queue as there is room for, and the others into the temporary one. -/
  moved : f.moved = (((Backlog.outgoing e.backlog).take k).take (min k p)).map (.primary, ·) ++
    (((Backlog.outgoing e.backlog).take k).drop (min k p)).map (.temp, ·)
  /-- They are appended to the queues, and nothing else changes but the backlog. -/
  epoch : f.epoch = { e with
    primary := e.primary ++ ((Backlog.outgoing e.backlog).take k).take (min k p)
    temp := e.temp ++ ((Backlog.outgoing e.backlog).take k).drop (min k p)
    backlog := f.epoch.backlog }
  unmoved : k = 0 → f.epoch.backlog = e.backlog
  emptied : k = n → f.epoch.backlog = []
  /-- Of the jobs left behind the last one has come to the front. -/
  left : 0 < k → k < n → ∃ front, e.backlog[n - k]? = some front ∧
    f.epoch.backlog = front :: (e.backlog.take (n - k)).tail

/-- Flushing a backlog computes a fixed reordering of it and loses nothing. The loop ends by itself
after at most one offer for each job. In open queues it publishes as many jobs as there is room for,
the front and then from the back; closed queues are reported exactly if there was something to
offer, and then nothing has changed. -/
theorem flush_reorders (s : Settings) (e : Epoch ν) :
    (∃ offers ≤ e.backlog.length, FlushesIn s e (e.flush s) offers) ∧
      if e.closed then
        ((e.flush s).isOpen = false ↔ e.backlog ≠ []) ∧ (e.flush s).epoch = e ∧
          (e.flush s).moved = []
      else
        Reorders e (s.primaryCapacity - e.primary.length) e.backlog.length
          (min e.backlog.length
            ((s.primaryCapacity - e.primary.length) + (s.tempCapacity - e.temp.length)))
          (e.flush s) := by
  refine ⟨exists_flushesIn (Nat.le_refl _), ?_⟩
  cases hc : e.closed with
  | true =>
    cases hb : e.backlog with
    | nil =>
      have nothing : e.flush s = ⟨e, [], true⟩ := by rw [flush, hb]; rfl
      simp [nothing]
    | cons x rest =>
      have refused : e.flush s = ⟨e, [], false⟩ := by
        rw [flush, hb, List.length_cons, flushUpTo, hb, Backlog.takeFront?]
        simp only [offer_of_closed s { e with backlog := Backlog.closeGap rest } x hc,
          Backlog.putFront_closeGap, ← hb]
      simp [refused]
  | false =>
    have flushed := flushUpTo_of_open (s := s) (e := e) (Nat.le_refl _) hc rfl rfl
    rw [← flush] at flushed
    generalize s.primaryCapacity - e.primary.length = p at flushed ⊢
    generalize s.tempCapacity - e.temp.length = t at flushed ⊢
    have jobs : (Backlog.outgoing e.backlog).take (min e.backlog.length (p + t)) =
        (Backlog.outgoing e.backlog).take (p + t) := by
      rw [← Backlog.length_outgoing, Nat.min_comm, ← List.take_eq_take_min]
    have length : ((Backlog.outgoing e.backlog).take (p + t)).length =
        min e.backlog.length (p + t) := by
      rw [List.length_take, Backlog.length_outgoing, Nat.min_comm]
    have room : ((Backlog.outgoing e.backlog).take (p + t)).take
          (min (min e.backlog.length (p + t)) p) =
            ((Backlog.outgoing e.backlog).take (p + t)).take p := by
      rw [← length, Nat.min_comm, ← List.take_eq_take_min]
    have others : ((Backlog.outgoing e.backlog).take (p + t)).drop
          (min (min e.backlog.length (p + t)) p) =
            ((Backlog.outgoing e.backlog).take (p + t)).drop p := by
      rw [← length, Nat.min_comm, ← List.drop_eq_drop_min]
    have left : (e.flush s).epoch.backlog = Backlog.after (p + t) e.backlog := by rw [flushed]
    constructor
    case isOpen => rw [flushed]
    case moved => rw [jobs, room, others, flushed]
    case epoch => rw [jobs, room, others, flushed]
    case unmoved =>
      intro hk
      obtain hn | hpt : e.backlog.length = 0 ∨ p + t = 0 := by omega
      · rw [left, List.length_eq_zero_iff.1 hn, Backlog.after_nil]
      · rw [left, hpt, Backlog.after]
    case emptied =>
      intro hk
      rw [left, Backlog.after_of_length_le _ (by omega)]
    case left =>
      intro h0 hk
      have hmin : min e.backlog.length (p + t) = p + t := by omega
      rw [hmin] at h0 hk ⊢
      rw [left]
      exact Backlog.after_eq_cons _ h0 hk

end Epoch

end WorkerPool
