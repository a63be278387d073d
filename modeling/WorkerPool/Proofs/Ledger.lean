import Mathlib.Data.List.Count
import Mathlib.Algebra.BigOperators.Group.List.Basic
import Mathlib.Algebra.GroupWithZero.Nat
import WorkerPool.Proofs.Line

/-!
# The ledger of jobs

Every submission draws one ticket and is answered at most once. A job that an epoch accepted is
counted once among what the epoch holds, what its workers hold, and what has become of it. These
accounts balance in every state, whatever the order of moves.
-/

namespace WorkerPool

variable {ν : Type}

/-- What the journal says of the way of one job. -/
inductive Booking where
  | submitted (ticket : Nat)
  | accepted (epoch : EpochId) (ticket : Nat)
  | refused (ticket : Nat)
  | started (epoch : EpochId) (ticket : Nat)
  | finished (epoch : EpochId) (ticket : Nat)
  | abandoned (epoch : EpochId) (ticket : Nat)
  | lost (epoch : EpochId) (ticket : Nat)
  deriving DecidableEq, Repr

/-- The job of this ticket was accepted, by whatever epoch. -/
def Booking.accepts (k : Nat) : Booking → Bool
  | accepted _ ticket => ticket = k
  | _ => false

/-- What an occurrence says of the way of a job; what happens inside of an epoch is not booked. -/
def Occurrence.booking? : Occurrence ν → Option Booking
  | submitted ticket _ => some (.submitted ticket)
  | queued e ticket _ => some (.accepted e ticket)
  | seeded e ticket _ => some (.accepted e ticket)
  | handedOver e ticket => some (.accepted e ticket)
  | refused ticket => some (.refused ticket)
  | started e ticket _ _ => some (.started e ticket)
  | finished e ticket _ => some (.finished e ticket)
  | abandoned e ticket => some (.abandoned e ticket)
  | lost e ticket _ => some (.lost e ticket)
  | _ => none

/-- The epoch and the ticket of the job that a task holds. -/
def Task.held? : Task ν → Option (EpochId × Nat)
  | worker home _ (.seeded _ x) => some (home, x.ticket)
  | worker home _ (.busy _ ticket _) => some (home, ticket)
  | _ => none

/-- The epoch and the ticket of the job that a task runs. -/
def Task.running? : Task ν → Option (EpochId × Nat)
  | worker home _ (.busy _ ticket _) => some (home, ticket)
  | _ => none

namespace Task

@[simp] theorem held?_withThread (th : Thread ν) (task : Task ν) :
    (task.withThread th).held? = task.held? := by
  rcases task with ⟨home, kind, _ | _ | _ | _ | _ | _⟩ | ⟨home, _ | _ | _ | _ | _ | _⟩ | _ <;> rfl

/-- A job is held by a worker that was hired for it or that runs it. -/
theorem held?_eq_some {task : Task ν} {e : EpochId} {k : Nat} (h : task.held? = some (e, k)) :
    (∃ kind live x, task = .worker e kind (.seeded live x) ∧ x.ticket = k) ∨
      ∃ kind source th, task = .worker e kind (.busy source k th) := by
  rcases task with ⟨home, kind, _ | ⟨live, x⟩ | _ | ⟨source, ticket, th⟩ | _ | _⟩ | _ | _ <;>
    simp only [held?, reduceCtorEq, Option.some.injEq, Prod.mk.injEq] at h
  · obtain ⟨rfl, rfl⟩ := h
    exact .inl ⟨kind, live, x, rfl, rfl⟩
  · obtain ⟨rfl, rfl⟩ := h
    exact .inr ⟨kind, source, th, rfl⟩

@[simp] theorem running?_withThread (th : Thread ν) (task : Task ν) :
    (task.withThread th).running? = task.running? := by
  rcases task with ⟨home, kind, _ | _ | _ | _ | _ | _⟩ | ⟨home, _ | _ | _ | _ | _ | _⟩ | _ <;> rfl

end Task

namespace World

/-- One summand gives way to another. -/
theorem sum_map_set {α : Type} (f : α → Nat) (y : α) {l : List α} {i : Nat} {x : α}
    (h : l[i]? = some x) : ((l.set i y).map f).sum + f x = (l.map f).sum + f y := by
  induction l generalizing i with
  | nil => simp at h
  | cons z l ih =>
    cases i with
    | zero =>
      obtain rfl : z = x := by simpa using h
      simp only [List.set_cons_zero, List.map_cons, List.sum_cons]
      omega
    | succ i =>
      have := ih (i := i) (by simpa using h)
      simp only [List.set_cons_succ, List.map_cons, List.sum_cons]
      omega

section Totals

variable (w : World ν) (f : Task ν → Nat)

/-- The sum of a weight over all tasks. -/
def total : Nat := (w.tasks.toList.map f).sum

@[simp] theorem total_record (o : Occurrence ν) : (w.record o).total f = w.total f := rfl
@[simp] theorem total_modifyEpoch (e : EpochId) (g : Epoch ν → Epoch ν) :
    (w.modifyEpoch e g).total f = w.total f := rfl
@[simp] theorem total_draw (job : Job ν) : (w.draw job).total f = w.total f := rfl
@[simp] theorem total_stop (e : EpochId) : (w.stop e).total f = w.total f := rfl

@[simp] theorem total_recordAll (os : List (Occurrence ν)) :
    (w.recordAll os).total f = w.total f := by
  rw [total, tasks_recordAll, ← total]

/-- The task that is set counts in place of the one before. -/
theorem total_setTask {t : TaskId} {old : Task ν} (ht : w.tasks[t]? = some old) (task : Task ν) :
    (w.setTask t task).total f + f old = w.total f + f task := by
  simpa [total, setTask] using sum_map_set f task (l := w.tasks.toList) (i := t) (by simpa using ht)

/-- A task that is set with the weight of the one before changes no sum. -/
theorem total_setTask_of_eq {t : TaskId} {old task : Task ν} (ht : w.tasks[t]? = some old)
    (h : f task = f old) : (w.setTask t task).total f = w.total f := by
  have := w.total_setTask f ht task
  omega

/-- A task that is added counts in addition. -/
@[simp] theorem total_spawn (task : Task ν) : (w.spawn task).total f = w.total f + f task := by
  simp [total, spawn]

/-- Tasks without weight have no sum. -/
theorem total_eq_zero (h : ∀ (t : TaskId) (task : Task ν), w.tasks[t]? = some task → f task = 0) :
    w.total f = 0 := by
  apply List.sum_eq_zero
  intro n hn
  obtain ⟨task, htask, rfl⟩ := List.mem_map.1 hn
  obtain ⟨t, ht⟩ := List.mem_iff_getElem?.1 htask
  exact h t task (by rwa [Array.getElem?_toList] at ht)

/-- A new crew without weight changes no sum. -/
theorem total_launch (h : ∀ task ∈ crew w.settings w.epochs.size, f task = 0) :
    w.launch.total f = w.total f := by
  have hz : ((crew w.settings w.epochs.size).map f).sum = 0 := by
    rw [List.sum_eq_zero]
    intro x hx
    obtain ⟨task, hm, rfl⟩ := List.mem_map.1 hx
    exact h task hm
  simp [total, hz]

end Totals

section Books

variable (w : World ν)

/-- What the journal says of the ways of jobs, in order. -/
def books : List Booking := w.occurrences.filterMap Occurrence.booking?

@[simp] theorem books_recordAll (os : List (Occurrence ν)) :
    (w.recordAll os).books = w.books ++ os.filterMap Occurrence.booking? := w.picked_recordAll _ os

@[simp] theorem books_record (o : Occurrence ν) :
    (w.record o).books = w.books ++ o.booking?.toList := w.picked_record _ o

@[simp] theorem books_setTask (t : TaskId) (task : Task ν) :
    (w.setTask t task).books = w.books := rfl
@[simp] theorem books_spawn (task : Task ν) : (w.spawn task).books = w.books := rfl
@[simp] theorem books_modifyEpoch (e : EpochId) (f : Epoch ν → Epoch ν) :
    (w.modifyEpoch e f).books = w.books := rfl

@[simp] theorem books_draw (job : Job ν) :
    (w.draw job).books = w.books ++ [.submitted w.nextTicket] := w.picked_draw job _

@[simp] theorem books_stop (e : EpochId) : (w.stop e).books = w.books := by
  simp [books, Occurrence.booking?]

@[simp] theorem books_launch : w.launch.books = w.books := by
  simp [books, Occurrence.booking?]

variable {w} in
theorem Aside.books {u : World ν} (h : Aside w u) : u.books = w.books :=
  h.picked (fun _ => rfl) fun _ _ => rfl

section Bookings

variable {w} {e : EpochId} {k : Nat}

/-- What is in the books is booked for something that happened. -/
theorem mem_books_iff {b : Booking} :
    b ∈ w.books ↔ ∃ o ∈ w.occurrences, o.booking? = some b := mem_picked

/-- An occurrence that is booked is in the books. -/
theorem mem_books {o : Occurrence ν} {b : Booking} (ho : o ∈ w.occurrences)
    (hb : o.booking? = some b) : b ∈ w.books := mem_books_iff.2 ⟨o, ho, hb⟩

/-- What was refused is in the books as that. -/
theorem refused_mem_books : .refused k ∈ w.books ↔ .refused k ∈ w.occurrences := by
  refine ⟨fun h => ?_, fun h => mem_books h rfl⟩
  obtain ⟨o, ho, hb⟩ := mem_books_iff.1 h
  cases o <;> cases hb
  exact ho

/-- What was begun is in the books as that. -/
theorem started_mem_books :
    .started e k ∈ w.books ↔ ∃ t source, .started e k t source ∈ w.occurrences := by
  refine ⟨fun h => ?_, fun ⟨_, _, h⟩ => mem_books h rfl⟩
  obtain ⟨o, ho, hb⟩ := mem_books_iff.1 h
  cases o <;> cases hb
  exact ⟨_, _, ho⟩

/-- What was finished is in the books as that. -/
theorem finished_mem_books :
    .finished e k ∈ w.books ↔ ∃ ending, .finished e k ending ∈ w.occurrences := by
  refine ⟨fun h => ?_, fun ⟨_, h⟩ => mem_books h rfl⟩
  obtain ⟨o, ho, hb⟩ := mem_books_iff.1 h
  cases o <;> cases hb
  exact ⟨_, ho⟩

/-- What was abandoned is in the books as that. -/
theorem abandoned_mem_books : .abandoned e k ∈ w.books ↔ .abandoned e k ∈ w.occurrences := by
  refine ⟨fun h => ?_, fun h => mem_books h rfl⟩
  obtain ⟨o, ho, hb⟩ := mem_books_iff.1 h
  cases o <;> cases hb
  exact ho

/-- What was lost is in the books as that. -/
theorem lost_mem_books : .lost e k ∈ w.books ↔ ∃ t, .lost e k t ∈ w.occurrences := by
  refine ⟨fun h => ?_, fun ⟨_, h⟩ => mem_books h rfl⟩
  obtain ⟨o, ho, hb⟩ := mem_books_iff.1 h
  cases o <;> cases hb
  exact ⟨_, ho⟩

end Bookings

end Books

section Accounts

variable (w : World ν)

/-- How often an epoch holds the job of a ticket. -/
def stock (e : EpochId) (k : Nat) : Nat := (w.epoch e).entries.countP (·.ticket = k)

/-- How many workers of an epoch hold the job of a ticket. -/
def holders (e : EpochId) (k : Nat) : Nat :=
  w.total fun task => if task.held? = some (e, k) then 1 else 0

/-- How many workers of an epoch run the job of a ticket. -/
def runners (e : EpochId) (k : Nat) : Nat :=
  w.total fun task => if task.running? = some (e, k) then 1 else 0

/-- How many tasks stand in line with a ticket. -/
def waiters (k : Nat) : Nat :=
  w.total fun task => if task.line?.map Prod.snd = some k then 1 else 0

/-- The accounts balance. -/
structure Ledger : Prop where
  /-- Every ticket is drawn once, in order. -/
  submitted : ∀ k, w.books.count (.submitted k) = if k < w.nextTicket then 1 else 0
  /-- Whoever drew a ticket waits in line or was answered once. -/
  drawn : ∀ k, w.waiters k + w.books.countP (·.accepts k) + w.books.count (.refused k) =
    if k < w.nextTicket then 1 else 0
  /-- A job that an epoch accepted is held by the epoch or by one of its workers, or it was
  finished, abandoned or lost. -/
  kept : ∀ e k, w.stock e k + w.holders e k + w.books.count (.finished e k) +
    w.books.count (.abandoned e k) + w.books.count (.lost e k) = w.books.count (.accepted e k)
  /-- A job that a worker began is run by it or was finished. -/
  begun : ∀ e k, w.runners e k + w.books.count (.finished e k) = w.books.count (.started e k)

variable {w} {u : World ν}

section Frame

variable (e : EpochId) (k : Nat)

@[simp] theorem stock_record (o : Occurrence ν) : (w.record o).stock e k = w.stock e k := rfl
@[simp] theorem stock_setTask (t : TaskId) (task : Task ν) :
    (w.setTask t task).stock e k = w.stock e k := rfl
@[simp] theorem stock_spawn (task : Task ν) : (w.spawn task).stock e k = w.stock e k := rfl
@[simp] theorem stock_draw (job : Job ν) : (w.draw job).stock e k = w.stock e k := rfl

@[simp] theorem stock_recordAll (os : List (Occurrence ν)) :
    (w.recordAll os).stock e k = w.stock e k := by
  rw [stock, epoch_recordAll, ← stock]

@[simp] theorem stock_launch : w.launch.stock e k = w.stock e k := by
  rw [stock, epoch_launch, ← stock]

/-- A new crew holds nothing and waits for nothing. -/
theorem total_launch_of_idle {f : Task ν → Nat}
    (hp : ∀ e i, f (.worker e (.permanent i) .hired) = 0)
    (hd : ∀ e, f (.dispatcher e .hired) = 0) : w.launch.total f = w.total f := by
  apply w.total_launch f
  intro task hm
  obtain ⟨_, _, rfl⟩ | ⟨_, rfl⟩ := mem_crew.1 hm
  · exact hp _ _
  · exact hd _

@[simp] theorem holders_launch : w.launch.holders e k = w.holders e k :=
  total_launch_of_idle (by simp [Task.held?]) (by simp [Task.held?])

@[simp] theorem runners_launch : w.launch.runners e k = w.runners e k :=
  total_launch_of_idle (by simp [Task.running?]) (by simp [Task.running?])

@[simp] theorem waiters_launch : w.launch.waiters k = w.waiters k :=
  total_launch_of_idle (by simp [Task.line?, Task.thread?]) (by simp [Task.line?, Task.thread?])

end Frame

/-- What an epoch holds may change places in it. -/
theorem stock_modifyEpoch_of_perm (e : EpochId) {f : Epoch ν → Epoch ν}
    (h : (f (w.epoch e)).entries.Perm (w.epoch e).entries) (i : EpochId) (k : Nat) :
    (w.modifyEpoch e f).stock i k = w.stock i k := by
  unfold stock
  exact w.modifyEpoch_keeps e f (fun ep : Epoch ν => ep.entries.countP fun x => x.ticket = k)
    (h.countP_eq _) i

/-- An epoch that takes a job holds it in addition. -/
theorem stock_modifyEpoch_of_taken {e : EpochId} (he : e < w.epochs.size) {f : Epoch ν → Epoch ν}
    {x : Entry ν} (h : (f (w.epoch e)).entries.Perm (x :: (w.epoch e).entries)) (i : EpochId)
    (k : Nat) : (w.modifyEpoch e f).stock i k =
      w.stock i k + if e = i ∧ x.ticket = k then 1 else 0 := by
  unfold stock
  by_cases hi : i = e
  · subst hi
    rw [epoch_modifyEpoch_self _ _ _ he, h.countP_eq, List.countP_cons]
    simp
  · rw [epoch_modifyEpoch_of_ne _ _ _ hi]
    simp [Ne.symm hi]

/-- An epoch that gives a job away held it in addition. -/
theorem stock_modifyEpoch_of_given {e : EpochId} (he : e < w.epochs.size) {f : Epoch ν → Epoch ν}
    {x : Entry ν} (h : (w.epoch e).entries.Perm (x :: (f (w.epoch e)).entries)) (i : EpochId)
    (k : Nat) : w.stock i k =
      (w.modifyEpoch e f).stock i k + if e = i ∧ x.ticket = k then 1 else 0 := by
  unfold stock
  by_cases hi : i = e
  · subst hi
    rw [epoch_modifyEpoch_self _ _ _ he, h.countP_eq, List.countP_cons]
    simp
  · rw [epoch_modifyEpoch_of_ne _ _ _ hi]
    simp [Ne.symm hi]

/-- The tickets drawn are those below the next one. -/
theorem drawn_of_draws {bs : List Booking}
    (h : u.nextTicket = w.nextTicket ∧ (∀ k, bs.count (.submitted k) = 0) ∨
      u.nextTicket = w.nextTicket + 1 ∧
        ∀ k, bs.count (.submitted k) = if w.nextTicket = k then 1 else 0) (k : Nat) :
    (if k < w.nextTicket then 1 else 0) + bs.count (.submitted k) =
      if k < u.nextTicket then 1 else 0 := by
  obtain ⟨hn, hs⟩ | ⟨hn, hs⟩ := h
  · rw [hn, hs, Nat.add_zero]
  · rw [hn, hs]
    split_ifs <;> omega

/-- The accounts balance after new bookings if what they stand for is drawn, answered and moved. -/
theorem Ledger.append (h : w.Ledger) (bs : List Booking) (hb : u.books = w.books ++ bs)
    (hs : u.nextTicket = w.nextTicket ∧ (∀ k, bs.count (.submitted k) = 0) ∨
      u.nextTicket = w.nextTicket + 1 ∧
        ∀ k, bs.count (.submitted k) = if w.nextTicket = k then 1 else 0)
    (hd : ∀ k, u.waiters k + bs.countP (·.accepts k) + bs.count (.refused k) =
      w.waiters k + bs.count (.submitted k))
    (hk : ∀ e k, u.stock e k + u.holders e k + bs.count (.finished e k) +
      bs.count (.abandoned e k) + bs.count (.lost e k) =
        w.stock e k + w.holders e k + bs.count (.accepted e k))
    (hr : ∀ e k, u.runners e k + bs.count (.finished e k) =
      w.runners e k + bs.count (.started e k)) : u.Ledger where
  submitted k := by
    rw [hb, List.count_append, h.submitted]
    exact drawn_of_draws hs k
  drawn k := by
    have := h.drawn k
    have := hd k
    have := drawn_of_draws hs k
    rw [hb, List.count_append, List.countP_append]
    omega
  kept e k := by
    have := h.kept e k
    have := hk e k
    simp only [hb, List.count_append]
    omega
  begun e k := by
    have := h.begun e k
    have := hr e k
    simp only [hb, List.count_append]
    omega

/-- A change that is not booked and moves no job keeps the accounts. -/
theorem Ledger.of_same (h : w.Ledger) (hb : u.books = w.books) (hn : u.nextTicket = w.nextTicket)
    (hs : ∀ e k, u.stock e k = w.stock e k) (hh : ∀ e k, u.holders e k = w.holders e k)
    (hr : ∀ e k, u.runners e k = w.runners e k) (hw : ∀ k, u.waiters k = w.waiters k) :
    u.Ledger :=
  h.append [] (hb.trans (List.append_nil _).symm) (.inl ⟨hn, by simp⟩) (by simp [hw])
    (by simp [hs, hh]) (by simp [hr])

end Accounts

section Code

variable {w w' : World ν} {t : TaskId} {task : Task ν} {th th' : Thread ν}
  (h : Shift t task.author? th w th' w') (ht : w.tasks[t]? = some task)
  (hth : task.thread? = some th)

include h ht

/-- A task counts by the code that it runs. -/
theorem Shift.total_withThread (f : Task ν → Nat) :
    (w'.setTask t (task.withThread th')).total f + f task =
      w'.total f + f (task.withThread th') := by
  have hs : t < w.tasks.size := (Array.getElem?_eq_some_iff.1 ht).1
  exact w'.total_setTask f ((h.getElem?_tasks hs).trans ht) _

/-- What does not depend on the code of a task counts as before. -/
theorem Shift.total_withThread_of_eq {f : Task ν → Nat} (hf : f (task.withThread th') = f task) :
    (w'.setTask t (task.withThread th')).total f = w'.total f := by
  have := h.total_withThread ht f
  omega

/-- A task holds the same job wherever its code has come to. -/
theorem Shift.holders_withThread (e : EpochId) (k : Nat) :
    (w'.setTask t (task.withThread th')).holders e k = w'.holders e k :=
  h.total_withThread_of_eq ht (by simp only [Task.held?_withThread])

/-- A task runs the same job wherever its code has come to. -/
theorem Shift.runners_withThread (e : EpochId) (k : Nat) :
    (w'.setTask t (task.withThread th')).runners e k = w'.runners e k :=
  h.total_withThread_of_eq ht (by simp only [Task.running?_withThread])

include hth

/-- A task waits in line if its code does. -/
theorem Shift.waiters_withThread (k : Nat) : (w'.setTask t (task.withThread th')).waiters k +
    (if th.wait.line?.map Prod.snd = some k then 1 else 0) =
      w'.waiters k + if th'.wait.line?.map Prod.snd = some k then 1 else 0 := by
  have := h.total_withThread ht fun task => if task.line?.map Prod.snd = some k then 1 else 0
  simpa only [waiters, Task.line?, hth, h.thread?_withThread hth, Option.bind_some] using this

/-- Code keeps the accounts if its bookings say what it does and where it waits. -/
theorem Shift.ledger_of_booked (hl : w.Ledger) (bs : List Booking) (hb : w'.books = w.books ++ bs)
    (hs : w'.nextTicket = w.nextTicket ∧ (∀ k, bs.count (.submitted k) = 0) ∨
      w'.nextTicket = w.nextTicket + 1 ∧
        ∀ k, bs.count (.submitted k) = if w.nextTicket = k then 1 else 0)
    (hd : ∀ k, w'.waiters k + (if th'.wait.line?.map Prod.snd = some k then 1 else 0) +
        bs.countP (·.accepts k) + bs.count (.refused k) =
      w.waiters k + (if th.wait.line?.map Prod.snd = some k then 1 else 0) +
        bs.count (.submitted k))
    (hk : ∀ e k, w'.stock e k + w'.holders e k + bs.count (.finished e k) +
        bs.count (.abandoned e k) + bs.count (.lost e k) =
      w.stock e k + w.holders e k + bs.count (.accepted e k))
    (hr : ∀ e k, w'.runners e k + bs.count (.finished e k) =
      w.runners e k + bs.count (.started e k)) :
    (w'.setTask t (task.withThread th')).Ledger := by
  refine hl.append bs hb hs (fun k => ?_) (fun e k => ?_) fun e k => ?_
  · have := h.waiters_withThread ht hth k
    have := hd k
    omega
  · rw [h.holders_withThread ht]
    exact hk e k
  · rw [h.runners_withThread ht]
    exact hr e k

/-- Code keeps the accounts if it books nothing, moves no job and waits where it waited. -/
theorem Shift.ledger_of_same (hl : w.Ledger) (hb : w'.books = w.books)
    (hn : w'.nextTicket = w.nextTicket) (hs : ∀ e k, w'.stock e k = w.stock e k)
    (hf : ∀ f, w'.total f = w.total f) (hline : th'.wait.line? = th.wait.line?) :
    (w'.setTask t (task.withThread th')).Ledger := by
  refine hl.of_same hb hn hs (fun e k => (h.holders_withThread ht e k).trans (hf _))
    (fun e k => (h.runners_withThread ht e k).trans (hf _)) fun k => ?_
  have hk := h.waiters_withThread ht hth k
  rw [hline] at hk
  exact (Nat.add_right_cancel hk).trans (hf _)

/-- Code keeps the accounts. -/
theorem Shift.ledger (hw : w.Sound) (ho : w.Orderly) (hl : w.Ledger) :
    (w'.setTask t (task.withThread th')).Ledger := by
  have booked := h.ledger_of_booked ht hth hl
  have still := h.ledger_of_same ht hth hl
  cases h with
  | deed _ _ hwait =>
    exact still (by simp [Occurrence.booking?]) (by simp) (by simp [stock]) (by simp)
      (by rw [hwait]; rfl)
  | callbackDeed =>
    exact still (by simp [Occurrence.booking?]) (by simp) (by simp [stock]) (by simp) rfl
  | paused _ _ _ hwait => exact still rfl rfl (fun _ _ => rfl) (fun _ => rfl) (by rw [hwait]; rfl)
  | asleep _ _ hwait => exact still rfl rfl (fun _ _ => rfl) (fun _ => rfl) (by rw [hwait]; rfl)
  | awaiting _ hwait =>
    refine still rfl rfl (fun _ _ => rfl) (fun _ => rfl) ?_
    obtain hwait | ⟨_, hwait⟩ := hwait <;> rw [hwait] <;> rfl
  | answered _ _ _ hwait =>
    exact still (by simp [Occurrence.booking?]) rfl (fun _ _ => rfl) (fun _ => rfl)
      (by rw [hwait]; rfl)
  | returned => exact still rfl rfl (fun _ _ => rfl) (fun _ => rfl) rfl
  | @abandoned e n rest x ep hlayers hd =>
    have he : e < w.epochs.size :=
      (((hw.tasks t _ ht).thread th hth).drains e n (by rw [hlayers]; exact List.mem_cons_self)).1
    have hstock := stock_modifyEpoch_of_given he (f := fun _ => ep) (Epoch.perm_entries_of_drain hd)
    refine booked [.abandoned e x.ticket] (by simp [Occurrence.booking?])
      (.inl ⟨rfl, fun k => by simp⟩) (fun k => by simp [waiters, Booking.accepts]) (fun i k => ?_)
      (fun i k => by simp [runners])
    have := hstock i k
    simp [List.count_cons, holders]
    omega
  | drained => exact still rfl rfl (fun _ _ => rfl) (fun _ => rfl) rfl
  | @halted e wait _ _ hwait =>
    refine still (by simp) rfl ?_ (by simp) ?_
    · exact stock_modifyEpoch_of_perm e (.refl _)
    · obtain rfl | ⟨rfl, hwait, _⟩ := hwait
      · rfl
      · exact hwait.symm
  | launched =>
    exact booked [] (by simp) (.inl ⟨by simp, by simp⟩) (by simp) (by simp) (by simp)
  | aside ha =>
    refine still ha.books ha.nextTicket (fun e k => ?_) (fun f => ?_) rfl
    · rw [stock, epoch, ha.epochs, ← epoch, ← stock]
    · rw [total, ha.tasks, ← total]
  | @queued job _ _ _ _ e _ ep _ _ _ hc hx =>
    have hstock := stock_modifyEpoch_of_taken (w := w.draw job) (f := fun _ => ep)
      (hw.current_lt e hc) (Epoch.perm_entries_of_placed hx)
    refine booked [.submitted w.nextTicket, .accepted e w.nextTicket]
      (by simp [Occurrence.booking?]) (.inr ⟨rfl, fun k => by simp [List.count_cons]⟩)
      (fun k => ?_) (fun i k => ?_) (fun i k => by simp [runners])
    · simp [waiters, List.count_cons, Booking.accepts]
    · have := hstock i k
      simp [List.count_cons, holders] at this ⊢
      omega
  | @hired job _ _ _ _ e =>
    have hstock := stock_modifyEpoch_of_perm (w := w.draw job) e
      (f := fun ep => { ep with temps := ep.temps + 1 }) (.refl _)
    refine booked [.submitted w.nextTicket, .accepted e w.nextTicket]
      (by simp [hire, Occurrence.booking?]) (.inr ⟨rfl, fun k => by simp [List.count_cons]⟩)
      (fun k => ?_) (fun i k => ?_) (fun i k => by simp [runners, hire, Task.running?])
    · simp [waiters, hire, Task.line?, Task.thread?, List.count_cons, Booking.accepts]
    · have := hstock i k
      simp [List.count_cons, holders, hire, Task.held?] at this ⊢
      omega
  | @handedOver job _ _ _ _ e limit _ _ _ hc _ _ _ hf =>
    have hstock := stock_modifyEpoch_of_taken (w := w.draw job) (hw.current_lt e hc)
      (Epoch.perm_entries_put (Intake.isFree_iff.1 hf).1 ⟨w.nextTicket, job⟩)
      (f := fun ep => { ep with intake := ep.intake.put ⟨w.nextTicket, job⟩ })
    refine booked [.submitted w.nextTicket, .accepted e w.nextTicket]
      (by simp [handOver, Occurrence.booking?]) (.inr ⟨rfl, fun k => by simp [List.count_cons]⟩)
      (fun k => ?_) (fun i k => ?_) (fun i k => by simp [runners, handOver])
    · simp [waiters, handOver, List.count_cons, Booking.accepts]
    · have := hstock i k
      simp [List.count_cons, holders, handOver] at this ⊢
      omega
  | @refused job =>
    refine booked [.submitted w.nextTicket, .refused w.nextTicket] (by simp [Occurrence.booking?])
      (.inr ⟨rfl, fun k => by simp [List.count_cons]⟩) (fun k => ?_) (fun i k => ?_)
      (fun i k => by simp [runners])
    · simp [waiters, List.count_cons, Booking.accepts]
    · simp [holders]
  | @joined job _ _ _ _ e limit _ _ hwait =>
    have hstock := stock_modifyEpoch_of_perm (w := w.draw job) e
      (f := fun ep => { ep with intake := ep.intake.join t }) (.refl _)
    refine booked [.submitted w.nextTicket] (by simp)
      (.inr ⟨rfl, fun k => by simp [List.count_cons]⟩) (fun k => ?_) (fun i k => ?_)
      (fun i k => by simp [runners])
    · rw [hwait]
      simp [waiters, Wait.line?, List.count_cons, Booking.accepts]
    · have := hstock i k
      simp [holders] at this ⊢
      omega
  | @granted job _ _ _ _ e k _ _ hwait _ _ hg =>
    have he : e < w.epochs.size :=
      ((hw.tasks t _ ht).thread th hth).line_lt e k (by rw [hwait]; rfl)
    have hstock := stock_modifyEpoch_of_taken he
      (Epoch.perm_entries_put ((ho e).slot_eq (by simp [hg])) ⟨k, job⟩)
      (f := fun ep => { ep with intake := ep.intake.put ⟨k, job⟩ })
    refine booked [.accepted e k] (by simp [handOver, Occurrence.booking?])
      (.inl ⟨rfl, fun k => by simp⟩) (fun i => ?_) (fun i j => ?_)
      (fun i j => by simp [runners, handOver])
    · simp [waiters, handOver, hwait, Wait.line?, Booking.accepts]
    · have := hstock i j
      simp [List.count_cons, holders, handOver] at this ⊢
      omega
  | @gaveUp e k _ hwait =>
    have hstock := stock_modifyEpoch_of_perm (w := w) e
      (f := fun ep => { ep with intake := ep.intake.leave t }) (by simp [Epoch.entries])
    refine booked [.refused k] (by simp [giveUp, Occurrence.booking?])
      (.inl ⟨rfl, fun k => by simp⟩) (fun i => ?_) (fun i j => ?_)
      (fun i j => by simp [runners, giveUp])
    · simp [waiters, giveUp, hwait, Wait.line?, Booking.accepts, List.count_cons]
    · have := hstock i j
      simp [holders, giveUp] at this ⊢
      omega

end Code

section Changes

variable {w u : World ν}

/-- A task that holds nothing and waits for nothing, before and after, counts for nothing. -/
theorem Ledger.setTask_of_idle (h : w.Ledger) {t : TaskId} {old task : Task ν}
    (ht : w.tasks[t]? = some old) (hh : task.held? = old.held?)
    (hr : task.running? = old.running?) (hl : task.line? = old.line?) : (w.setTask t task).Ledger :=
  h.of_same rfl rfl (fun _ _ => rfl)
    (fun e k => w.total_setTask_of_eq _ ht (by simp only [hh]))
    (fun e k => w.total_setTask_of_eq _ ht (by simp only [hr]))
    fun k => w.total_setTask_of_eq _ ht (by simp only [hl])

/-- A task that takes a job up or puts it down keeps the accounts if the books say so. -/
theorem Ledger.setTask (h : w.Ledger) {v : World ν} {t : TaskId} {old task : Task ν}
    (bs : List Booking) (ht : w.tasks[t]? = some old) (hv : v.tasks = w.tasks)
    (hb : v.books = w.books ++ bs) (hn : v.nextTicket = w.nextTicket)
    (hl : task.line? = old.line?)
    (hd : ∀ k, bs.count (.submitted k) = 0 ∧ bs.countP (·.accepts k) = 0 ∧
      bs.count (.refused k) = 0)
    (hk : ∀ e k, v.stock e k + (if task.held? = some (e, k) then 1 else 0) +
        bs.count (.finished e k) + bs.count (.abandoned e k) + bs.count (.lost e k) =
      w.stock e k + (if old.held? = some (e, k) then 1 else 0) + bs.count (.accepted e k))
    (hr : ∀ e k, (if task.running? = some (e, k) then 1 else 0) + bs.count (.finished e k) =
      (if old.running? = some (e, k) then 1 else 0) + bs.count (.started e k)) :
    (v.setTask t task).Ledger := by
  have htotal : ∀ f : Task ν → Nat, (v.setTask t task).total f + f old = w.total f + f task := by
    intro f
    have hf : v.total f = w.total f := by rw [total, hv, ← total]
    rw [← hf]
    exact v.total_setTask f (by rw [hv, ht]) task
  refine h.append bs hb (.inl ⟨hn, fun k => (hd k).1⟩) (fun k => ?_) (fun e k => ?_) fun e k => ?_
  · have hsum := htotal fun task => if task.line?.map Prod.snd = some k then 1 else 0
    have hcount := hd k
    simp only [waiters, hl] at hsum ⊢
    omega
  · have hsum := htotal fun task => if task.held? = some (e, k) then 1 else 0
    have hcount := hk e k
    simp only [stock_setTask, holders] at hsum ⊢
    omega
  · have hsum := htotal fun task => if task.running? = some (e, k) then 1 else 0
    have hcount := hr e k
    simp only [runners] at hsum ⊢
    omega

/-- Recording what is not booked keeps the accounts. -/
theorem Ledger.recordAll (h : w.Ledger) (os : List (Occurrence ν))
    (hn : os.filterMap Occurrence.booking? = []) : (w.recordAll os).Ledger :=
  h.of_same (by simp [hn]) (by simp) (by simp) (by simp [holders]) (by simp [runners])
    (by simp [waiters])

/-- Moving jobs within an epoch keeps the accounts. -/
theorem Ledger.modifyEpoch (h : w.Ledger) (e : EpochId) {f : Epoch ν → Epoch ν}
    (hp : (f (w.epoch e)).entries.Perm (w.epoch e).entries) : (w.modifyEpoch e f).Ledger :=
  h.of_same rfl rfl (stock_modifyEpoch_of_perm e hp) (by simp [holders]) (by simp [runners])
    (by simp [waiters])

/-- Every elementary change keeps the accounts. -/
theorem Change.ledger (c : Change w u) (hw : w.Sound) (ho : w.Orderly) (h : w.Ledger) :
    u.Ledger := by
  cases c with
  | aside ha =>
    refine h.of_same ha.books ha.nextTicket (fun e k => ?_) (fun e k => ?_) (fun e k => ?_)
      fun k => ?_
    · rw [stock, epoch, ha.epochs, ← epoch, ← stock]
    · rw [holders, total, ha.tasks, ← total, ← holders]
    · rw [runners, total, ha.tasks, ← total, ← runners]
    · rw [waiters, total, ha.tasks, ← total, ← waiters]
  | posted code =>
    exact h.of_same rfl rfl (fun _ _ => rfl) (by simp [holders, Task.held?])
      (by simp [runners, Task.running?])
      (by simp [waiters, Task.line?, Task.thread?, Wait.line?])
  | code ht hth hs => exact hs.ledger ht hth hw ho h
  | brokenOff ht hl hwait => exact h.setTask_of_idle ht rfl rfl (Eq.symm hwait)
  | began ht => exact h.setTask_of_idle ht rfl rfl rfl
  | @welcomed t e kind live x ht =>
    exact h.setTask (v := (w.recordAll _).record (.started e x.ticket t .seed))
      [.started e x.ticket] ht (by simp) (by simp [Occurrence.booking?]) (by simp) rfl
      (by simp [Booking.accepts]) (by simp [Task.held?]) (by simp [Task.running?, List.count_cons])
  | @lost t e kind live x ht =>
    exact h.setTask [.lost e x.ticket] ht (by simp) (by simp [Occurrence.booking?])
      (by simp) rfl (by simp [Booking.accepts]) (by simp [Task.held?, List.count_cons])
      (by simp [Task.running?])
  | @claimed t e kind alarm tier x ep ht _ hc =>
    have hstock := stock_modifyEpoch_of_given (hw.home_lt ht rfl) (f := fun _ => ep)
      (Epoch.perm_entries_of_claim hc)
    refine h.setTask
      (v := (w.modifyEpoch e fun _ => ep).record (.started e x.ticket t (.tier tier)))
      [.started e x.ticket] ht rfl (by simp [Occurrence.booking?]) rfl rfl
      (by simp [Booking.accepts]) (fun i k => ?_) (by simp [Task.running?, List.count_cons])
    have := hstock i k
    simp [Task.held?] at this ⊢
    omega
  | @finished t e kind source k th os state ht hover hos hs =>
    have hbooks : os.filterMap Occurrence.booking? = [] := by
      obtain ⟨_, rfl⟩ | ⟨p, _, rfl⟩ := hos
      · rfl
      · simp [List.filterMap_cons, Occurrence.booking?]
    have hwait := ((hw.tasks _ _ ht).thread _ rfl).fits.line?_eq_none_of_isOver hover
    have hidle : ∀ task : Task ν, task = .worker e kind state →
        task.held? = none ∧ task.running? = none ∧ task.line? = none := by
      rintro task rfl
      obtain ⟨rfl, _⟩ | ⟨_, rfl, _⟩ | ⟨rfl, _⟩ := hs <;> exact ⟨rfl, rfl, rfl⟩
    obtain ⟨hheld, hrun, hline⟩ := hidle _ rfl
    refine h.setTask [.finished e k] ht (by simp) (by simp [Occurrence.booking?, hbooks])
      (by simp) (hline.trans hwait.symm) (by simp [Booking.accepts]) (fun i j => ?_) fun i j => ?_
    · rw [hheld]
      simp [Task.held?, List.count_cons]
    · rw [hrun]
      simp [Task.running?, List.count_cons]
  | @quit t e kind state ht hq =>
    obtain ⟨_, rfl, _⟩ | ⟨rfl, _⟩ := hq <;> exact h.setTask_of_idle ht rfl rfl rfl
  | left ht => exact h.setTask_of_idle ht rfl rfl rfl
  | @retired t e ht =>
    refine Ledger.setTask_of_idle ((h.modifyEpoch e (.refl _)).recordAll _ ?_)
      ((congrArg (·[t]?) (tasks_recordAll _ _)).trans ht) rfl rfl rfl
    simp [List.filterMap_cons, Occurrence.booking?]
  | dispatching ht => exact h.setTask_of_idle ht rfl rfl rfl
  | @flushed t e ht =>
    have hp := (Epoch.flushes_flush w.settings (w.epoch e)).perm
    refine Ledger.setTask_of_idle ((h.modifyEpoch e hp).recordAll _ ?_)
      ((congrArg (·[t]?) (tasks_recordAll _ _)).trans ht) rfl rfl rfl
    simp [Occurrence.booking?]
  | @woken t e ht => exact (h.modifyEpoch e (.refl _)).setTask_of_idle ht rfl rfl rfl
  | @tookIn t e x intake ht _ hi =>
    have hv := h.modifyEpoch e (f := fun ep => { ep with intake, backlog := ep.backlog ++ [x] })
      (Epoch.perm_entries_take hi)
    exact (hv.recordAll [.buffered e x.ticket] rfl).setTask_of_idle ht rfl rfl rfl
  | @shut t e state ht hs =>
    have hv := h.modifyEpoch e (f := fun ep => { ep with intake := ep.intake.close }) (.refl _)
    obtain rfl | rfl := hs <;> exact hv.setTask_of_idle ht rfl rfl rfl
  | @collected t e state x intake ht hs hi =>
    have hv := h.modifyEpoch e (f := fun ep => { ep with intake, backlog := ep.backlog ++ [x] })
      (Epoch.perm_entries_take hi)
    obtain rfl | rfl := hs <;>
      exact (hv.recordAll [.buffered e x.ticket] rfl).setTask_of_idle ht rfl rfl rfl
  | expecting ht => exact h.setTask_of_idle ht rfl rfl rfl
  | discarding ht => exact h.setTask_of_idle ht rfl rfl rfl
  | @discarded t e x rest ht hb =>
    have hstock := stock_modifyEpoch_of_given (hw.home_lt ht rfl) (x := x)
      (f := fun ep => { ep with backlog := rest })
      (by simpa [Epoch.entries, hb] using
        @List.perm_middle _ x (_ ++ (_ ++ _)) rest)
    refine h.setTask [.abandoned e x.ticket] ht rfl (by simp [Occurrence.booking?]) rfl rfl
      (by simp [Booking.accepts]) (fun i k => ?_) (by simp [Task.running?])
    have := hstock i k
    simp [Task.held?, List.count_cons] at this ⊢
    omega
  | dispersed ht => exact h.setTask_of_idle ht rfl rfl rfl

/-- In every state that a pool comes to the accounts balance. -/
theorem Evolved.ledger {settings : Settings} {hook : Option Hook} (h : Evolved settings hook w) :
    w.Ledger := by
  induction h with
  | opened =>
    have blank : ({ settings, hook } : World ν).Ledger := by
      refine ⟨?_, ?_, ?_, ?_⟩ <;>
        simp [books, occurrences, waiters, stock, holders, runners, total, epoch, Epoch.entries]
    exact blank.of_same (by simp) (by simp) (by simp) (by simp) (by simp) (by simp)
  | next h c ih => exact c.ledger h.sound h.orderly ih

end Changes

end World

end WorkerPool
