import WorkerPool.Proofs.Docile
import WorkerPool.Proofs.Submissions

/-!
# Calls of clients

What clients do to a pool and are told by it is a part of the journal that nobody else writes while
all jobs are docile. A submission that the pool takes at once puts its job into a queue, into the
hands of a new temporary worker, or into the intake, and changes nothing else that clients see.
-/

namespace WorkerPool

variable {ν : Type}

/-- What clients do to the pool, and what they report. -/
def Occurrence.isOuter : Occurrence ν → Bool
  | note author _ => author.isNone
  | opened _ => true
  | closed _ => true
  | submitted .. => true
  | refused _ => true
  | _ => false

namespace World

variable {w u v : World ν} {e : EpochId} {t : TaskId} {k : Nat} {x : Entry ν}
  {settings : Settings} {hook : Option Hook}

/-- The part of the journal that clients write. -/
def outer (w : World ν) : List (Occurrence ν) := w.occurrences.filter Occurrence.isOuter

section Outer

variable (w) (os : List (Occurrence ν))

@[simp] theorem outer_recordAll :
    (w.recordAll os).outer = w.outer ++ os.filter Occurrence.isOuter := by
  simp [outer]

@[simp] theorem outer_record (o : Occurrence ν) :
    (w.record o).outer = w.outer ++ [o].filter Occurrence.isOuter := w.outer_recordAll [o]

@[simp] theorem outer_log (notice : Notice) : (w.log notice).outer = w.outer := by
  simp [World.log, Occurrence.isOuter]

@[simp] theorem outer_setTask (task : Task ν) : (w.setTask t task).outer = w.outer := rfl

@[simp] theorem outer_spawn (task : Task ν) : (w.spawn task).outer = w.outer := rfl

@[simp] theorem outer_modifyEpoch (f : Epoch ν → Epoch ν) :
    (w.modifyEpoch e f).outer = w.outer := rfl

@[simp] theorem outer_draw (job : Job ν) :
    (w.draw job).outer = w.outer ++ [.submitted w.nextTicket job] := by
  simp [outer, Occurrence.isOuter]

@[simp] theorem outer_stop : (w.stop e).outer = w.outer ++ [.closed e] := by
  simp [outer, Occurrence.isOuter]

variable {w}

/-- What clients write is in the journal. -/
theorem mem_outer {o : Occurrence ν} (ho : o.isOuter = true) :
    o ∈ w.outer ↔ o ∈ w.occurrences := by
  simp [outer, ho]

end Outer

/-- Clients see no difference between `w` and `u`. -/
structure Alike (w u : World ν) : Prop where
  current : u.current = w.current
  handles : u.handles = w.handles
  tickets : u.nextTicket = w.nextTicket
  size : u.epochs.size = w.epochs.size
  closed : ∀ e, (u.epoch e).closed = (w.epoch e).closed
  outer : u.outer = w.outer
  clients : ∀ (i : TaskId) (th : Thread ν),
    u.tasks[i]? = some (.client th) ↔ w.tasks[i]? = some (.client th)

protected theorem Alike.refl (w : World ν) : Alike w w :=
  ⟨rfl, rfl, rfl, rfl, fun _ => rfl, rfl, fun _ _ => Iff.rfl⟩

/-- Clients write nothing of what goes on inside of a pool. -/
theorem Internal.outer (h : Internal w u) : u.outer = w.outer := by
  obtain ⟨os, hos, hall⟩ := h.occurrences
  have none : os.filter Occurrence.isOuter = [] := by
    rw [List.filter_eq_nil_iff]
    intro o ho
    have hi := hall o ho
    cases o with
    | note author => cases author <;> simp [Occurrence.isInternal, Occurrence.isOuter] at hi ⊢
    | _ => simp [Occurrence.isInternal, Occurrence.isOuter] at hi ⊢
  rw [World.outer, hos, List.filter_append, none, List.append_nil, World.outer]

/-- What a docile pool does by itself clients do not see. -/
theorem alike_step (hw : Evolved settings hook w) (hd : w.Docile)
    (hc : ∀ th, w.tasks[t]? ≠ some (.client th)) : Alike w (w.step t) := by
  cases ht : w.tasks[t]? with
  | none =>
    rw [step_of_not_ready w t (by simp [ready, ht])]
    exact .refl w
  | some task =>
    have inner := internal_step hw hd ht fun th hth => hc th (hth ▸ ht)
    refine ⟨inner.current, inner.handles, inner.tickets, inner.size, inner.closed, inner.outer,
      fun i th => ?_⟩
    by_cases hi : i = t
    · subst hi
      obtain ⟨task', ht', hrole⟩ := Changes.role_eq (changes_step hw.sound i) ht
      rw [ht', ht]
      constructor <;> intro heq <;> cases heq
      · cases task with
        | client th => exact absurd ht (hc th)
        | _ => cases hrole
      · exact absurd ht (hc th)
    · by_cases hlt : i < w.tasks.size
      · rw [getElem?_step_of_ne hw.sound hi hlt]
      · rw [Array.getElem?_eq_none (Nat.not_lt.1 hlt),
          Array.getElem?_eq_none (inner.tasks ▸ Nat.not_lt.1 hlt)]

/-- Where a job was put clients do not see. -/
theorem Admits.alike (h : Admits w e x u) : Alike w u := by
  cases h with
  | queued ho =>
    have hclosed := (Epoch.offer_frame ho).1.trans (Epoch.offer_eq_placed.1 ho).1.symm
    exact ⟨rfl, rfl, rfl, by simp, fun i => modifyEpoch_keeps w e _ Epoch.closed hclosed i,
      by simp [Occurrence.isOuter], fun _ _ => Iff.rfl⟩
  | handedOver =>
    exact ⟨rfl, rfl, rfl, by simp [handOver], fun i => modifyEpoch_keeps w e _ Epoch.closed rfl i,
      by simp [handOver, Occurrence.isOuter], fun _ _ => Iff.rfl⟩
  | hired =>
    refine ⟨rfl, rfl, rfl, by simp [hire], fun i => modifyEpoch_keeps w e _ Epoch.closed rfl i,
      by simp [hire, Occurrence.isOuter], fun i th => ?_⟩
    by_cases hlt : i < w.tasks.size
    · have hold : (w.hire e x).tasks[i]? = w.tasks[i]? := getElem?_spawn _ _ hlt
      rw [hold]
    · refine iff_of_false (fun hi => ?_) (by simp [Array.getElem?_eq_none (Nat.not_lt.1 hlt)])
      obtain ⟨-, hnew⟩ | hold := getElem?_spawn_cases hi
      · cases hnew
      · exact hlt (Array.getElem?_eq_some_iff.1 hold).1

section LetGo

variable {n : Nat} (hn : n ≠ 0) (hh : w.handles = n + 1)

include hn hh

/-- Whoever lets go of a handle that is not the last one has nothing else to do. -/
theorem letGo_of_handles : w.letGo = ([], { w with handles := n }) := by
  have go := letGo_of_held ({ w with handles := n } : World ν) hn
  rwa [show ({ w with handles := n + 1 } : World ν) = w by rw [← hh]] at go

/-- An answer to a call that does not hold the last handle is reported. -/
theorem conclude_of_handles (a : Option Nat) {th : Thread ν} (hl : th.layers = []) (answer : ν) :
    w.conclude a th answer =
      (th.next, ({ w with handles := n } : World ν).record (.note a answer)) := by
  have done := conclude_of_held ({ w with handles := n } : World ν) hn a hl answer
  rwa [show ({ w with handles := n + 1 } : World ν) = w by rw [← hh]] at done

end LetGo

section Step

variable {th : Thread ν} {rest : List (Act ν)} {n : Nat} (ht : w.tasks[t]? = some (.client th))
  (hl : th.layers = [])

include ht hl

/-- Once it has been granted the place, a client's submission hands its job over and is answered. -/
theorem step_of_granted {job : Job ν} {accepted refused gone : ν}
    (ha : th.body.acts = .ofJob job accepted refused gone :: rest) (hwait : th.wait = .inLine e k)
    (hc : (w.epoch e).closed = false) (hs : (w.epoch e).intake.shut = false)
    (hr : w.ready t = true) (hn : n ≠ 0) (hh : w.handles = n + 1) :
    w.step t = ((({ w with handles := n } : World ν).handOver e ⟨k, job⟩).record
      (.note none accepted)).setTask t (.client th.next) := by
  have ready : w.bodyReady t th = true := by
    simpa [threadReady, hl] using threadReady_of_ready ht rfl (by simp [Thread.isOver, ha]) hr
  have acts : w.stepAct t none th (.ofJob job accepted refused gone) =
      (w.handOver e ⟨k, job⟩).conclude none th accepted := by
    simp [Act.ofJob, stepAct, hwait, submitGranted, hc, hs]
  rw [step_of_body ht rfl hl ha ready, show (Task.client th).author? = none from rfl, acts,
    conclude_of_handles (w := w.handOver e ⟨k, job⟩) hn hh none hl]
  rfl

/-- A shutdown of a client that has drained its epoch waits, sees that the tasks of the epoch are
over, or gives up since its time is over; each time it goes no further. -/
theorem step_of_awaiting {timeout : Duration} {done late gone : ν}
    (ha : th.body.acts = .shutdown timeout done late gone :: rest)
    (hwait : th.wait = .closing e ∨ ∃ deadline, th.wait = .exits e deadline)
    (hn : n ≠ 0) (hh : w.handles = n + 1) :
    (∃ deadline, w.step t = w.setTask t (.client { th with wait := .exits e deadline })) ∨
      w.step t = w ∨
      (w.deserted e = true ∧ w.step t = ((({ w with handles := n } : World ν).log
        .shutdownComplete).record (.note none done)).setTask t (.client th.next)) ∨
      w.step t = ((({ w with handles := n } : World ν).log
        (.shutdownTimedOut timeout)).record (.note none late)).setTask t (.client th.next) := by
  by_cases hr : w.ready t = true
  swap
  · exact .inr (.inl (step_of_not_ready w t (by simpa using hr)))
  have ready : w.bodyReady t th = true := by
    simpa [threadReady, hl] using threadReady_of_ready ht rfl (by simp [Thread.isOver, ha]) hr
  have concluded : ∀ (notice : Notice) (answer : ν), (w.log notice).conclude none th answer =
      (th.next, (({ w with handles := n } : World ν).log notice).record (.note none answer)) :=
    fun notice answer => conclude_of_handles (w := w.log notice) hn hh none hl answer
  obtain ⟨deadline, acts⟩ : ∃ deadline, w.stepAct t none th (.shutdown timeout done late gone) =
      w.awaitExits none th e deadline timeout done late := by
    obtain hwait | ⟨deadline, hwait⟩ := hwait
    · exact ⟨w.deadline timeout, by simp only [stepAct, hwait]⟩
    · exact ⟨deadline, by simp only [stepAct, hwait]⟩
  rw [step_of_body ht rfl hl ha ready, show (Task.client th).author? = none from rfl, acts,
    awaitExits]
  split_ifs with hd hlate
  · rw [concluded]
    exact .inr (.inr (.inl ⟨hd, rfl⟩))
  · rw [concluded]
    exact .inr (.inr (.inr rfl))
  · exact .inl ⟨deadline, rfl⟩

end Step

section Withdraw

variable {body : Script (Act ν) Unit}

/-- A call that has not begun is broken off without a trace. -/
theorem withdraw_of_fresh (ht : w.tasks[t]? = some (.client { body })) :
    w.withdraw t = w.setTask t (.client { body := ⟨[], .ok ()⟩ }) := by
  simp [withdraw, ht]

/-- A submission that waits in line is broken off by giving up its place. -/
theorem withdraw_of_inLine {n : Nat} (ht : w.tasks[t]? = some (.client ⟨[], body, .inLine e k⟩))
    (hn : n ≠ 0) (hh : w.handles = n + 1) : w.withdraw t =
      (({ w with handles := n } : World ν).giveUp t e k).setTask t
        (.client { body := ⟨[], .ok ()⟩ }) := by
  simp only [withdraw, ht, letGo_of_handles (w := w.giveUp t e k) hn hh]
  rfl

end Withdraw

end World

end WorkerPool
