import Mathlib.Algebra.Order.BigOperators.Group.List
import Mathlib.Algebra.Order.Group.Nat
import WorkerPool.Proofs.Closing

/-!
# What still happens in a closed epoch

Nothing is put into a closed epoch any more. What is queued leaves it by its drain, of which there
is one at most, and what its dispatcher holds leaves it by the dispatcher: in both cases in order,
and only to be abandoned. The drain stays on top of the code that was left to do when the epoch was
closed, and is over only when nothing is queued.
-/

namespace WorkerPool

variable {ν : Type}

/-- The ticket of a job that was abandoned in this epoch. -/
def Occurrence.abandonedIn? (e : EpochId) : Occurrence ν → Option Nat
  | abandoned i ticket => if i = e then some ticket else none
  | _ => none

/-- A drain of this epoch. -/
def Layer.drains (e : EpochId) : Layer ν → Bool
  | drain i _ => i = e
  | callback _ _ => false

/-- How many drains of this epoch the code of a task has to do. -/
def Task.drains (e : EpochId) (task : Task ν) : Nat :=
  (task.thread?.map fun th => th.layers.countP (Layer.drains e)).getD 0

@[simp] theorem Layer.drains_drain (e i : EpochId) (n : Nat) :
    (drain i n : Layer ν).drains e = decide (i = e) := rfl

@[simp] theorem Layer.drains_callback (e : EpochId) (k : Nat) (code : Script (Deed ν) Unit) :
    (callback k code).drains e = false := rfl

/-- The drains of a task are those of its code. -/
theorem Task.drains_of_thread? {e : EpochId} {task : Task ν} {th : Thread ν}
    (h : task.thread? = some th) : task.drains e = th.layers.countP (Layer.drains e) := by
  simp [drains, h]

/-- A task without layers drains nothing. -/
theorem Task.drains_eq_zero {e : EpochId} {task : Task ν}
    (h : ∀ th, task.thread? = some th → th.layers = []) : task.drains e = 0 := by
  cases hth : task.thread? with
  | none => simp [drains, hth]
  | some th => rw [drains_of_thread? hth, h th hth, List.countP_nil]

namespace World

section Abandoned

variable (w : World ν) (e : EpochId)

/-- The tickets of the jobs that were abandoned in an epoch, in order. -/
abbrev abandonedIn : List Nat := w.picked (Occurrence.abandonedIn? e)

variable {w} in
/-- What passes beside the jobs abandons none. -/
theorem Aside.abandonedIn {u : World ν} (h : Aside w u) : u.abandonedIn e = w.abandonedIn e :=
  h.picked (fun _ => rfl) fun _ _ => rfl

variable {w e} in
/-- An epoch has abandoned a job if the journal says so. -/
theorem mem_abandonedIn {k : Nat} : k ∈ w.abandonedIn e ↔ .abandoned e k ∈ w.occurrences := by
  rw [abandonedIn, mem_picked]
  constructor
  · rintro ⟨o, ho, hk⟩
    cases o <;> simp only [Occurrence.abandonedIn?, reduceCtorEq, Option.ite_none_right_eq_some,
      Option.some.injEq] at hk
    obtain ⟨rfl, rfl⟩ := hk
    exact ho
  · exact fun h => ⟨_, h, by simp [Occurrence.abandonedIn?]⟩

end Abandoned

variable {w u v : World ν} {t : TaskId} {e : EpochId} {a : Option Nat} {th th' : Thread ν}
  {w' : World ν}

/-- What one change does to a closed epoch: nothing, or a job leaves it to be abandoned, by the
drain of the epoch or by its dispatcher. -/
inductive Fading (w u : World ν) (e : EpochId) : Prop
  | still (ha : u.abandonedIn e = w.abandonedIn e) (hq : (u.epoch e).queue = (w.epoch e).queue)
      (hh : (u.epoch e).held = (w.epoch e).held)
  | drained {t : TaskId} {th : Thread ν} {n : Nat} {rest : List (Layer ν)} {x : Entry ν}
      (hw : w.thread? t = some th) (hl : th.layers = .drain e n :: rest)
      (hu : u.thread? t = some { th with
        layers := .callback x.ticket x.job.abandon :: .drain e (n + 1) :: rest })
      (ha : u.abandonedIn e = w.abandonedIn e ++ [x.ticket])
      (hq : (w.epoch e).queue = x :: (u.epoch e).queue)
      (hh : (u.epoch e).held = (w.epoch e).held)
  | discarded {t : TaskId} {x : Entry ν} (ht : w.tasks[t]? = some (.dispatcher e (.discarding [])))
      (ha : u.abandonedIn e = w.abandonedIn e ++ [x.ticket])
      (hq : (u.epoch e).queue = (w.epoch e).queue) (hh : (w.epoch e).held = x :: (u.epoch e).held)

/-- A drain takes the first of what is queued. -/
theorem queue_of_drain? {ep ep' : Epoch ν} {x : Entry ν} (h : ep.drain? = some (x, ep')) :
    ep.queue = x :: ep'.queue ∧ ep'.held = ep.held := by
  obtain ⟨rest, hp, rfl⟩ | ⟨hp, rest, ht, rfl⟩ := Epoch.drain?_eq_some.1 h
  · exact ⟨by simp [Epoch.queue, hp], rfl⟩
  · exact ⟨by simp [Epoch.queue, hp, ht], rfl⟩

/-- A change of one epoch that is closed leaves the queues and what the dispatcher holds alone if it
does so in that one. -/
theorem same_modifyEpoch {i : EpochId} {f : Epoch ν → Epoch ν} (hc : (w.epoch e).closed = true)
    (h : (w.epoch i).closed = true → (f (w.epoch i)).queue = (w.epoch i).queue ∧
      (f (w.epoch i)).held = (w.epoch i).held) :
    ((w.modifyEpoch i f).epoch e).queue = (w.epoch e).queue ∧
      ((w.modifyEpoch i f).epoch e).held = (w.epoch e).held := by
  obtain hi | ⟨rfl, hi⟩ := w.epoch_modifyEpoch_cases i f e
  · rw [hi]
    exact ⟨rfl, rfl⟩
  · rw [hi]
    exact h hc

/-- Code takes out of a closed epoch only what its drain is at. -/
theorem Shift.fading (h : Shift t a th w th' w') (hc : (w.epoch e).closed = true) :
    (w'.abandonedIn e = w.abandonedIn e ∧ (w'.epoch e).queue = (w.epoch e).queue ∧
      (w'.epoch e).held = (w.epoch e).held) ∨ ∃ n rest x, th.layers = .drain e n :: rest ∧
        th' = { th with
          layers := .callback x.ticket x.job.abandon :: .drain e (n + 1) :: rest } ∧
        w'.abandonedIn e = w.abandonedIn e ++ [x.ticket] ∧
        (w.epoch e).queue = x :: (w'.epoch e).queue ∧ (w'.epoch e).held = (w.epoch e).held := by
  have opened : ∀ {i : EpochId} {f : Epoch ν → Epoch ν}, (w.epoch i).closed = false →
      ((w.modifyEpoch i f).epoch e).queue = (w.epoch e).queue ∧
        ((w.modifyEpoch i f).epoch e).held = (w.epoch e).held :=
    fun ho => same_modifyEpoch hc fun hi => absurd (ho.symm.trans hi) (by decide)
  cases h with
  | deed => exact .inl ⟨by simp [Occurrence.abandonedIn?], by simp, by simp⟩
  | callbackDeed => exact .inl ⟨by simp [Occurrence.abandonedIn?], by simp, by simp⟩
  | @abandoned i n rest x ep hl hd =>
    by_cases hi : i = e
    · subst hi
      obtain ⟨hq, hh⟩ := queue_of_drain? hd
      have hep : (((w.modifyEpoch i fun _ => ep).record (.abandoned i x.ticket)).epoch i) = ep :=
        epoch_modifyEpoch_self _ _ _ (lt_of_closed hc)
      refine .inr ⟨n, rest, x, hl, rfl, by simp [Occurrence.abandonedIn?], ?_, ?_⟩ <;> rw [hep]
      · exact hq
      · exact hh
    · have hep : (((w.modifyEpoch i fun _ => ep).record (.abandoned i x.ticket)).epoch e) =
          w.epoch e := epoch_modifyEpoch_of_ne _ _ _ (Ne.symm hi)
      rw [hep]
      exact .inl ⟨by simp [Occurrence.abandonedIn?, hi], rfl, rfl⟩
  | @halted i =>
    obtain ⟨hq, hh⟩ := same_modifyEpoch (i := i) (f := fun ep => { ep with closed := true }) hc
      fun _ => ⟨rfl, rfl⟩
    exact .inl ⟨by simp [Occurrence.abandonedIn?], hq, hh⟩
  | launched => exact .inl ⟨by simp [Occurrence.abandonedIn?], by simp, by simp⟩
  | aside ha => exact .inl ⟨ha.abandonedIn e, by rw [epoch, ha.epochs, ← epoch],
      by rw [epoch, ha.epochs, ← epoch]⟩
  | @queued job _ _ _ _ i tier ep _ _ _ _ ho =>
    obtain ⟨hq, hh⟩ := opened (i := i) (f := fun _ => ep) (Epoch.offer_eq_placed.1 ho).1
    exact .inl ⟨by simp [Occurrence.abandonedIn?], hq, hh⟩
  | @hired job _ _ _ _ i _ _ _ _ ho =>
    obtain ⟨hq, hh⟩ := opened (i := i) (f := fun ep => { ep with temps := ep.temps + 1 })
      (Epoch.offer_eq_full.1 ho).1
    exact .inl ⟨by simp [hire, Occurrence.abandonedIn?], hq, hh⟩
  | @handedOver job _ _ _ _ i _ _ _ _ _ ho =>
    obtain ⟨hq, hh⟩ := opened (i := i) (f := fun ep =>
      { ep with intake := ep.intake.put ⟨w.nextTicket, job⟩ }) (Epoch.offer_eq_full.1 ho).1
    exact .inl ⟨by simp [handOver, Occurrence.abandonedIn?], hq, hh⟩
  | @joined job _ _ _ _ i _ _ _ _ _ ho =>
    obtain ⟨hq, hh⟩ := opened (i := i) (f := fun ep => { ep with intake := ep.intake.join t })
      (Epoch.offer_eq_full.1 ho).1
    exact .inl ⟨by simp [Occurrence.abandonedIn?], hq, hh⟩
  | @granted job _ _ _ _ i k _ _ _ ho =>
    obtain ⟨hq, hh⟩ := opened (i := i) (f := fun ep =>
      { ep with intake := ep.intake.put ⟨k, job⟩ }) ho
    exact .inl ⟨by simp [handOver, Occurrence.abandonedIn?], hq, hh⟩
  | @gaveUp i k =>
    obtain ⟨hq, hh⟩ := same_modifyEpoch (i := i) (f := fun ep =>
      { ep with intake := ep.intake.leave t }) hc fun _ => ⟨rfl, by simp [Epoch.held]⟩
    exact .inl ⟨by simp [giveUp, Occurrence.abandonedIn?], hq, hh⟩
  | _ => exact .inl ⟨by simp [Occurrence.abandonedIn?], by simp, by simp⟩

/-- One change takes out of a closed epoch what its drain or its dispatcher is at, and puts nothing
in. -/
theorem Change.fading (c : Change w u) (hc : (w.epoch e).closed = true) : Fading w u e := by
  have opened : ∀ {i : EpochId} {f : Epoch ν → Epoch ν}, (w.epoch i).closed = false →
      ((w.modifyEpoch i f).epoch e).queue = (w.epoch e).queue ∧
        ((w.modifyEpoch i f).epoch e).held = (w.epoch e).held :=
    fun ho => same_modifyEpoch hc fun hi => absurd (ho.symm.trans hi) (by decide)
  cases c with
  | aside ha =>
    exact .still (ha.abandonedIn e) (by rw [epoch, ha.epochs, ← epoch])
      (by rw [epoch, ha.epochs, ← epoch])
  | @code w' t task th th' ht hth h =>
    have hlt : t < w'.tasks.size :=
      Nat.lt_of_lt_of_le (Array.getElem?_eq_some_iff.1 ht).1 h.grows.tasks
    obtain ⟨ha, hq, hh⟩ | ⟨n, rest, x, hl, rfl, ha, hq, hh⟩ := h.fading hc
    · exact .still ha hq hh
    · exact .drained (thread?_eq_some.2 ⟨task, ht, hth⟩) hl (thread?_eq_some.2
        ⟨_, getElem?_setTask_self _ _ _ hlt, h.thread?_withThread hth⟩) ha hq hh
  | welcomed =>
    refine .still (by simp [World.assign, Occurrence.abandonedIn?]) ?_ ?_ <;>
      rw [World.assign, epoch_record, epoch_setTask, epoch_recordAll]
  | lost => exact .still (by simp [Occurrence.abandonedIn?]) (by simp) (by simp)
  | @claimed t i _ _ _ x ep _ ho =>
    obtain ⟨hq, hh⟩ := opened (i := i) (f := fun _ => ep) ho
    exact .still (by simp [World.assign, Occurrence.abandonedIn?]) hq hh
  | finished _ _ hos =>
    refine .still ?_ (by simp) (by simp)
    obtain ⟨_, rfl⟩ | ⟨p, _, rfl⟩ := hos <;> simp [Occurrence.abandonedIn?]
  | @retired t i =>
    obtain ⟨hq, hh⟩ := same_modifyEpoch (i := i) (f := fun ep => { ep with temps := ep.temps - 1 })
      hc fun _ => ⟨rfl, rfl⟩
    exact .still (by simp [Occurrence.abandonedIn?]) (by simpa using hq) (by simpa using hh)
  | @flushed t i =>
    obtain ⟨hq, hh⟩ := same_modifyEpoch (i := i)
      (f := fun _ => ((w.epoch i).flush w.settings).epoch) hc fun hi => by
        rw [Epoch.epoch_flush_of_closed hi]
        exact ⟨rfl, rfl⟩
    refine .still ?_ (by simpa using hq) (by simpa using hh)
    simp [List.filterMap_map, Function.comp_def, Occurrence.abandonedIn?]
  | @woken t i _ ho =>
    obtain ⟨hq, hh⟩ := opened (i := i) (f := fun ep => { ep with freed := false }) ho
    exact .still rfl hq hh
  | @tookIn t i x intake _ ho =>
    obtain ⟨hq, hh⟩ := opened (i := i)
      (f := fun ep => { ep with intake, backlog := ep.backlog ++ [x] }) ho
    exact .still (by simp [takeIn, Occurrence.abandonedIn?]) hq hh
  | @shut t i =>
    obtain ⟨hq, hh⟩ := same_modifyEpoch (i := i)
      (f := fun ep => { ep with intake := ep.intake.close }) hc fun _ => ⟨rfl, rfl⟩
    exact .still rfl hq hh
  | @collected t i _ x intake _ _ hi =>
    obtain ⟨hs, rfl⟩ := Intake.take?_eq_some.1 hi
    obtain ⟨hq, hh⟩ := same_modifyEpoch (i := i) (f := fun ep => { ep with
      intake := Intake.grantNext { (w.epoch i).intake with slot := none }
      backlog := ep.backlog ++ [x] }) hc fun _ => ⟨rfl, by simp [Epoch.held, hs]⟩
    exact .still (by simp [takeIn, Occurrence.abandonedIn?]) hq hh
  | @discarded t i x rest ht hb =>
    by_cases hi : i = e
    · subst hi
      have hep := epoch_modifyEpoch_self w i (fun ep => { ep with backlog := rest })
        (lt_of_closed hc)
      refine .discarded (x := x) ht (by simp [Occurrence.abandonedIn?]) ?_ ?_ <;>
        rw [epoch_setTask, epoch_record, hep]
      · rfl
      · simp [Epoch.held, hb]
    · have hep := epoch_modifyEpoch_of_ne w i (fun ep => { ep with backlog := rest }) (Ne.symm hi)
      refine .still (by simp [Occurrence.abandonedIn?, hi]) ?_ ?_ <;>
        rw [epoch_setTask, epoch_record, hep]
  | _ => exact .still rfl rfl rfl

/-- What has become of a closed epoch meanwhile: of what was queued the first `n` jobs were
abandoned, and the first `m` of those that its dispatcher held; these are the tickets in `ks`. -/
structure Faded (ep ep' : Epoch ν) (n m : Nat) (ks : List Nat) : Prop where
  le_queue : n ≤ ep.queue.length
  queue : ep'.queue = ep.queue.drop n
  le_held : m ≤ ep.held.length
  held : ep'.held = ep.held.drop m
  /-- The jobs that were queued were abandoned in order. -/
  queued : ((ep.queue.take n).map (·.ticket)).Sublist ks
  /-- So were those that the dispatcher held. -/
  buffered : ((ep.held.take m).map (·.ticket)).Sublist ks
  /-- Nothing else was abandoned, and nothing twice. -/
  perm : ks.Perm ((ep.queue.take n ++ ep.held.take m).map (·.ticket))

/-- Nothing has become of it yet. -/
theorem Faded.refl (ep : Epoch ν) : Faded ep ep 0 0 [] :=
  ⟨Nat.zero_le _, rfl, Nat.zero_le _, rfl, by simp, by simp, by simp⟩

/-- The head of what is left of a list comes after what was taken of it. -/
theorem take_succ_of_drop {α : Type} {l rest : List α} {x : α} {n : Nat}
    (h : l.drop n = x :: rest) :
    n + 1 ≤ l.length ∧ l.drop (n + 1) = rest ∧ l.take (n + 1) = l.take n ++ [x] := by
  have hlt : n < l.length := by
    by_contra hle
    rw [List.drop_eq_nil_iff.2 (Nat.not_lt.1 hle)] at h
    cases h
  have hget := List.drop_eq_getElem_cons hlt
  rw [h, List.cons.injEq] at hget
  refine ⟨hlt, hget.2.symm, ?_⟩
  rw [List.take_add_one, List.getElem?_eq_getElem hlt, hget.1]
  rfl

/-- The drain has abandoned one more job. -/
theorem Faded.drain {ep ep' ep'' : Epoch ν} {n m : Nat} {ks : List Nat} {x : Entry ν}
    (h : Faded ep ep' n m ks) (hq : ep'.queue = x :: ep''.queue) (hh : ep''.held = ep'.held) :
    Faded ep ep'' (n + 1) m (ks ++ [x.ticket]) := by
  obtain ⟨hle, hdrop, htake⟩ := take_succ_of_drop (h.queue.symm.trans hq)
  refine ⟨hle, hdrop.symm, h.le_held, hh.trans h.held, ?_, h.buffered.trans
    (List.sublist_append_left _ _), ?_⟩
  · rw [htake, List.map_append]
    exact h.queued.append (List.Sublist.refl _)
  · rw [htake, List.append_assoc, List.map_append, List.map_append]
    refine (h.perm.append_right _).trans ?_
    rw [List.map_append, List.append_assoc]
    exact (List.perm_append_comm).append_left _

/-- The dispatcher has abandoned one more job. -/
theorem Faded.discard {ep ep' ep'' : Epoch ν} {n m : Nat} {ks : List Nat} {x : Entry ν}
    (h : Faded ep ep' n m ks) (hq : ep''.queue = ep'.queue) (hh : ep'.held = x :: ep''.held) :
    Faded ep ep'' n (m + 1) (ks ++ [x.ticket]) := by
  obtain ⟨hle, hdrop, htake⟩ := take_succ_of_drop (h.held.symm.trans hh)
  refine ⟨h.le_queue, hq.trans h.queue, hle, hdrop.symm, h.queued.trans
    (List.sublist_append_left _ _), ?_, ?_⟩
  · rw [htake, List.map_append]
    exact h.buffered.append (List.Sublist.refl _)
  · rw [htake, ← List.append_assoc, List.map_append]
    exact h.perm.append_right _

/-- Changes make a world grow. -/
theorem Changes.grows (h : Changes w u) : Grows w u := by
  induction h with
  | refl => exact .refl w
  | tail _ c ih => exact ih.trans c.grows

/-- Whatever happens to a closed epoch, its jobs only leave it, in order, to be abandoned. -/
theorem Changes.faded (h : Changes w u) (hc : (w.epoch e).closed = true) :
    ∃ n m ks, u.abandonedIn e = w.abandonedIn e ++ ks ∧ Faded (w.epoch e) (u.epoch e) n m ks := by
  induction h with
  | refl => exact ⟨0, 0, [], (List.append_nil _).symm, .refl _⟩
  | @tail v u before c ih =>
    obtain ⟨n, m, ks, ha, faded⟩ := ih
    have hv := (Changes.grows before).closed e (lt_of_closed hc) hc
    cases c.fading hv with
    | still ha' hq hh =>
      refine ⟨n, m, ks, ha'.trans ha, { faded with queue := ?_, held := ?_ }⟩
      · exact hq.trans faded.queue
      · exact hh.trans faded.held
    | drained _ _ _ ha' hq hh =>
      exact ⟨n + 1, m, _, by rw [ha', ha, List.append_assoc], faded.drain hq hh⟩
    | discarded _ ha' hq hh =>
      exact ⟨n, m + 1, _, by rw [ha', ha, List.append_assoc], faded.discard hq hh⟩

/-- A closed epoch stays closed. -/
theorem Grows.closed_le (h : Grows w u) (e : EpochId) :
    (w.epoch e).closed.toNat ≤ (u.epoch e).closed.toNat := by
  cases hc : (w.epoch e).closed with
  | false => exact Nat.zero_le _
  | true => rw [h.closed e (lt_of_closed hc) hc]

/-- Code begins to drain an epoch only as it closes it. -/
theorem Shift.drains_le (h : Shift t a th w th' w') (hw : w.Sound) (e : EpochId) :
    th'.layers.countP (Layer.drains e) + (w.epoch e).closed.toNat ≤
      th.layers.countP (Layer.drains e) + (w'.epoch e).closed.toNat := by
  have grown := h.grows.closed_le e
  cases h with
  | deed => exact Nat.add_le_add le_rfl grown
  | callbackDeed hl =>
    rw [hl]
    exact Nat.add_le_add (by simp) grown
  | returned hl =>
    rw [hl]
    exact Nat.add_le_add (by simp) grown
  | @abandoned i n rest x ep hl =>
    rw [hl]
    exact Nat.add_le_add (by simp [List.countP_cons]) grown
  | @drained i n rest hl =>
    rw [hl]
    exact Nat.add_le_add (by simp [List.countP_cons]) grown
  | @halted i wait hr hc =>
    by_cases hi : i = e
    · subst hi
      have ho : (w.epoch i).closed = false := (hw.current_open i hc)
      have hs : ((w.stop i).epoch i).closed = true := by
        rw [epoch_stop_self _ _ (hw.current_lt i hc)]
      simp [ho, hs]
    · simpa [List.countP_cons, hi] using grown
  | _ => exact Nat.add_le_add le_rfl grown

/-- An element counts among all. -/
theorem le_sum_map {α : Type} (f : α → Nat) {l : List α} {i : Nat} {x : α} (h : l[i]? = some x) :
    f x ≤ (l.map f).sum :=
  List.le_sum_of_mem (List.mem_map_of_mem (List.mem_of_getElem? h))

/-- Two elements count both. -/
theorem add_le_sum_map {α : Type} (f : α → Nat) {l : List α} {i j : Nat} {x y : α}
    (hi : l[i]? = some x) (hj : l[j]? = some y) (hne : i ≠ j) : f x + f y ≤ (l.map f).sum := by
  induction l generalizing i j with
  | nil => simp at hi
  | cons z l ih =>
    rw [List.map_cons, List.sum_cons]
    cases i with
    | zero =>
      cases j with
      | zero => exact absurd rfl hne
      | succ j =>
        obtain rfl : z = x := by simpa using hi
        exact Nat.add_le_add_left (le_sum_map f (by simpa using hj)) _
    | succ i =>
      cases j with
      | zero =>
        obtain rfl : z = y := by simpa using hj
        rw [Nat.add_comm]
        exact Nat.add_le_add_left (le_sum_map f (by simpa using hi)) _
      | succ j =>
        have := ih (i := i) (j := j) (by simpa using hi) (by simpa using hj) (by omega)
        omega

/-- What code adds to the tasks of a world counts for nothing if idle tasks do. -/
theorem Shift.total_eq (h : Shift t a th w th' w') {f : Task ν → Nat}
    (hp : ∀ e i, f (.worker e (.permanent i) .hired) = 0) (hd : ∀ e, f (.dispatcher e .hired) = 0)
    (hs : ∀ e live x, f (.worker e .temporary (.seeded live x)) = 0) :
    w'.total f = w.total f := by
  cases h with
  | launched => exact total_launch_of_idle hp hd
  | aside ha => rw [total, ha.tasks, ← total]
  | hired => simp [hire, hs]
  | _ => simp [handOver, giveUp]

/-- At most one drain of an epoch is under way, and none while the epoch is open. -/
theorem Change.drains_le (c : Change w u) (hw : w.Sound) (e : EpochId) :
    u.total (Task.drains e) + (w.epoch e).closed.toNat ≤
      w.total (Task.drains e) + (u.epoch e).closed.toNat := by
  have grown := c.grows.closed_le e
  have set : ∀ {v : World ν} {t : TaskId} {old new : Task ν}, v.tasks = w.tasks →
      w.tasks[t]? = some old → (∀ th, new.thread? = some th → th.layers = []) →
      (v.setTask t new).total (Task.drains e) ≤ w.total (Task.drains e) := by
    intro v t old new hv ht hn
    have htotal := v.total_setTask (Task.drains e) (hv ▸ ht) new
    have hsame : v.total (Task.drains e) = w.total (Task.drains e) := by rw [total, hv, ← total]
    rw [Task.drains_eq_zero hn] at htotal
    omega
  cases c with
  | aside ha => exact Nat.add_le_add (by rw [total, ha.tasks, ← total]) grown
  | posted =>
    refine Nat.add_le_add ?_ grown
    rw [total_spawn, Task.drains_eq_zero (by simp [Task.thread?])]
    exact le_rfl
  | @code w' t task th th' ht hth h =>
    have htotal := h.total_withThread ht (Task.drains e)
    have hadded : w'.total (Task.drains e) = w.total (Task.drains e) :=
      h.total_eq (fun _ _ => rfl) (fun _ => rfl) fun _ _ _ => rfl
    have hdrains := h.drains_le hw e
    rw [Task.drains_of_thread? hth, Task.drains_of_thread? (h.thread?_withThread hth)] at htotal
    rw [epoch_setTask]
    omega
  | brokenOff ht => exact Nat.add_le_add (set rfl ht (by simp [Task.thread?])) grown
  | began ht => exact Nat.add_le_add (set rfl ht (by simp [Task.thread?])) grown
  | welcomed ht =>
    refine Nat.add_le_add ?_ grown
    rw [World.assign, total_record]
    exact set (by simp) ht (by simp [Task.thread?])
  | lost ht => exact Nat.add_le_add (set (by simp) ht (by simp [Task.thread?])) grown
  | claimed ht =>
    refine Nat.add_le_add ?_ grown
    rw [World.assign, total_record]
    exact set (by simp) ht (by simp [Task.thread?])
  | finished ht _ _ hs =>
    refine Nat.add_le_add (set (by simp) ht ?_) grown
    obtain ⟨rfl, _⟩ | ⟨_, rfl, _⟩ | ⟨rfl, _⟩ := hs <;> simp [Task.thread?]
  | quit ht => exact Nat.add_le_add (set rfl ht (by simp [Task.thread?])) grown
  | left ht => exact Nat.add_le_add (set rfl ht (by simp [Task.thread?])) grown
  | retired ht => exact Nat.add_le_add (set (by simp) ht (by simp [Task.thread?])) grown
  | dispatching ht => exact Nat.add_le_add (set rfl ht (by simp [Task.thread?])) grown
  | flushed ht => exact Nat.add_le_add (set (by simp) ht (by simp [Task.thread?])) grown
  | woken ht => exact Nat.add_le_add (set rfl ht (by simp [Task.thread?])) grown
  | tookIn ht => exact Nat.add_le_add (set rfl ht (by simp [Task.thread?])) grown
  | @shut t i state ht =>
    exact Nat.add_le_add (set (v := w.modifyEpoch i _) rfl ht (by simp [Task.thread?])) grown
  | @collected t i state x intake ht hs =>
    refine Nat.add_le_add (set (v := w.takeIn i x intake) rfl ht (by simp [Task.thread?])) grown
  | expecting ht => exact Nat.add_le_add (set rfl ht (by simp [Task.thread?])) grown
  | discarding ht => exact Nat.add_le_add (set rfl ht (by simp [Task.thread?])) grown
  | @discarded t i x rest ht =>
    have htotal := w.total_setTask (Task.drains e) ht
      (.dispatcher i (.discarding [.callback x.ticket x.job.abandon]))
    have hnew : (Task.dispatcher i (.discarding [.callback x.ticket x.job.abandon])).drains e = 0 :=
      rfl
    rw [hnew] at htotal
    refine Nat.add_le_add ?_ grown
    exact Nat.le_of_add_right_le (Nat.le_of_eq htotal)
  | dispersed ht => exact Nat.add_le_add (set rfl ht (by simp [Task.thread?])) grown

/-- At most one drain of an epoch is under way, and none while the epoch is open. -/
theorem Evolved.drains_le {settings : Settings} {hook : Option Hook} (h : Evolved settings hook w)
    (e : EpochId) : w.total (Task.drains e) ≤ (w.epoch e).closed.toNat := by
  induction h with
  | opened =>
    have hz : ({ settings, hook : World ν }.launch).total (Task.drains e) = 0 :=
      total_launch_of_idle (fun _ _ => rfl) fun _ => rfl
    rw [hz]
    exact Nat.zero_le _
  | next h c ih =>
    have := c.drains_le h.sound e
    omega

/-- There is one place at most where an epoch is drained. -/
theorem Evolved.drain_unique {settings : Settings} {hook : Option Hook}
    (h : Evolved settings hook w) {i : TaskId} {n m : Nat} {below below' : List (Layer ν)}
    (ht : w.thread? t = some th) (hs : (.drain e n :: below) <:+ th.layers)
    (hi : w.thread? i = some th') (hs' : (.drain e m :: below') <:+ th'.layers) :
    t = i ∧ n = m ∧ below = below' := by
  have once := h.drains_le e
  have hone : (w.epoch e).closed.toNat ≤ 1 := Bool.toNat_le _
  obtain ⟨task, htask, hth⟩ := thread?_eq_some.1 ht
  obtain ⟨other, hother, hth'⟩ := thread?_eq_some.1 hi
  have counted : ∀ {layers below : List (Layer ν)} {n : Nat}, (.drain e n :: below) <:+ layers →
      1 + below.countP (Layer.drains e) ≤ layers.countP (Layer.drains e) := by
    intro layers below n hs
    have := hs.sublist.countP_le (p := Layer.drains e)
    simpa [List.countP_cons, Nat.add_comm] using this
  have hown := counted hs
  have hown' := counted hs'
  have hti : t = i := by
    by_contra hne
    have hboth := add_le_sum_map (Task.drains e) (l := w.tasks.toList) (i := t) (j := i)
      (by simpa using htask) (by simpa using hother) hne
    rw [Task.drains_of_thread? hth, Task.drains_of_thread? hth'] at hboth
    have := (hboth.trans once).trans hone
    omega
  subst hti
  obtain rfl : th = th' := Option.some.inj (ht.symm.trans hi)
  have hle : th.layers.countP (Layer.drains e) ≤ 1 := by
    have hle := le_sum_map (Task.drains e) (l := w.tasks.toList) (i := t) (by simpa using htask)
    rw [Task.drains_of_thread? hth] at hle
    exact (hle.trans once).trans hone
  have inner : ∀ {b b' : List (Layer ν)} {n m : Nat}, (.drain e n :: b) <:+ .drain e m :: b' →
      (.drain e m :: b') <:+ th.layers → n = m ∧ b = b' := by
    intro b b' n m hin hs
    obtain heq | hlow := List.suffix_cons_iff.1 hin
    · simpa using heq
    · have := counted hlow
      have := counted hs
      omega
  obtain hin | hin := List.suffix_or_suffix_of_suffix hs hs'
  · exact ⟨rfl, inner hin hs'⟩
  · obtain ⟨hm, hb⟩ := inner hin hs
    exact ⟨rfl, hm.symm, hb.symm⟩

/-- What is left to do below a drain stays, and the drain goes on, or it is over and nothing is
queued. -/
theorem Shift.drain_cases (h : Shift t a th w th' w') (hc : (w.epoch e).closed = true)
    (hone : th.layers.countP (Layer.drains e) ≤ 1) {n : Nat} {below : List (Layer ν)}
    (hs : (.drain e n :: below) <:+ th.layers) : th'.body = th.body ∧
      ((.drain e n :: below) <:+ th'.layers ∧ (w'.epoch e).queue = (w.epoch e).queue ∨
        (.drain e (n + 1) :: below) <:+ th'.layers ∧
          (∃ x, (w.epoch e).queue = x :: (w'.epoch e).queue) ∨
        th.layers = .drain e n :: below ∧ th'.layers = below ∧ (w.epoch e).queue = [] ∧
          (w'.epoch e).queue = []) := by
  have none : th.layers ≠ [] := by
    rintro hnil
    rw [hnil] at hs
    simp at hs
  obtain ⟨_, hq, _⟩ | ⟨m, rest, x, hl, rfl, _, hq, _⟩ := h.fading hc
  · have stays : th'.body = th.body → (.drain e n :: below) <:+ th'.layers → th'.body = th.body ∧
        ((.drain e n :: below) <:+ th'.layers ∧ (w'.epoch e).queue = (w.epoch e).queue ∨
          (.drain e (n + 1) :: below) <:+ th'.layers ∧
            (∃ x, (w.epoch e).queue = x :: (w'.epoch e).queue) ∨
          th.layers = .drain e n :: below ∧ th'.layers = below ∧ (w.epoch e).queue = [] ∧
            (w'.epoch e).queue = []) := fun hb hs => ⟨hb, .inl ⟨hs, hq⟩⟩
    have top : ∀ {layer : Layer ν} {rest : List (Layer ν)}, th.layers = layer :: rest →
        layer = .drain e n ∧ rest = below ∨ (.drain e n :: below) <:+ rest := by
      intro layer rest hl
      rw [hl] at hs
      obtain heq | hs := List.suffix_cons_iff.1 hs
      · rw [List.cons.injEq] at heq
        exact .inl ⟨heq.1.symm, heq.2.symm⟩
      · exact .inr hs
    cases h with
    | deed hl => exact absurd hl none
    | paused hl => exact absurd hl none
    | answered hl => exact absurd hl none
    | callbackDeed hl =>
      obtain ⟨hk, _⟩ | hs := top hl
      · cases hk
      · exact stays rfl (hs.trans (List.suffix_cons _ _))
    | returned hl =>
      obtain ⟨hk, _⟩ | hs := top hl
      · cases hk
      · exact stays rfl hs
    | abandoned hl hd =>
      obtain ⟨hk, _⟩ | hs := top hl
      · obtain ⟨rfl, rfl⟩ := Layer.drain.inj hk
        rw [(queue_of_drain? hd).1, epoch_record, epoch_modifyEpoch_self _ _ _ (lt_of_closed hc)]
          at hq
        exact absurd hq (List.cons_ne_self _ _).symm
      · exact stays rfl ((hs.trans (List.suffix_cons _ _)).trans (List.suffix_cons _ _))
    | drained hl hd =>
      obtain ⟨hk, rfl⟩ | hs := top hl
      · obtain ⟨rfl, rfl⟩ := Layer.drain.inj hk
        have hnil := Epoch.drain?_eq_none_iff_queue.1 hd
        exact ⟨rfl, .inr (.inr ⟨hl, rfl, hnil, hnil⟩)⟩
      · exact stays rfl hs
    | halted => exact stays rfl (hs.trans (List.suffix_cons _ _))
    | _ => exact stays rfl hs
  · rw [hl] at hs hone
    obtain heq | hs := List.suffix_cons_iff.1 hs
    · obtain ⟨hk, rfl⟩ := List.cons.inj heq
      obtain ⟨_, rfl⟩ := Layer.drain.inj hk
      exact ⟨rfl, .inr (.inl ⟨List.suffix_cons _ _, x, hq⟩)⟩
    · have := hs.sublist.countP_le (p := Layer.drains e)
      simp only [List.countP_cons, Layer.drains_drain, decide_true, if_true] at this hone
      omega

/-- Code that is on its way is changed by its own shifts alone. -/
theorem Change.thread_cases (c : Change w u) (ht : w.thread? t = some th) (hl : th.layers ≠ []) :
    u.thread? t = some th ∨ ∃ (task : Task ν) (th' : Thread ν) (w' : World ν),
      w.tasks[t]? = some task ∧ task.thread? = some th ∧ Shift t task.author? th w th' w' ∧
        u = w'.setTask t (task.withThread th') := by
  obtain ⟨task, htask, hth⟩ := thread?_eq_some.1 ht
  have hlt : t < w.tasks.size := (Array.getElem?_eq_some_iff.1 htask).1
  have same : ∀ {v : World ν}, v.tasks[t]? = w.tasks[t]? → v.thread? t = some th :=
    fun hv => by rw [thread?, hv, ← thread?, ht]
  have other : ∀ {v : World ν} {i : TaskId} {old new : Task ν}, v.tasks = w.tasks →
      w.tasks[i]? = some old → (∀ th, old.thread? = some th → th.layers = []) →
      (v.setTask i new).thread? t = some th := by
    intro v i old new hv hi hold
    have hne : t ≠ i := by
      rintro rfl
      rw [htask, Option.some.injEq] at hi
      exact hl (hold th (hi ▸ hth))
    exact same (by rw [getElem?_setTask_of_ne _ _ _ hne, hv])
  cases c with
  | aside ha => exact .inl (same (by rw [ha.tasks]))
  | posted => exact .inl (same (getElem?_spawn _ _ hlt))
  | @code w' i old th₁ th' hi hth₁ h =>
    by_cases hti : t = i
    · subst hti
      obtain rfl : task = old := Option.some.inj (htask.symm.trans hi)
      obtain rfl : th = th₁ := Option.some.inj (hth.symm.trans hth₁)
      exact .inr ⟨task, th', w', htask, hth, h, rfl⟩
    · exact .inl (same ((getElem?_setTask_of_ne _ _ _ hti).trans (h.getElem?_tasks hlt)))
  | brokenOff hi hl => exact .inl (other rfl hi (by simp [Task.thread?, hl]))
  | began hi => exact .inl (other rfl hi (by simp [Task.thread?]))
  | welcomed hi =>
    exact .inl (other (v := w.recordAll _) (by simp) hi (by simp [Task.thread?]))
  | lost hi => exact .inl (other (by simp) hi (by simp [Task.thread?]))
  | @claimed i j _ _ _ x ep hi =>
    exact .inl (other (v := w.modifyEpoch j fun _ => ep) rfl hi (by simp [Task.thread?]))
  | finished hi ho =>
    simp only [Thread.isOver, Bool.and_eq_true, List.isEmpty_iff] at ho
    exact .inl (other (by simp) hi (by simp [Task.thread?, ho.1]))
  | quit hi hq =>
    refine .inl (other rfl hi ?_)
    obtain ⟨_, rfl, _⟩ | ⟨rfl, _⟩ := hq <;> simp [Task.thread?]
  | left hi => exact .inl (other rfl hi (by simp [Task.thread?]))
  | retired hi => exact .inl (other (by simp) hi (by simp [Task.thread?]))
  | dispatching hi => exact .inl (other rfl hi (by simp [Task.thread?]))
  | flushed hi => exact .inl (other (by simp) hi (by simp [Task.thread?]))
  | woken hi => exact .inl (other rfl hi (by simp [Task.thread?]))
  | tookIn hi => exact .inl (other rfl hi (by simp [Task.thread?]))
  | @shut i j state hi hs =>
    refine .inl (other (v := w.modifyEpoch j _) rfl hi ?_)
    obtain rfl | rfl := hs <;> simp [Task.thread?]
  | @collected i j state x intake hi hs =>
    refine .inl (other (v := w.takeIn j x intake) rfl hi ?_)
    obtain rfl | rfl := hs <;> simp [Task.thread?]
  | expecting hi => exact .inl (other rfl hi (by simp [Task.thread?]))
  | discarding hi => exact .inl (other rfl hi (by simp [Task.thread?]))
  | discarded hi => exact .inl (other rfl hi (by simp [Task.thread?]))
  | dispersed hi => exact .inl (other rfl hi (by simp [Task.thread?]))

/-- One change of a world in which a closed epoch is being drained: the drain is where it was or one
job further, above the same code, or it is over. -/
theorem Change.drain_cases {settings : Settings} {hook : Option Hook} (c : Change w u)
    (hw : Evolved settings hook w) (hc : (w.epoch e).closed = true)
    (ht : w.thread? t = some th) {n : Nat} {below : List (Layer ν)}
    (hs : (.drain e n :: below) <:+ th.layers) :
    (∃ th', u.thread? t = some th' ∧ th'.body = th.body ∧
      ((.drain e n :: below) <:+ th'.layers ∧ (u.epoch e).queue = (w.epoch e).queue ∨
        (.drain e (n + 1) :: below) <:+ th'.layers ∧
          ∃ x, (w.epoch e).queue = x :: (u.epoch e).queue)) ∨
      (w.epoch e).queue = [] ∧ (u.epoch e).queue = [] ∧ u.total (Task.drains e) = 0 := by
  have none : th.layers ≠ [] := by
    rintro hnil
    rw [hnil] at hs
    simp at hs
  obtain same | ⟨task, th', w', htask, hth, h, rfl⟩ := c.thread_cases ht none
  · refine .inl ⟨th, same, rfl, .inl ⟨hs, ?_⟩⟩
    cases c.fading hc with
    | still _ hq => exact hq
    | discarded _ _ hq => exact hq
    | @drained i th' m rest x hi hl hu =>
      have hs' : (.drain e m :: rest) <:+ th'.layers := hl ▸ List.suffix_rfl
      obtain ⟨rfl, rfl, rfl⟩ := hw.drain_unique ht hs hi hs'
      obtain rfl : th = th' := Option.some.inj (ht.symm.trans hi)
      have hth := congrArg Thread.layers (Option.some.inj (same.symm.trans hu))
      rw [hl] at hth
      cases hth
  · have once := hw.drains_le e
    have hone : (w.epoch e).closed.toNat ≤ 1 := Bool.toNat_le _
    have hle := le_sum_map (Task.drains e) (l := w.tasks.toList) (i := t) (by simpa using htask)
    rw [Task.drains_of_thread? hth] at hle
    have hlt : t < w'.tasks.size :=
      Nat.lt_of_lt_of_le (Array.getElem?_eq_some_iff.1 htask).1 h.grows.tasks
    have hown : (w'.setTask t (task.withThread th')).thread? t = some th' := thread?_eq_some.2
      ⟨_, getElem?_setTask_self _ _ _ hlt, h.thread?_withThread hth⟩
    obtain ⟨hb, ⟨hs', hq⟩ | ⟨hs', hq⟩ | ⟨hl, hl', hq, hq'⟩⟩ :=
      h.drain_cases hc ((hle.trans once).trans hone) hs
    · exact .inl ⟨th', hown, hb, .inl ⟨hs', hq⟩⟩
    · exact .inl ⟨th', hown, hb, .inr ⟨hs', hq⟩⟩
    · refine .inr ⟨hq, hq', ?_⟩
      have htotal := h.total_withThread htask (Task.drains e)
      have hadded : w'.total (Task.drains e) = w.total (Task.drains e) :=
        h.total_eq (fun _ _ => rfl) (fun _ => rfl) fun _ _ _ => rfl
      rw [Task.drains_of_thread? hth, Task.drains_of_thread? (h.thread?_withThread hth), hl, hl',
        List.countP_cons] at htotal
      simp only [Layer.drains_drain, decide_true, if_true] at htotal
      omega

end World

end WorkerPool
