import Mathlib.Algebra.Order.BigOperators.Group.List
import Mathlib.Algebra.Order.Group.Nat
import WorkerPool.Proofs.Papers

/-!
# Where jobs are

A job that was accepted is in exactly one place: in one of the holders of the epoch that accepted
it, with one of its workers, finished, or abandoned. It is run or abandoned at most once. Only the
seed of a worker that the hook ended is nowhere.
-/

namespace WorkerPool

variable {ν : Type}

/-- Where a job can be once it was accepted. -/
inductive Place where
  | queued (epoch : EpochId) (tier : Tier)
  | intake (epoch : EpochId)
  | backlog (epoch : EpochId)
  /-- With a temporary worker that has not begun. -/
  | seed (epoch : EpochId) (worker : TaskId)
  | running (epoch : EpochId) (worker : TaskId)
  | finished (epoch : EpochId)
  | abandoned (epoch : EpochId)
  deriving DecidableEq, Repr

namespace Place

/-- The epoch that a place belongs to. -/
def epoch : Place → EpochId
  | queued e _ | intake e | backlog e | seed e _ | running e _ | finished e | abandoned e => e

@[simp] theorem epoch_seed (e : EpochId) (t : TaskId) : (seed e t).epoch = e := rfl
@[simp] theorem epoch_running (e : EpochId) (t : TaskId) : (running e t).epoch = e := rfl
@[simp] theorem epoch_finished (e : EpochId) : (finished e).epoch = e := rfl
@[simp] theorem epoch_abandoned (e : EpochId) : (abandoned e).epoch = e := rfl

end Place

/-- The places of a job among the holders of epoch `e`. -/
def Epoch.places (e : EpochId) (k : Nat) (ep : Epoch ν) : List Place :=
  (ep.primary.filter (·.ticket = k)).map (fun _ => .queued e .primary) ++
    (ep.temp.filter (·.ticket = k)).map (fun _ => .queued e .temp) ++
    (ep.intake.slot.toList.filter (·.ticket = k)).map (fun _ => .intake e) ++
    (ep.backlog.filter (·.ticket = k)).map (fun _ => .backlog e)

/-- The place of a job with task `t`, if the task holds it. -/
def Task.places (k : Nat) (t : TaskId) : Task ν → List Place
  | worker home _ (.seeded _ x) => if x.ticket = k then [.seed home t] else []
  | worker home _ (.busy _ ticket _) => if ticket = k then [.running home t] else []
  | _ => []

/-- The place that a job has come to for good. -/
def Occurrence.place? (k : Nat) : Occurrence ν → Option Place
  | finished e ticket _ => if ticket = k then some (.finished e) else none
  | abandoned e ticket => if ticket = k then some (.abandoned e) else none
  | _ => none

/-- The job of this ticket is run or abandoned. -/
def Booking.begins (k : Nat) : Booking → Bool
  | started _ ticket => ticket = k
  | abandoned _ ticket => ticket = k
  | _ => false

namespace World

/-- All places of the job of a ticket, over all epochs. -/
def places (w : World ν) (k : Nat) : List Place :=
  (List.range w.epochs.size).flatMap (fun e => (w.epoch e).places e k) ++
    w.tasks.toList.zipIdx.flatMap (fun p => p.1.places k p.2) ++
    w.occurrences.filterMap (Occurrence.place? k)

/-- An epoch accepted the job of a ticket: its submission returned without an error. -/
def AcceptedBy (w : World ν) (e : EpochId) (k : Nat) : Prop := .accepted e k ∈ w.books

instance (w : World ν) (e : EpochId) (k : Nat) : Decidable (w.AcceptedBy e k) :=
  inferInstanceAs (Decidable (_ ∈ _))

section Answer

variable (w : World ν) (t : TaskId) (x : Entry ν) (e : EpochId)

/-- A submission accepts its job, for the current epoch, exactly if its answer is that. -/
theorem acceptedBy_submit : (w.submit t x).2.AcceptedBy e x.ticket ↔
    w.AcceptedBy e x.ticket ∨ (w.submit t x).1 = .accepted ∧ w.current = some e := by
  unfold submit hire handOver
  cases hc : w.current with
  | none => simp [AcceptedBy, Occurrence.booking?]
  | some i =>
    dsimp only
    split
    case h_1 => simp [AcceptedBy, Occurrence.booking?, eq_comm]
    case h_2 => simp [AcceptedBy, Occurrence.booking?]
    case h_3 =>
      split
      · simp [AcceptedBy, Occurrence.booking?, eq_comm]
      · split_ifs <;> simp [AcceptedBy, Occurrence.booking?, eq_comm]

/-- A submission that waited accepts its job, for the epoch that it waited at, exactly if its answer
is that. -/
theorem acceptedBy_submitGranted (i : EpochId) :
    (w.submitGranted t i x).2.AcceptedBy e x.ticket ↔
      w.AcceptedBy e x.ticket ∨ (w.submitGranted t i x).1 = .accepted ∧ i = e := by
  unfold submitGranted giveUp handOver
  split <;> simp [AcceptedBy, Occurrence.booking?, eq_comm]

end Answer

/-- The hook ended the temporary worker that an epoch had hired for the job, as it joined. -/
def LostBy (w : World ν) (e : EpochId) (k : Nat) : Prop :=
  ∃ t live p, .seeded e k t ∈ w.occurrences ∧ .hook e t (.join live) (some p) ∈ w.occurrences ∧
    .lost e k t ∈ w.occurrences

/-- How often the job of a ticket was run or abandoned. -/
def calls (w : World ν) (k : Nat) : Nat :=
  w.occurrences.countP fun
    | .started _ ticket _ _ => ticket = k
    | .abandoned _ ticket => ticket = k
    | _ => false

section Count

variable (w : World ν) (e : EpochId) (k : Nat)

/-- A sum over a range with one summand that counts. -/
theorem sum_map_range {f : Nat → Nat} {i : Nat} (h : ∀ j, j ≠ i → f j = 0) (n : Nat) :
    ((List.range n).map f).sum = if i < n then f i else 0 := by
  induction n with
  | zero => simp
  | succ n ih =>
    rw [List.range_succ, List.map_append, List.sum_append, ih]
    by_cases hi : i = n
    · subst hi
      simp
    · have := h n (Ne.symm hi)
      simp only [List.map_cons, List.map_nil, List.sum_cons, List.sum_nil]
      split_ifs <;> omega

/-- The holders of an epoch are places of that epoch. -/
theorem countP_places_epoch (i : EpochId) (ep : Epoch ν) :
    (ep.places i k).countP (·.epoch = e) =
      if i = e then ep.entries.countP (·.ticket = k) else 0 := by
  by_cases hi : i = e
  · simp [Epoch.places, Epoch.entries, Place.epoch, hi, List.countP_eq_length_filter]
  · rw [if_neg hi, List.countP_eq_zero]
    intro p hp
    have hpi : p.epoch = i := by
      simp only [Epoch.places, List.mem_append, List.mem_map] at hp
      obtain ((⟨_, _, rfl⟩ | ⟨_, _, rfl⟩) | ⟨_, _, rfl⟩) | ⟨_, _, rfl⟩ := hp <;> rfl
    simpa [hpi] using hi

/-- A task is a place of the epoch that it works for. -/
theorem countP_places_task (t : TaskId) (task : Task ν) :
    (task.places k t).countP (·.epoch = e) = if task.held? = some (e, k) then 1 else 0 := by
  rcases task with ⟨home, kind, _ | ⟨live, x⟩ | _ | ⟨source, ticket, th⟩ | _ | _⟩ | _ | _ <;>
    simp only [Task.places, Task.held?, reduceCtorEq, if_false, List.countP_nil]
  case seeded => by_cases hk : x.ticket = k <;> by_cases hi : home = e <;> simp [hk, hi]
  case busy => by_cases hk : ticket = k <;> by_cases hi : home = e <;> simp [hk, hi]

/-- What has become of a job is a place of the epoch in which it did. -/
theorem countP_filterMap_place? (os : List (Occurrence ν)) :
    (os.filterMap (Occurrence.place? k)).countP (·.epoch = e) =
      (os.filterMap Occurrence.booking?).count (.finished e k) +
        (os.filterMap Occurrence.booking?).count (.abandoned e k) := by
  induction os with
  | nil => rfl
  | cons o os ih =>
    cases o
    all_goals
      simp only [List.filterMap_cons, Occurrence.place?, Occurrence.booking?, List.count_cons,
        beq_iff_eq, reduceCtorEq, if_false, Nat.add_zero, ih]
    case finished i ticket _ =>
      by_cases hk : ticket = k
      · by_cases hi : i = e
        · simp [hk, hi, ih, Nat.add_right_comm]
        · simp [hk, hi, ih]
      · simp [hk, ih]
    case abandoned i ticket =>
      by_cases hk : ticket = k
      · by_cases hi : i = e
        · simp [hk, hi, ih, Nat.add_assoc]
        · simp [hk, hi, ih]
      · simp [hk, ih]

/-- An epoch that never was holds nothing. -/
theorem stock_of_size_le (he : w.epochs.size ≤ e) : w.stock e k = 0 := by
  rw [stock, epoch_of_size_le _ _ he]
  rfl

/-- The places of a job in one epoch are what the accounts of the epoch say. -/
theorem countP_places : (w.places k).countP (·.epoch = e) = w.stock e k + w.holders e k +
    w.books.count (.finished e k) + w.books.count (.abandoned e k) := by
  have hstock : ((List.range w.epochs.size).flatMap fun i => (w.epoch i).places i k).countP
      (·.epoch = e) = w.stock e k := by
    rw [List.countP_flatMap]
    simp only [Function.comp_def, countP_places_epoch]
    rw [sum_map_range (i := e) (fun j hj => if_neg hj)]
    by_cases he : e < w.epochs.size
    · simp [he, stock]
    · rw [if_neg he, stock_of_size_le w e k (Nat.not_lt.1 he)]
  have hholders : (w.tasks.toList.zipIdx.flatMap fun p => p.1.places k p.2).countP
      (·.epoch = e) = w.holders e k := by
    rw [List.countP_flatMap]
    simp only [Function.comp_def, countP_places_task, holders, total]
    conv_rhs => rw [← List.zipIdx_map_fst 0 w.tasks.toList, List.map_map]
    rfl
  rw [places, List.countP_append, List.countP_append, hstock, hholders,
    countP_filterMap_place?, ← books]
  omega

/-- Of bookings of two kinds there are no more than of each together. -/
theorem countP_le_of_imp {p : Booking → Bool} {x y : Booking} {bs : List Booking}
    (h : ∀ b ∈ bs, p b = true → b = x ∨ b = y) : bs.countP p ≤ bs.count x + bs.count y := by
  induction bs with
  | nil => simp
  | cons b bs ih =>
    have ih := ih fun c hc => h c (List.mem_cons_of_mem _ hc)
    have hb := h b List.mem_cons_self
    simp only [List.countP_cons, List.count_cons, beq_iff_eq]
    split_ifs <;> simp_all <;> omega

/-- The calls of a job are in the books. -/
theorem calls_eq : w.calls k = w.books.countP (·.begins k) := by
  rw [calls, books, List.countP_filterMap]
  congr 1
  funext o
  cases o <;> rfl

end Count

variable {w : World ν} {e : EpochId} {k : Nat}

/-- A submission that was written down is in the books. -/
theorem count_submitted_pos {os : List (Occurrence ν)} {job : Job ν}
    (h : .submitted k job ∈ os) : 0 < (os.filterMap Occurrence.booking?).count (.submitted k) :=
  List.count_pos_iff.2 (List.mem_filterMap.2 ⟨_, h, rfl⟩)

/-- A ticket stands for one job. -/
theorem Ledger.job_unique (h : w.Ledger) {job job' : Job ν}
    (hj : .submitted k job ∈ w.occurrences) (hj' : .submitted k job' ∈ w.occurrences) :
    job' = job := by
  have once : w.books.count (.submitted k) ≤ 1 := by
    rw [h.submitted]
    split_ifs <;> omega
  rw [books] at once
  generalize w.occurrences = os at once hj hj'
  induction os with
  | nil => cases hj
  | cons o os ih =>
    have hsplit : (o :: os).filterMap Occurrence.booking? =
        o.booking?.toList ++ os.filterMap Occurrence.booking? := by
      cases hb : o.booking? <;> simp [hb]
    rw [hsplit, List.count_append] at once
    have head : ∀ {j : Job ν}, .submitted k j = o → o.booking?.toList.count (.submitted k) = 1 := by
      rintro j rfl
      simp [Occurrence.booking?]
    rcases List.mem_cons.1 hj with ho | hos <;> rcases List.mem_cons.1 hj' with ho' | hos'
    · have heq := ho'.trans ho.symm
      simpa using heq
    · have := head ho
      have := count_submitted_pos hos'
      omega
    · have := head ho'
      have := count_submitted_pos hos
      omega
    · exact ih (by omega) hos hos'

/-- A ticket is accepted by at most one epoch, and there at most once. -/
theorem Ledger.count_accepted (h : w.Ledger) (ha : w.AcceptedBy e k) (i : EpochId) :
    w.books.count (.accepted i k) = if i = e then 1 else 0 := by
  have hd := h.drawn k
  have hpos : 0 < w.books.count (.accepted e k) := List.count_pos_iff.2 ha
  have hle : ∀ bs : List Booking, bs.count (.accepted e k) +
      (if i = e then 0 else bs.count (.accepted i k)) ≤ bs.countP (·.accepts k) := by
    intro bs
    induction bs with
    | nil => simp
    | cons b bs ih =>
      simp only [List.count_cons, List.countP_cons, beq_iff_eq]
      split_ifs at ih ⊢ <;> simp_all [Booking.accepts] <;> omega
  have := hle w.books
  split_ifs at this hd ⊢ with hi
  all_goals (try subst hi); omega

/-- A job that a task holds is counted. -/
theorem holders_pos {t : TaskId} {task : Task ν} (ht : w.tasks[t]? = some task)
    (hh : task.held? = some (e, k)) : 0 < w.holders e k := by
  have hm : (if task.held? = some (e, k) then 1 else 0) ∈
      w.tasks.toList.map fun task => if task.held? = some (e, k) then 1 else 0 :=
    List.mem_map_of_mem (List.mem_of_getElem? (by simpa using ht))
  have := List.le_sum_of_mem hm
  rw [if_pos hh] at this
  exact this

/-- A worker holds what it runs. -/
theorem runners_le_holders (w : World ν) (e : EpochId) (k : Nat) :
    w.runners e k ≤ w.holders e k := by
  apply List.sum_le_sum
  intro task _
  rcases task with ⟨home, kind, _ | _ | _ | _ | _ | _⟩ | ⟨home, _⟩ | _ <;>
    simp [Task.running?, Task.held?]

/-- An epoch begins or abandons a job no more often than it accepted it. -/
theorem Ledger.begun_le_accepted (h : w.Ledger) (e : EpochId) (k : Nat) :
    w.books.count (.started e k) + w.books.count (.abandoned e k) ≤
      w.books.count (.accepted e k) := by
  have := h.kept e k
  have := h.begun e k
  have := w.runners_le_holders e k
  omega

/-- Only a job that was accepted is run or abandoned, and only in the epoch that accepted it. -/
theorem Ledger.accepted_of_begins (h : w.Ledger) {b : Booking} (hb : b ∈ w.books)
    (hk : b.begins k = true) :
    ∃ e, w.AcceptedBy e k ∧ (b = .started e k ∨ b = .abandoned e k) := by
  have hpos := List.count_pos_iff.2 hb
  cases b with
  | started e ticket =>
    obtain rfl : ticket = k := by simpa [Booking.begins] using hk
    have := h.begun_le_accepted e ticket
    exact ⟨e, List.count_pos_iff.1 (by omega), .inl rfl⟩
  | abandoned e ticket =>
    obtain rfl : ticket = k := by simpa [Booking.begins] using hk
    have := h.begun_le_accepted e ticket
    exact ⟨e, List.count_pos_iff.1 (by omega), .inr rfl⟩
  | _ => cases hk

/-- No other epoch accepts a job that one has accepted. -/
theorem Ledger.accepted_unique (h : w.Ledger) (ha : w.AcceptedBy e k) {i : EpochId}
    (hi : w.AcceptedBy i k) : i = e := by
  have hcount := h.count_accepted ha i
  have := List.count_pos_iff.2 hi
  split_ifs at hcount with hie
  · exact hie
  · omega

/-- A job is run or abandoned at most once. -/
theorem Ledger.calls_le_one (h : w.Ledger) (k : Nat) : w.calls k ≤ 1 := by
  rw [calls_eq]
  by_cases hz : w.books.countP (·.begins k) = 0
  · omega
  obtain ⟨b, hb, hk⟩ := List.countP_pos_iff.1 (Nat.pos_of_ne_zero hz)
  obtain ⟨e, ha, _⟩ := h.accepted_of_begins hb hk
  have hle : w.books.countP (·.begins k) ≤
      w.books.count (.started e k) + w.books.count (.abandoned e k) := by
    apply countP_le_of_imp
    intro c hc hck
    obtain ⟨i, hi, hcases⟩ := h.accepted_of_begins hc hck
    rwa [← h.accepted_unique ha hi]
  have := h.begun_le_accepted e k
  have := h.count_accepted ha e
  simp only [if_true] at this
  omega

/-- A job that an epoch still holds, or has lost, is neither run nor abandoned. -/
theorem Ledger.calls_of_unclaimed (h : w.Ledger)
    (hk : 0 < w.stock e k + w.books.count (.lost e k)) : w.calls k = 0 := by
  have kept := h.kept e k
  have ha : w.AcceptedBy e k := List.count_pos_iff.1 (by omega)
  have once := h.count_accepted ha e
  rw [if_pos rfl] at once
  have begun := h.begun e k
  have running := w.runners_le_holders e k
  rw [calls_eq, List.countP_eq_zero]
  intro b hb hbegins
  obtain ⟨i, hi, hcases⟩ := h.accepted_of_begins hb hbegins
  obtain rfl := h.accepted_unique ha hi
  obtain rfl | rfl := hcases <;> have := List.count_pos_iff.2 hb <;> omega

/-- A job that an epoch accepted is in one place, which belongs to that epoch, or it was lost. -/
theorem Ledger.places_of_accepted (h : w.Ledger) (ha : w.AcceptedBy e k) :
    (∃ p, w.places k = [p] ∧ p.epoch = e) ∨
      w.places k = [] ∧ .lost e k ∈ w.books := by
  have count : ∀ i, (w.places k).countP (·.epoch = i) + w.books.count (.lost i k) =
      if i = e then 1 else 0 := by
    intro i
    rw [countP_places, h.kept, h.count_accepted ha]
  have all : ∀ p ∈ w.places k, p.epoch = e := by
    intro p hp
    by_contra hne
    have := count p.epoch
    rw [if_neg hne] at this
    have hpos : 0 < (w.places k).countP (·.epoch = p.epoch) :=
      List.countP_pos_iff.2 ⟨p, hp, by simp⟩
    omega
  have hlength : (w.places k).length + w.books.count (.lost e k) = 1 := by
    have hl : (w.places k).countP (·.epoch = e) = (w.places k).length :=
      List.countP_eq_length.2 (by simpa using all)
    rw [← hl]
    simpa using count e
  by_cases hlost : .lost e k ∈ w.books
  · have := List.count_pos_iff.2 hlost
    exact .inr ⟨List.length_eq_zero_iff.1 (by omega), hlost⟩
  · rw [List.count_eq_zero.2 hlost] at hlength
    obtain ⟨p, hp⟩ := List.length_eq_one_iff.1 hlength
    exact .inl ⟨p, hp, all p (by simp [hp])⟩

/-- A job that was lost was the seed of a worker that the hook ended. -/
theorem Papers.lostBy (h : w.Papers) (hl : .lost e k ∈ w.books) : w.LostBy e k := by
  obtain ⟨t, ho⟩ := lost_mem_books.1 hl
  obtain ⟨hs, live, p, hh⟩ := h.lost _ _ _ ho
  exact ⟨t, live, p, hs, hh, ho⟩

/-- Jobs are conserved. In every state that a pool comes to, a job that an epoch accepted is in
exactly one place, which belongs to that epoch, or it was the seed of a temporary worker whose hook
panicked as the worker joined; and no job is run or abandoned more than once. The jobs that an epoch
accepted are those of the submissions that were answered so, at once by the current epoch or by the
one at whose intake the submitter waited. -/
theorem jobs_conserved {settings : Settings} {hook : Option Hook} (h : Reachable settings hook w)
    (k : Nat) : (∀ e, w.AcceptedBy e k → (∃ p, w.places k = [p] ∧ p.epoch = e) ∨
      w.places k = [] ∧ w.LostBy e k) ∧ w.calls k ≤ 1 ∧
    (∀ (u : World ν) (t : TaskId) (job : Job ν) (e : EpochId),
      (u.submit t ⟨k, job⟩).2.AcceptedBy e k ↔
        u.AcceptedBy e k ∨ (u.submit t ⟨k, job⟩).1 = .accepted ∧ u.current = some e) ∧
    ∀ (u : World ν) (t : TaskId) (job : Job ν) (e i : EpochId),
      (u.submitGranted t i ⟨k, job⟩).2.AcceptedBy e k ↔
        u.AcceptedBy e k ∨ (u.submitGranted t i ⟨k, job⟩).1 = .accepted ∧ i = e := by
  have ledger := h.evolved.ledger
  refine ⟨fun e ha => ?_, ledger.calls_le_one k, fun u t job e => u.acceptedBy_submit t ⟨k, job⟩ e,
    fun u t job e i => u.acceptedBy_submitGranted t ⟨k, job⟩ e i⟩
  obtain hp | ⟨hn, hl⟩ := ledger.places_of_accepted ha
  · exact .inl hp
  · exact .inr ⟨hn, h.evolved.papers.lostBy hl⟩

/-- One permanent worker and one place in each queue. -/
def narrow : Settings := { minWorkers := 1, primaryCapacity := 1, tempCapacity := 1 }

theorem narrow_valid : narrow.Valid := ⟨by decide, by decide, by decide, by decide⟩

/-- A narrow pool to which a client submitted three jobs before its worker began; the temporary
worker that was hired for the third one was ended by the hook. -/
def seedLost : World Nat :=
  [1, 1, 1, 2].foldl step
    (({ settings := narrow, hook := some fun _ _ => some .unprintable : World Nat }.launch).spawn
      (.client { body := ⟨List.replicate 3 (.submit ⟨[], .ok ()⟩ ⟨[], .ok ()⟩ 0 1 2), .ok ()⟩ }))

/-- Of the three jobs the first is queued and the third is nowhere. -/
theorem jobs_conserved_of_seedLost :
    (∃ hook, Reachable narrow hook seedLost) ∧
      seedLost.AcceptedBy 0 0 ∧ seedLost.places 0 = [.queued 0 .primary] ∧
      seedLost.AcceptedBy 0 2 ∧ seedLost.places 2 = [] ∧ seedLost.LostBy 0 2 ∧
      seedLost.calls 2 ≤ 1 := by
  have reachable : Reachable narrow (some fun _ _ => some .unprintable) seedLost :=
    (Reachable.launch _ narrow_valid).call _ [1, 1, 1, 2]
  have third : seedLost.AcceptedBy 0 2 := by decide
  have nowhere : seedLost.places 2 = [] := by decide
  obtain ⟨hplaces, hcalls, -⟩ := jobs_conserved reachable 2
  refine ⟨⟨_, reachable⟩, by decide, by decide, third, nowhere, ?_, hcalls⟩
  obtain ⟨p, hp, _⟩ | ⟨_, hlost⟩ := hplaces 0 third
  · rw [nowhere] at hp
    cases hp
  · exact hlost

end World

end WorkerPool
