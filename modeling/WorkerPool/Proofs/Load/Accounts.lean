import WorkerPool.Proofs.Load.Ending
import WorkerPool.Proofs.Options

/-!
# The accounts of a load run

A load run that ends has counted every task once: those that the pool accepted are those that it was
told of as run, failed, panicked or dropped. If the run was not interrupted, these are all tasks,
and none of them was dropped.
-/

namespace WorkerPool

open World

/-- The request has a result. -/
def Outcome.isOk {ρ ε : Type} : Outcome ρ ε → Bool
  | .ok _ => true
  | .error _ => false

/-- The request has an error of the handler. -/
def Outcome.isFailed {ρ ε : Type} : Outcome ρ ε → Bool
  | .error (.failed _) => true
  | _ => false

/-- The handler panicked. -/
def Outcome.isPanicked {ρ ε : Type} : Outcome ρ ε → Bool
  | .error (.panicked _) => true
  | _ => false

/-- The request was dropped. -/
def Outcome.isDropped {ρ ε : Type} : Outcome ρ ε → Bool
  | .error .dropped => true
  | _ => false

/-- Each outcome is of one kind. -/
theorem Outcome.kinds {ρ ε : Type} (o : Outcome ρ ε) :
    o.isOk.toNat + o.isFailed.toNat + o.isPanicked.toNat + o.isDropped.toNat = 1 := by
  rcases o with (_ | _ | _) | _ <;> rfl

/-- So the kinds of several outcomes add up to their number. -/
theorem Outcome.sum_kinds {ρ ε : Type} (f : Nat → Outcome ρ ε) (n : Nat) :
    ∑ k ∈ Finset.range n, (f k).isOk.toNat + ∑ k ∈ Finset.range n, (f k).isFailed.toNat +
      ∑ k ∈ Finset.range n, (f k).isPanicked.toNat +
        ∑ k ∈ Finset.range n, (f k).isDropped.toNat = n := by
  simp only [← Finset.sum_add_distrib, Outcome.kinds]
  rw [← Finset.card_eq_sum_ones, Finset.card_range]

/-- The report is that the pool accepted a task. -/
def LoadNote.isAcceptance : LoadNote → Bool
  | accepted _ => true
  | _ => false

namespace Occurrence

variable {ν : Type}

/-- A call of the hook of this description. -/
def isHook (q : HookCall → Bool) : Occurrence ν → Bool
  | hook _ _ call _ => q call
  | _ => false

/-- How many temporary workers were alive as one joined. -/
def joinedAs : Occurrence ν → Nat
  | hook _ _ (.join live) _ => live
  | _ => 0

/-- The message of a panic that is answered. -/
def panic? : Occurrence LoadNote → Option String
  | note _ (.answered _ (.error (.panicked message))) => some message
  | _ => none

end Occurrence

namespace LoadSummary

/-- A summary counts each kind of occurrences by itself. -/
theorem foldl_observe (s : LoadSummary) (os : List (Occurrence LoadNote)) :
    os.foldl observe s =
      { submitted := s.submitted + os.countP (Occurrence.isNote LoadNote.isAcceptance)
        ok := s.ok + os.countP (Occurrence.isNote (LoadNote.answers Outcome.isOk))
        failed := s.failed + os.countP (Occurrence.isNote (LoadNote.answers Outcome.isFailed))
        panicked := s.panicked + os.countP (Occurrence.isNote (LoadNote.answers Outcome.isPanicked))
        dropped := s.dropped + os.countP (Occurrence.isNote (LoadNote.answers Outcome.isDropped))
        peakTemps := os.foldl (fun peak o => max peak o.joinedAs) s.peakTemps
        joins := s.joins + os.countP (Occurrence.isHook HookCall.isJoin)
        leaves := s.leaves + os.countP (Occurrence.isHook HookCall.isLeave)
        firstPanic := s.firstPanic <|> os.findSome? Occurrence.panic?
        elapsedMillis := s.elapsedMillis
        interrupted := s.interrupted } := by
  induction os generalizing s with
  | nil => cases s; simp
  | cons o os ih =>
    rw [List.foldl_cons, ih]
    rcases o with ⟨_, _ | _ | ⟨_, ⟨_ | _ | _⟩ | _⟩ | _⟩ | _ | ⟨_, _, _ | _ | _, _⟩ | _
    all_goals simp [observe, answer, List.countP_cons, List.findSome?_cons, Occurrence.isNote,
      Occurrence.isHook, Occurrence.joinedAs, Occurrence.panic?, LoadNote.answers,
      LoadNote.isAcceptance, Outcome.isOk, Outcome.isFailed, Outcome.isPanicked, Outcome.isDropped,
      Nat.add_assoc, Nat.add_comm]

end LoadSummary

section Peak

variable {os : List (Occurrence LoadNote)} {peak start : Nat}

/-- The highest number of workers that were alive as one joined. -/
theorem foldl_joinedAs (hs : start ≤ peak) (hle : ∀ o ∈ os, o.joinedAs ≤ peak)
    (hr : start = peak ∨ ∃ o ∈ os, o.joinedAs = peak) :
    os.foldl (fun peak o => max peak o.joinedAs) start = peak := by
  induction os generalizing start with
  | nil => simpa using hr
  | cons o os ih =>
    have ho := hle o List.mem_cons_self
    refine ih (max_le hs ho) (fun o hm => hle o (List.mem_cons_of_mem _ hm)) ?_
    obtain rfl | ⟨o', hm, hj⟩ := hr
    · exact .inl (max_eq_left ho)
    · obtain rfl | hm := List.mem_cons.1 hm
      · exact .inl (max_eq_right (hs.trans hj.ge) |>.trans hj)
      · exact .inr ⟨o', hm, hj⟩

end Peak

namespace World

variable {w : World LoadNote} {settings : Settings} {hook : Option Hook} {e : EpochId} {n : Nat}

/-- What a run has counted, kind by kind. -/
theorem summary_eq (i : Bool) : w.summary i =
    { submitted := w.occurrences.countP (Occurrence.isNote LoadNote.isAcceptance)
      ok := w.occurrences.countP (Occurrence.isNote (LoadNote.answers Outcome.isOk))
      failed := w.occurrences.countP (Occurrence.isNote (LoadNote.answers Outcome.isFailed))
      panicked := w.occurrences.countP (Occurrence.isNote (LoadNote.answers Outcome.isPanicked))
      dropped := w.occurrences.countP (Occurrence.isNote (LoadNote.answers Outcome.isDropped))
      peakTemps := w.occurrences.foldl (fun peak o => max peak o.joinedAs) 0
      joins := w.occurrences.countP (Occurrence.isHook HookCall.isJoin)
      leaves := w.occurrences.countP (Occurrence.isHook HookCall.isLeave)
      firstPanic := w.occurrences.findSome? Occurrence.panic?
      elapsedMillis := w.clock
      interrupted := i } := by
  have fold : w.summary i =
      w.occurrences.foldl LoadSummary.observe { elapsedMillis := w.clock, interrupted := i } := by
    rw [summary, occurrences, List.foldl_map, Array.foldl_toList]
  rw [fold, LoadSummary.foldl_observe]
  simp

/-- A worker that has joined as one of so many has announced it. -/
theorem Evolved.announces_of_join (hw : Evolved settings hook w) {t : TaskId}
    {panic : Option Panic} (hm : .hook e t (.join n) panic ∈ w.occurrences) : w.Announces e n := by
  obtain ⟨kind, state, ht⟩ := hw.worker_of_hook hm
  exact ⟨t, kind, state, ht, .inr ⟨panic, World.mem_picked.2
    ⟨_, hm, by simp [Occurrence.callBy?]⟩⟩⟩

/-- In a deserted epoch whoever has announced how many are alive has joined as one of them. -/
theorem Announces.join_mem (h : w.Announces e n) (hd : w.deserted e = true) :
    ∃ i t panic, .hook i t (.join n) panic ∈ w.occurrences := by
  obtain ⟨t, kind, state, ht, ⟨x, rfl⟩ | ⟨panic, hm⟩⟩ := h
  · cases isOver_of_deserted hd ht rfl
  · obtain ⟨o, ho, hcall⟩ := World.mem_picked.1 hm
    cases o with
    | hook i j call other =>
      simp only [Occurrence.callBy?, Option.ite_none_right_eq_some, Option.some.injEq,
        Prod.mk.injEq] at hcall
      obtain ⟨rfl, rfl, rfl⟩ := hcall
      exact ⟨i, j, other, ho⟩
    | _ => cases hcall

/-- Workers of the only epoch alone have called the hook. -/
theorem Evolved.eq_zero_of_hook (hw : Evolved settings hook w) (hs : w.epochs.size = 1)
    {t : TaskId} {call : HookCall} {panic : Option Panic}
    (hm : .hook e t call panic ∈ w.occurrences) : e = 0 := by
  obtain ⟨kind, state, ht⟩ := hw.worker_of_hook hm
  have he := (hw.sound.tasks t _ ht).home_lt e rfl
  rwa [hs, Nat.lt_one_iff] at he

/-- All calls of the hook are calls of the only epoch. -/
theorem Evolved.countP_isHook (hw : Evolved settings hook w) (hs : w.epochs.size = 1)
    (q : HookCall → Bool) :
    w.occurrences.countP (Occurrence.isHook q) = w.occurrences.countP (Occurrence.isCall 0 q) := by
  refine List.countP_congr fun o ho => ?_
  cases o with
  | hook e t call panic =>
    obtain rfl := hw.eq_zero_of_hook hs ho
    simp [Occurrence.isHook, Occurrence.isCall]
  | _ => simp [Occurrence.isHook, Occurrence.isCall]

/-- A panic is answered first if any is answered. -/
theorem isSome_findSome?_panic : (w.occurrences.findSome? Occurrence.panic?).isSome ↔
    0 < w.occurrences.countP (Occurrence.isNote (LoadNote.answers Outcome.isPanicked)) := by
  have same : ∀ o : Occurrence LoadNote, o.panic?.isSome =
      o.isNote (LoadNote.answers Outcome.isPanicked) := by
    rintro (⟨_, _ | _ | ⟨_, ⟨_ | _ | _⟩ | _⟩ | _⟩ | _) <;> rfl
  rw [List.findSome?_isSome_iff, List.countP_pos_iff]
  simp only [same]

end World

/-- The tickets of the submissions that an epoch has accepted. -/
def World.acceptances {ν : Type} (w : World ν) : Finset Nat :=
  (Finset.range w.nextTicket).filter fun k => ∃ e < w.epochs.size, w.AcceptedBy e k

namespace LoadPlan

/-- What the summary of a load run has to say, if `peak` is the highest value that the counter of
temporary workers has had. -/
structure Accounts (p : LoadPlan) (w : World LoadNote) (peak : Nat) (summary : LoadSummary) :
    Prop where
  /-- As many tasks were submitted as the pool has accepted. -/
  submitted : summary.submitted = w.acceptances.card
  /-- Each of them was answered once. -/
  answered : summary.ok + summary.failed + summary.panicked + summary.dropped = summary.submitted
  /-- Each temporary worker that was hired has joined. -/
  joins : summary.joins = ∑ e ∈ Finset.range w.epochs.size, (w.temporaries e).card
  /-- Whoever has joined has left, as long as the clock has not gone beyond 64 bits. -/
  leaves : w.clock < 2 ^ 64 → summary.leaves = summary.joins
  peakTemps : summary.peakTemps = peak
  limited : ∀ limit, p.pool.maxTemps = some limit → summary.peakTemps ≤ limit
  /-- The first panic is that of the first answer that has one. -/
  firstPanic : summary.firstPanic = w.occurrences.findSome? Occurrence.panic?
  isSome_firstPanic : summary.firstPanic.isSome ↔ 0 < summary.panicked
  /-- If the run was not interrupted all tasks were submitted, and none was dropped. -/
  whole : summary.interrupted = false → summary.submitted = p.tasks ∧ summary.dropped = 0

variable {p : LoadPlan} {w : World LoadNote} {s : LoadState} {peak m : Nat} {i b : Bool}

/-- The outcome of no task is that it was dropped. -/
theorem isDropped_outcome (n : Nat) : (p.outcome n).isDropped = false := by
  rw [outcome_eq]
  split_ifs <;> rfl

section Over

variable (h : p.Over w i m b) (hw : Evolved p.pool (some fun _ _ => none) w)

include h hw

/-- The tasks of a run were answered in one way or another as often as they were replied to so. -/
theorem Over.countP_answers (q : Outcome Nat String → Bool) :
    w.occurrences.countP (Occurrence.isNote (LoadNote.answers q)) =
      ∑ k ∈ Finset.range m, (q (p.reply w k)).toNat := by
  have mute : w.outer.countP (Occurrence.isNote (LoadNote.answers q)) = 0 := by
    rw [List.countP_eq_zero, h.steered.outer]
    intro o ho
    rcases o with ⟨author, _ | _ | ⟨n, outcome⟩ | _⟩ | _ <;>
      simp [Occurrence.isNote, LoadNote.answers, mute_transcript, note_not_mem_remnant] at ho ⊢
  rw [h.countP_isNote _ hw, mute, Nat.zero_add]
  rfl

/-- The driver has counted the tasks that were accepted. -/
theorem Over.countP_isAcceptance :
    w.occurrences.countP (Occurrence.isNote LoadNote.isAcceptance) = m := by
  have driver : ∀ m, (p.transcript m).countP (Occurrence.isNote LoadNote.isAcceptance) = m := by
    intro m
    induction m with
    | zero => rfl
    | succ m ih => rw [transcript_succ, List.countP_append, ih]; rfl
  have outer : w.outer.countP (Occurrence.isNote LoadNote.isAcceptance) = m := by
    rw [h.steered.outer, List.countP_append, List.countP_append, driver]
    cases b <;> rfl
  rw [h.countP_isNote _ hw, outer]
  simp [LoadNote.isAcceptance]

/-- The highest value of the counter was told as a worker joined. -/
theorem Over.peak_eq (heights : Heights w peak) :
    w.occurrences.foldl (fun peak o => max peak o.joinedAs) 0 = peak := by
  refine foldl_joinedAs (Nat.zero_le _) (fun o ho => ?_) (heights.reached.imp Eq.symm fun hp => ?_)
  · cases o with
    | hook e t call panic =>
      cases call with
      | join live =>
        obtain rfl := hw.eq_zero_of_hook h.steered.size ho
        exact heights.announced live (hw.announces_of_join ho)
      | _ => exact Nat.zero_le _
    | _ => exact Nat.zero_le _
  · obtain ⟨e, t, panic, hm⟩ := hp.join_mem h.spent.deserted
    exact ⟨_, hm, rfl⟩

/-- The tasks that were accepted are those that the driver has counted. -/
theorem Over.card_acceptances : w.acceptances.card = m := by
  have same : w.acceptances = Finset.range m := by
    ext k
    simp only [acceptances, h.steered.size, h.steered.tickets, Finset.mem_filter, Finset.mem_range,
      Nat.lt_one_iff, exists_eq_left, h.acceptedBy_iff hw]
    omega
  rw [same, Finset.card_range]

/-- What a load run has counted as it comes to its end in time. -/
theorem Over.summary_eq (heights : Heights w peak) : w.summary i =
    { submitted := m
      ok := ∑ k ∈ Finset.range m, (p.reply w k).isOk.toNat
      failed := ∑ k ∈ Finset.range m, (p.reply w k).isFailed.toNat
      panicked := ∑ k ∈ Finset.range m, (p.reply w k).isPanicked.toNat
      dropped := ∑ k ∈ Finset.range m, (p.reply w k).isDropped.toNat
      peakTemps := peak
      joins := (w.temporaries 0).card
      leaves := w.leaves 0
      firstPanic := w.occurrences.findSome? Occurrence.panic?
      elapsedMillis := w.clock
      interrupted := i } := by
  have joins := hw.joins_eq_card h.spent.deserted (hw.quiet calm_load 0) rfl
  rw [World.summary_eq, h.countP_isAcceptance hw, h.peak_eq hw heights,
    hw.countP_isHook h.steered.size, hw.countP_isHook h.steered.size, ← joins]
  simp only [h.countP_answers hw]
  rfl

omit hw in
/-- If a load run was not interrupted the reply to each task of the plan is its outcome. -/
theorem Over.reply_eq (hi : i = false) :
    m = p.tasks ∧ ∀ k < m, p.reply w k = p.outcome (k + 1) := by
  obtain ⟨rfl, -, started⟩ := h.drove.whole hi
  exact ⟨rfl, fun k hk => if_pos (started k hk)⟩

/-- A load run that comes to its end in time has counted every task that the pool accepted. -/
theorem Over.accounts (heights : Heights w peak)
    (limited : ∀ limit, p.pool.maxTemps = some limit → peak ≤ limit)
    (timed : w.clock < 2 ^ 64 → ¬ w.Untimed) : p.Accounts w peak (w.summary i) := by
  have hsummary := h.summary_eq hw heights
  constructor
  case submitted => rw [hsummary, h.card_acceptances hw]
  case answered =>
    rw [hsummary]
    exact Outcome.sum_kinds (p.reply w) m
  case joins => rw [hsummary, h.steered.size, Finset.sum_range_one]
  case leaves =>
    intro hc
    have leaves := (hw.joins_of_deserted h.spent.deserted (hw.quiet calm_load 0)).1 rfl
    rw [hw.joins_eq_card h.spent.deserted (hw.quiet calm_load 0) rfl,
      hw.overrun_eq_empty (timed hc)] at leaves
    simp [hsummary, leaves]
  case peakTemps => rw [hsummary]
  case limited => simpa [hsummary] using limited
  case firstPanic => rw [hsummary]
  case isSome_firstPanic =>
    rw [World.summary_eq]
    exact isSome_findSome?_panic
  case whole =>
    intro hi
    rw [hsummary] at hi
    obtain ⟨htasks, replies⟩ := h.reply_eq hi
    rw [hsummary]
    refine ⟨htasks, show ∑ k ∈ Finset.range m, _ = 0 from Finset.sum_eq_zero fun k hk => ?_⟩
    rw [replies k (Finset.mem_range.1 hk), isDropped_outcome]
    rfl

end Over

/-- A clock of 64 bits shows the end of every idle time that options can give. -/
theorem timed_of_ofOptions {processors : Nat} {given : CommandLine.Given} (hf : given.Fits)
    (hp : ofOptions processors given = .ok p) (hs : w.settings = p.pool) (hc : w.clock < 2 ^ 64) :
    ¬ w.Untimed := by
  obtain ⟨millis, hm, hidle⟩ := idleTimeout_of_ofOptions hf hp
  have shown : (1000000 * w.clock + millis * 1000000) / 1000000000 < horizon := by
    unfold horizon
    omega
  rw [Untimed, deadline?, hs, hidle, Duration.ofMillis, if_pos shown]
  exact Option.some_ne_none _

/-- A load run whose clock shows the ends of its idle times has taken too long to shut down, or its
summary counts what the pool has done. -/
theorem Course.accounts_of_timed (timed : s.world.clock < 2 ^ 64 → ¬ s.world.Untimed)
    (h : p.Course s peak) {outcome : Except PoolError LoadSummary} (he : s.Ends outcome) :
    outcome = .error (.shutdownTimeout p.shutdownTimeout) ∨
      ∃ summary, outcome = .ok summary ∧ p.Accounts s.world peak summary := by
  obtain late | ⟨i, m, b, rfl, ended⟩ := h.over_of_ends he
  · exact .inl late
  · exact .inr ⟨_, rfl, ended.accounts h.evolved h.stands.2 (fun _ hl => h.peak_le hl) timed⟩

/-- So does one of a plan that was read, whatever the arguments and the environment are. -/
theorem Course.accounts_of_read {processors : Nat} {arguments : List String}
    {environment : String → Option String} (hp : read processors arguments environment = .ok p)
    (h : p.Course s peak) {outcome : Except PoolError LoadSummary} (he : s.Ends outcome) :
    outcome = .error (.shutdownTimeout p.shutdownTimeout) ∨
      ∃ summary, outcome = .ok summary ∧ p.Accounts s.world peak summary := by
  obtain ⟨given, fits, hgiven⟩ := ofOptions_of_read hp
  exact h.accounts_of_timed (timed_of_ofOptions fits hgiven h.evolved.same.1) he

/-- A load run accounts for every submission. Whatever options it was given, in whatever order its
tasks and its driver have taken their steps, and whether it was interrupted or not, its shutdown has
taken too long, or its summary counts what the pool has done. -/
theorem Course.accounts_of_ends {processors : Nat} {given : CommandLine.Given} (hf : given.Fits)
    (hp : ofOptions processors given = .ok p) (h : p.Course s peak)
    {outcome : Except PoolError LoadSummary} (he : s.Ends outcome) :
    outcome = .error (.shutdownTimeout p.shutdownTimeout) ∨
      ∃ summary, outcome = .ok summary ∧ p.Accounts s.world peak summary :=
  h.accounts_of_timed (timed_of_ofOptions hf hp h.evolved.same.1) he

/-- The driver is told that task `n` was accepted. -/
def tellsAccepted (n : Nat) : Occurrence LoadNote → Bool
  | .note none (.accepted m) => m = n
  | _ => false

/-- The driver is told that its shutdown was in time. -/
def tellsClosed : Occurrence LoadNote → Bool
  | .note none (.shutdown (.ok ())) => true
  | _ => false

section Told

variable {os : List (Occurrence LoadNote)}

theorem accepted_mem_of_any {n : Nat} (h : os.any (tellsAccepted n) = true) :
    .note none (.accepted n) ∈ os := by
  obtain ⟨o, ho, ht⟩ := List.any_eq_true.1 h
  unfold tellsAccepted at ht
  split at ht
  · rwa [of_decide_eq_true ht] at ho
  · cases ht

theorem closed_mem_of_any (h : os.any tellsClosed = true) :
    .note none (.shutdown (.ok ())) ∈ os := by
  obtain ⟨o, ho, ht⟩ := List.any_eq_true.1 h
  unfold tellsClosed at ht
  split at ht
  · exact ho
  · cases ht

end Told

/-- Options for a load of five tasks on a tight pool, of which every second panics and every third
fails. -/
def tightOptions : CommandLine.Given :=
  [(.minWorkers, .number 1), (.maxTempWorkers, .number 1), (.primaryQueueCapacity, .number 1),
    (.tempQueueCapacity, .number 1), (.tasks, .number 5), (.taskMillis, .number 0),
    (.panicEvery, .number 2), (.failEvery, .number 3)]

/-- The plan of these options. -/
def tightLoad : LoadPlan where
  pool := { minWorkers := 1, maxTemps := some 1, primaryCapacity := 1, tempCapacity := 1,
            idleTimeout := .ofMillis 60000 }
  tasks := 5
  taskDuration := .ofMillis 0
  panicEvery := 2
  failEvery := 3
  shutdownTimeout := .ofSeconds 10
  runtimeThreads := 1
  logJson := false

theorem ofOptions_tightOptions : ofOptions 1 tightOptions = .ok tightLoad := rfl

/-- The load run that has just been opened. -/
def tightStart : LoadState where
  world := ({ settings := tightLoad.pool, hook := some fun _ _ => none : World LoadNote }).launch
  race := .start 5

theorem comes_tightStart : tightLoad.Comes tightStart := ⟨_, .opened rfl⟩

/-- The driver has submitted so many tasks, each of which was accepted at once. -/
def tightAfter : Nat → LoadState
  | 0 => tightStart
  | n + 1 => ((tightAfter n).submits tightLoad (n + 1)).accepts (n + 1)

/-- The first four tasks are accepted before any task of the pool has its turn. -/
theorem comes_tightAfter {n : Nat} (hn : n ≤ 4) : tightLoad.Comes (tightAfter n) := by
  induction n with
  | zero => exact comes_tightStart
  | succ n ih =>
    have stage : (tightAfter n).stage = .driving (n + 1) := by cases n <;> rfl
    have told : ∀ m < 4, ((tightAfter m).submits tightLoad (m + 1)).world.occurrences.any
        (tellsAccepted (m + 1)) = true := by decide +kernel
    exact (ih (Nat.le_of_succ_le hn)).accepts stage (hn.trans (by decide))
      (accepted_mem_of_any (told n (Nat.lt_of_succ_le hn)))

/-- The load run while the fifth task waits in line and the permanent worker has run two tasks. -/
def tightWaiting : LoadState :=
  ((tightAfter 4).submits tightLoad 5).turns (List.replicate 7 0)

theorem comes_tightWaiting : tightLoad.Comes tightWaiting :=
  ((comes_tightAfter le_rfl).submits rfl (by decide)).turns _

/-- The load run after it was interrupted while a task waited in line, and was shut down. -/
def tightInterrupted : LoadState :=
  ({ tightWaiting with
      world := (tightWaiting.world.withdraw 7).log .loadInterrupted
      stage := .driven true }.closes tightLoad true).turns
    ([8, 8, 8] ++ [0, 0, 0] ++ List.replicate 5 5 ++ List.replicate 9 1 ++ [8])

theorem comes_tightInterrupted : tightLoad.Comes tightInterrupted :=
  ((comes_tightWaiting.move (.brokenOff _ 5 7 rfl)).move (.close _ true rfl)).turns _

/-- Of the four tasks that were accepted each has come to another end, and the one that was waiting
was not counted. -/
theorem accounts_of_ends_interrupted : tightOptions.Fits ∧
    ofOptions 1 tightOptions = .ok tightLoad ∧ tightLoad.Comes tightInterrupted ∧
      tightInterrupted.Ends (.ok (tightInterrupted.world.summary true)) ∧
        ∃ peak summary, tightLoad.Accounts tightInterrupted.world peak summary ∧
          summary.submitted = 4 ∧ summary.ok = 1 ∧ summary.failed = 1 ∧ summary.panicked = 1 ∧
            summary.dropped = 1 ∧ peak = 1 := by
  have fits : tightOptions.Fits := by
    intro o n hm
    simp only [tightOptions, List.mem_cons, Prod.mk.injEq, CommandLine.OptionValue.number.injEq,
      List.not_mem_nil, or_false] at hm
    rcases hm with ⟨rfl, rfl⟩ | ⟨rfl, rfl⟩ | ⟨rfl, rfl⟩ | ⟨rfl, rfl⟩ | ⟨rfl, rfl⟩ | ⟨rfl, rfl⟩ |
      ⟨rfl, rfl⟩ | ⟨rfl, rfl⟩ <;> exact ⟨_, rfl, by decide, by decide⟩
  have answer : Occurrence.note none (.shutdown (.ok ())) ∈ tightInterrupted.world.occurrences :=
    closed_mem_of_any (by decide +kernel)
  have ends : tightInterrupted.Ends (.ok (tightInterrupted.world.summary true)) :=
    .answered rfl answer
  obtain ⟨peak, course⟩ := comes_tightInterrupted
  refine ⟨fits, ofOptions_tightOptions, ⟨peak, course⟩, ends, ?_⟩
  obtain late | ⟨summary, hsummary, accounts⟩ :=
    course.accounts_of_ends fits ofOptions_tightOptions ends
  · cases late
  · obtain rfl := Except.ok.inj hsummary
    exact ⟨peak, _, accounts, by decide +kernel, by decide +kernel, by decide +kernel,
      by decide +kernel, by decide +kernel, accounts.peakTemps.symm.trans (by decide +kernel)⟩

end LoadPlan

end WorkerPool
