import WorkerPool.Proofs.Onward
import WorkerPool.Proofs.Farewells
import WorkerPool.Proofs.Stops

/-!
# Panics are contained

A panic of a job ends the job: its worker tells the hook and goes on, unless the hook panics as
well. A panic of the handler of a request is an outcome, and one of a callback of an abandoned job
is logged. So an open epoch keeps its permanent workers, but for those that the hook ended, and its
dispatcher, and whoever calls the pool goes on after the call.
-/

namespace WorkerPool

variable {ν : Type}

/-- A panic that escaped a job, by its epoch and its message. -/
def Occurrence.escape? : Occurrence ν → Option (EpochId × String)
  | finished e _ (.error p) => some (e, p.message)
  | _ => none

/-- A panic that the hook was told of, by its epoch and its message. -/
def Occurrence.alarm? : Occurrence ν → Option (EpochId × String)
  | hook e _ (.panicked message) _ => some (e, message)
  | _ => none

/-- A worker tells of a panic that escaped its job. -/
def HookCall.isAlarm : HookCall → Bool
  | panicked _ => true
  | _ => false

/-- The hook panicked as it was told of a panic. -/
def History.isUpset (cs : History) : Bool := cs.any fun c => c.1.isAlarm && c.2.isSome

/-- A permanent worker of epoch `e`. -/
def Task.isPermanent (e : EpochId) : Task ν → Bool
  | worker home (.permanent _) _ => home == e
  | _ => false

/-- What holds of a permanent worker of this epoch in each of its states: it waits for work without
an alarm, and it leaves its loop only once the epoch is closed. -/
def WorkerState.Abides (ep : Epoch ν) : WorkerState ν → Prop
  | idle alarm => alarm = none
  | leaving | gone false => ep.closed = true
  | _ => True

namespace History

/-- A hook that never panicked has not panicked over a panic. -/
theorem isUpset_of_isCalm {cs : History} (h : cs.isCalm = true) : cs.isUpset = false := by
  refine List.any_eq_false.2 fun c hc => ?_
  simp [Option.isNone_iff_eq_none.1 (List.all_eq_true.1 h c hc)]

end History

namespace World

/-- The panics that escaped jobs, in order. -/
abbrev escapes (w : World ν) : List (EpochId × String) := w.picked Occurrence.escape?

/-- The panics that the hook was told of, in order. -/
abbrev alarms (w : World ν) : List (EpochId × String) := w.picked Occurrence.alarm?

/-- The permanent workers of an epoch. -/
def permanents (w : World ν) (e : EpochId) : Finset TaskId :=
  w.those fun _ => Task.isPermanent e

/-- The permanent workers of an epoch that are not over. -/
def serving (w : World ν) (e : EpochId) : Finset TaskId :=
  w.those fun _ task => task.isPermanent e && !task.isOver

/-- The permanent workers of an epoch over one of whose panics the hook panicked. -/
def upset (w : World ν) (e : EpochId) : Finset TaskId :=
  w.those fun t task => task.isPermanent e && (w.told t).isUpset

variable {w u : World ν} {t : TaskId} {e : EpochId} {k : Nat} {settings : Settings}
  {hook : Option Hook}

/-- What passes beside the jobs tells of no panic. -/
theorem Aside.alarms (h : Aside w u) : u.escapes = w.escapes ∧ u.alarms = w.alarms :=
  ⟨h.picked (fun _ => rfl) fun _ _ => rfl, h.picked (fun _ => rfl) fun _ _ => rfl⟩

/-- Code tells of no panic: it is the worker that does. -/
theorem Shift.alarms {a : Option Nat} {th th' : Thread ν} {w' : World ν}
    (h : Shift t a th w th' w') : w'.escapes = w.escapes ∧ w'.alarms = w.alarms := by
  cases h with
  | aside ha => exact ha.alarms
  | _ => simp [hire, handOver, giveUp, Occurrence.escape?, Occurrence.alarm?]

/-- A change in which a panic escapes a job tells the hook of it, if there is one, and no other
change tells the hook of a panic. -/
theorem Change.alarms (c : Change w u) : (u.escapes = w.escapes ∧ u.alarms = w.alarms) ∨
    ∃ e message, u.escapes = w.escapes ++ [(e, message)] ∧
      u.alarms = w.alarms ++ if w.hook.isSome then [(e, message)] else [] := by
  cases c with
  | aside ha => exact .inl ha.alarms
  | code _ _ h => exact .inl h.alarms
  | @finished _ e _ _ k th os _ _ _ hos =>
    obtain ⟨hend, rfl⟩ | ⟨p, hend, rfl⟩ := hos
    · exact .inl (by simp [hend, Occurrence.escape?, Occurrence.alarm?])
    · refine .inr ⟨e, p.message, by simp [hend, Occurrence.escape?], ?_⟩
      cases hk : w.hook <;> simp [hk, Occurrence.alarm?]
  | flushed =>
    exact .inl (by simp [List.filterMap_map, Function.comp_def, Occurrence.escape?,
      Occurrence.alarm?])
  | _ =>
    exact .inl (by simp [World.assign, takeIn, shutIntake, Occurrence.escape?,
      Occurrence.alarm?])

/-- The hook is told of each panic that escapes a job, once and in order, and of nothing else. -/
theorem Evolved.alarms_eq (h : Evolved settings hook w) :
    w.alarms = if hook.isSome then w.escapes else [] := by
  induction h with
  | opened =>
    simp only [picked_launch]
    cases hook <;> rfl
  | next h c ih =>
    obtain ⟨he, ha⟩ | ⟨e, message, he, ha⟩ := c.alarms
    · rw [ha, he, ih]
    · rw [ha, he, ih, h.same.2]
      split <;> simp

/-- A worker that runs a job has begun it. -/
theorem Evolved.started_of_busy (h : Evolved settings hook w) {kind : WorkerKind} {source : Source}
    {th : Thread ν} (ht : w.tasks[t]? = some (.worker e kind (.busy source k th))) :
    .started e k t source ∈ w.occurrences := by
  refine h.worker (P := fun w t e _ state => ∀ source k th, state = .busy source k th →
    .started e k t source ∈ w.occurrences) ?_ ?_ ht source k th rfl
  · intro w u t e kind state _ hired _ _ source k th hs
    cases hired <;> cases hs
  · intro w u t e kind state state' cs _ c _ _ turn ih source k th hs
    subst hs
    cases turn with
    | still => exact c.grows.mem (ih source k th rfl)
    | joins _ hs => exact hs
    | claims _ _ hs => exact hs
    | works => exact c.grows.mem (ih _ _ _ rfl)
    | finishes _ _ _ hs => obtain ⟨hs, _⟩ | ⟨_, hs, _⟩ | ⟨hs, _⟩ := hs <;> cases hs

/-- A job is over when its worker has done all of it. -/
theorem Change.finished_mem (c : Change w u) {ending : Except Panic Unit}
    (hk : .finished e k ending ∈ u.occurrences) : .finished e k ending ∈ w.occurrences ∨
      ∃ (i : TaskId) (kind : WorkerKind) (source : Source) (th : Thread ν),
        w.tasks[i]? = some (.worker e kind (.busy source k th)) ∧ th.isOver = true ∧
          th.body.ending = ending := by
  cases c with
  | aside ha => exact .inl (ha.mem hk rfl)
  | posted => exact .inl hk
  | code _ _ h =>
    left
    cases h with
    | @deed d => cases d <;> simpa [Deed.traces] using hk
    | @callbackDeed _ d => cases d <;> simpa [Deed.traces] using hk
    | aside ha => exact ha.mem hk rfl
    | _ => simpa [hire, handOver, giveUp] using hk
  | @finished i home kind source ticket th os state ht ho hos =>
    have hos' : .finished e k ending ∉ os := by
      obtain ⟨_, rfl⟩ | ⟨p, _, rfl⟩ := hos <;> simp [mem_hookTrace_iff]
    simp only [occurrences_setTask, occurrences_recordAll, List.mem_append, List.mem_cons, hos',
      or_false, Occurrence.finished.injEq] at hk
    obtain hk | ⟨rfl, rfl, rfl⟩ := hk
    · exact .inl hk
    · exact .inr ⟨i, kind, source, th, ht, ho, rfl⟩
  | _ => exact .inl (by simpa [mem_hookTrace_iff, World.assign, takeIn, shutIntake] using hk)

/-- A job ends as its own code says. -/
theorem Evolved.ending_of_finished (h : Evolved settings hook w) {job : Job ν}
    {ending : Except Panic Unit} (hs : .submitted k job ∈ w.occurrences)
    (hf : .finished e k ending ∈ w.occurrences) : ending = job.run.ending := by
  have own : ∃ job, .submitted k job ∈ w.occurrences ∧ ending = job.run.ending := by
    clear hs
    induction h with
    | opened =>
      rw [occurrences_launch] at hf
      simp [occurrences] at hf
    | next h c ih =>
      obtain hold | ⟨i, kind, source, th, ht, _, rfl⟩ := c.finished_mem hf
      · obtain ⟨job, hs, hend⟩ := ih hold
        exact ⟨job, c.grows.mem hs, hend⟩
      · obtain ⟨job, hs, _, hend⟩ := (h.papers.tasks i _ ht).body e kind source k th rfl
        exact ⟨job, c.grows.mem hs, hend⟩
  obtain ⟨job', hs', rfl⟩ := own
  rw [h.ledger.job_unique hs hs']

/-- A job that a worker has done is not abandoned, by any epoch. -/
theorem Ledger.not_abandoned_of_finished (h : w.Ledger) {ending : Except Panic Unit}
    (hf : .finished e k ending ∈ w.occurrences) (i : EpochId) :
    .abandoned i k ∉ w.occurrences := by
  intro ha
  have hfinished := List.count_pos_iff.2 (mem_books hf rfl)
  have hkept := h.kept e k
  have hbegun := h.begun e k
  have accepted : w.AcceptedBy e k := List.count_pos_iff.1 (by omega)
  obtain rfl := h.eq_of_abandoned accepted ha
  exact h.not_abandoned (by omega) ha

/-- A worker tells the hook of a panic as its job is over. -/
theorem Change.alarm_mem (c : Change w u) {message : String} {panic : Option Panic}
    (hm : .hook e t (.panicked message) panic ∈ u.occurrences) :
    .hook e t (.panicked message) panic ∈ w.occurrences ∨
      ∃ (kind : WorkerKind) (source : Source) (k : Nat) (th : Thread ν) (p : Panic),
        w.tasks[t]? = some (.worker e kind (.busy source k th)) ∧ p.message = message ∧
          .finished e k (.error p) ∈ u.occurrences := by
  cases c with
  | aside ha => exact .inl (ha.mem hm rfl)
  | code _ _ h => exact .inl (h.hook_mem hm)
  | welcomed => exact .inl (by simpa [World.assign, mem_hookTrace_iff] using hm)
  | lost => exact .inl (by simpa [mem_hookTrace_iff] using hm)
  | @finished i home kind source k th os state ht ho hos =>
    obtain ⟨_, rfl⟩ | ⟨p, hend, rfl⟩ := hos
    · exact .inl (by simpa using hm)
    · simp only [occurrences_setTask, occurrences_recordAll, List.mem_append, List.mem_cons,
        reduceCtorEq, false_or] at hm
      obtain hm | hm := hm
      · exact .inl hm
      · obtain ⟨_, ho⟩ := w.mem_hookTrace home i hm
        cases ho
        exact .inr ⟨kind, source, k, th, p, ht, rfl, by simp [hend]⟩
  | retired => exact .inl (by simpa [mem_hookTrace_iff] using hm)
  | _ => exact .inl (by simpa [World.assign, takeIn, shutIntake] using hm)

/-- A worker tells the hook of a panic of a job that it has begun. -/
theorem Evolved.escape_of_alarm (h : Evolved settings hook w) {message : String}
    {panic : Option Panic} (hm : .hook e t (.panicked message) panic ∈ w.occurrences) :
    ∃ k p source, .started e k t source ∈ w.occurrences ∧
      .finished e k (.error p) ∈ w.occurrences ∧ p.message = message := by
  induction h with
  | opened =>
    rw [occurrences_launch] at hm
    simp [occurrences] at hm
  | next h c ih =>
    obtain hold | ⟨kind, source, k, th, p, ht, hp, hf⟩ := c.alarm_mem hm
    · obtain ⟨k, p, source, hs, hf, hp⟩ := ih hold
      exact ⟨k, p, source, c.grows.mem hs, c.grows.mem hf, hp⟩
    · exact ⟨k, p, source, c.grows.mem (h.started_of_busy ht), hf, hp⟩

/-- A permanent worker abides in its epoch until the epoch is closed. -/
theorem Evolved.abides (h : Evolved settings hook w) {i : Nat} {state : WorkerState ν}
    (ht : w.tasks[t]? = some (.worker e (.permanent i) state)) : state.Abides (w.epoch e) := by
  refine h.worker (P := fun w _ e kind state => kind ≠ .temporary → state.Abides (w.epoch e))
    ?_ ?_ ht (by simp)
  · intro w u t e kind state _ hired _ _ hk
    cases hired with
    | crew => trivial
    | seed => exact absurd rfl hk
  · intro w u t e kind state state' cs _ c _ _ turn ih hk
    have closed : (w.epoch e).closed = true → (u.epoch e).closed = true :=
      fun hc => c.grows.closed e (lt_of_closed hc) hc
    cases turn with
    | still =>
      cases state with
      | idle => exact ih hk
      | leaving => exact closed (ih hk)
      | gone crashed =>
        cases crashed with
        | false => exact closed (ih hk)
        | true => trivial
      | _ => trivial
    | begins => rfl
    | finishes _ _ _ hs =>
      obtain ⟨rfl, _⟩ | ⟨_, rfl, ht⟩ | ⟨rfl, _⟩ := hs
      · rfl
      · exact absurd ht hk
      · trivial
    | quits hq =>
      obtain ⟨alarm, rfl, hc | ⟨⟨_, hsome, _⟩, _⟩⟩ | ⟨_, ht⟩ := hq
      · exact closed hc
      · have hnone : alarm = none := ih hk
        rw [hnone] at hsome
        cases hsome
      · exact absurd ht hk
    | leaves => exact closed (ih hk)
    | retires ht => exact absurd ht hk
    | _ => trivial

/-- In an open epoch a permanent worker is over exactly if the hook panicked over one of its panics.
-/
theorem Evolved.isOver_iff_isUpset (h : Evolved settings hook w) (ho : (w.epoch e).closed = false)
    {i : Nat} {state : WorkerState ν} (ht : w.tasks[t]? = some (.worker e (.permanent i) state)) :
    (Task.worker e (.permanent i) state).isOver = (w.told t).isUpset := by
  have abides := h.abides ht
  have tells := h.tells ht
  have working : InService hook (.permanent i) (w.told t) → (w.told t).isUpset = false :=
    fun hs => History.isUpset_of_isCalm hs.isCalm_hasLeft.1
  cases state with
  | hired =>
    obtain ⟨_, hnil⟩ := tells
    rw [hnil]
    rfl
  | seeded =>
    obtain ⟨hk, _⟩ := tells
    cases hk
  | idle => exact (working tells).symm
  | busy => exact (working tells).symm
  | leaving => exact absurd (ho.symm.trans abides) (by decide)
  | gone crashed =>
    cases crashed with
    | false => exact absurd (ho.symm.trans abides) (by decide)
    | true =>
      have ended : Ended hook w.Untimed (.permanent i) true (w.told t) := tells
      generalize w.told t = cs at ended
      cases ended with
      | failed hk => cases hk
      | upset hs message p => simp [Task.isOver, History.isUpset, HookCall.isAlarm]
      | slammed hk => cases hk
      | overrun hk => cases hk

/-- An epoch has as many permanent workers as the settings say. -/
theorem Manned.card_permanents (h : w.Manned) (he : e < w.epochs.size) :
    (w.permanents e).card = w.settings.minWorkers := by
  have post : ∀ t ∈ w.permanents e, ∃ i < w.settings.minWorkers, ∃ state,
      w.tasks[t]? = some (.worker e (.permanent i) state) := by
    intro t ht
    obtain ⟨task, htask, hp⟩ := mem_those.1 ht
    rcases task with ⟨home, i | _, state⟩ | _ | _ <;>
      simp only [Task.isPermanent, beq_iff_eq, Bool.false_eq_true] at hp
    subst hp
    exact ⟨i, h.index_lt htask, state, htask⟩
  choose index hlt state hindex using post
  rw [← Finset.card_range w.settings.minWorkers]
  refine Finset.card_bij index (fun t ht => Finset.mem_range.2 (hlt t ht)) ?_ ?_
  · intro t ht s hs heq
    exact h.unique (hindex t ht) (hindex s hs) rfl (by rw [heq]; rfl)
  · intro i hi
    obtain ⟨t, state', ht⟩ := h.exists_permanent he (Finset.mem_range.1 hi)
    have hm : t ∈ w.permanents e := (mem_those_of_task ht).2 (by simp [Task.isPermanent])
    have hsame := (hindex t hm).symm.trans ht
    simp only [Option.some.injEq, Task.worker.injEq, WorkerKind.permanent.injEq, true_and] at hsame
    exact ⟨t, hm, hsame.1⟩

/-- An open epoch has its permanent workers but for those over one of whose panics the hook
panicked. -/
theorem Evolved.card_serving (h : Evolved settings hook w) (he : e < w.epochs.size)
    (ho : (w.epoch e).closed = false) :
    (w.serving e).card + (w.upset e).card = settings.minWorkers := by
  have decided : ∀ t ∈ w.permanents e, (t ∈ w.serving e ↔ t ∉ w.upset e) := by
    intro t ht
    obtain ⟨task, htask, hp⟩ := mem_those.1 ht
    rcases task with ⟨home, i | _, state⟩ | _ | _ <;>
      simp only [Task.isPermanent, beq_iff_eq, Bool.false_eq_true] at hp
    subst hp
    rw [serving, upset, mem_those_of_task htask, mem_those_of_task htask,
      h.isOver_iff_isUpset ho htask]
    simp [Task.isPermanent]
  have permanent : ∀ {p : TaskId → Task ν → Bool} {t : TaskId},
      t ∈ w.those (fun t task => task.isPermanent e && p t task) → t ∈ w.permanents e := by
    intro p t ht
    obtain ⟨task, htask, hp⟩ := mem_those.1 ht
    exact mem_those.2 ⟨task, htask, (Bool.and_eq_true _ _ ▸ hp).1⟩
  have apart : Disjoint (w.serving e) (w.upset e) :=
    Finset.disjoint_left.2 fun t ht => (decided t (permanent ht)).1 ht
  have all : w.serving e ∪ w.upset e = w.permanents e := by
    ext t
    rw [Finset.mem_union]
    refine ⟨fun ht => ht.elim permanent permanent, fun ht => ?_⟩
    by_cases hu : t ∈ w.upset e
    · exact .inr hu
    · exact .inl ((decided t ht).2 hu)
  rw [← Finset.card_union_of_disjoint apart, all, h.manned.card_permanents he, h.same.1]

/-- Panics are contained. -/
structure Contained (settings : Settings) (hook : Option Hook) (w : World ν) : Prop where
  /-- An open epoch has as many permanent workers as the settings say, but for those over one of
  whose panics the hook panicked. -/
  permanents : ∀ e, e < w.epochs.size → (w.epoch e).closed = false →
    (w.serving e).card + (w.upset e).card = settings.minWorkers
  /-- It has its dispatcher if temporary workers are limited. -/
  dispatcher : ∀ e, e < w.epochs.size → (w.epoch e).closed = false → settings.maxTemps.isSome →
    ∃ (t : TaskId) (state : DispatcherState ν), w.tasks[t]? = some (.dispatcher e state) ∧
      (Task.dispatcher e state).isOver = false
  /-- Whoever calls the pool goes on after the call: code is left only at its own end, unless it is
  the call of a client that breaks it off. -/
  callers : ∀ (t : TaskId) (task : Task ν) (th : Thread ν) (v : World ν),
    w.tasks[t]? = some task → task.thread? = some th → Run w v → Fate w v t task th
  /-- The hook is told of each panic that escapes a job, once and in order, and of nothing else. -/
  alarms : w.alarms = if hook.isSome then w.escapes else []
  /-- It is told by the worker that ran the job. -/
  alarmed : ∀ (e : EpochId) (t : TaskId) (message : String) (panic : Option Panic),
    .hook e t (.panicked message) panic ∈ w.occurrences →
      ∃ k p source, .started e k t source ∈ w.occurrences ∧
        .finished e k (.error p) ∈ w.occurrences ∧ p.message = message
  /-- A panic escapes a job exactly if the job panics by its own code. -/
  endings : ∀ (e : EpochId) (k : Nat) (job : Job ν) (ending : Except Panic Unit),
    .submitted k job ∈ w.occurrences → .finished e k ending ∈ w.occurrences →
      ending = job.run.ending
  /-- So one escapes a request if it panics while it is copied, if disposing of the panic of its
  handler panics in turn, or if its callback does; a panic of the handler is an outcome that the
  callback is called with. -/
  requests : ∀ (τ ρ ε : Type) (handler : Handler ν τ ρ ε) (request : τ)
    (respond : Option (Callback ν τ ρ ε)) (disposal : Option Panic) (e : EpochId) (k : Nat)
    (ending : Except Panic Unit),
    .submitted k (requestJob handler request respond disposal) ∈ w.occurrences →
      .finished e k ending ∈ w.occurrences →
        (∃ p, handler.copy request = .error p ∧ ending = .error p) ∨
          ∃ input, handler.copy request = .ok input ∧
            ((∃ p, handler.relapse? input disposal = some p ∧ ending = .error p) ∨
              handler.relapse? input disposal = none ∧
                ending = (WorkerPool.answer handler request respond
                  (outcomeOf (handler.handle input).ending)).ending)
  /-- None escapes a job that is abandoned. -/
  abandoned : ∀ (e i : EpochId) (k : Nat) (ending : Except Panic Unit),
    .abandoned e k ∈ w.occurrences → .finished i k ending ∉ w.occurrences

/-- Panics are contained, whatever jobs, requests, callbacks and the hook do: the epoch that is open
keeps its permanent workers but for those that the hook ended, and its dispatcher; whoever calls the
pool goes on after the call; the hook is told of the panics that escape jobs, of each one once, and
not of those that the handler of a request or an abandoned job raised. This is so for panics that
can be disposed of; one whose disposal panics in turn is left out but for the handler's, which then
escapes its request. -/
theorem contained_of_reachable (h : Reachable settings hook w) : w.Contained settings hook := by
  have evolved := h.evolved
  refine ⟨fun e he ho => evolved.card_serving he ho, fun e he ho hm => ?_,
    fun t task th v ht hth r => evolved.fate r ht hth, evolved.alarms_eq,
    fun e t message panic hm => evolved.escape_of_alarm hm,
    fun e k job ending hs hf => evolved.ending_of_finished hs hf,
    fun τ ρ ε handler request respond disposal e k ending hs hf => ?_,
    fun e i k ending ha hf => evolved.ledger.not_abandoned_of_finished hf e ha⟩
  · obtain ⟨t, state, ht⟩ := evolved.manned.exists_dispatcher he (evolved.same.1 ▸ hm)
    refine ⟨t, state, ht, ?_⟩
    cases state with
    | gone => exact absurd (ho.symm.trans (evolved.dispatched.fits t e _ ht).2.1) (by decide)
    | _ => rfl
  · have hend := evolved.ending_of_finished hs hf
    rw [run_requestJob] at hend
    cases hc : handler.copy request with
    | error p =>
      rw [hc] at hend
      exact .inl ⟨p, rfl, hend⟩
    | ok input =>
      rw [hc] at hend
      refine .inr ⟨input, rfl, ?_⟩
      cases hr : handler.relapse? input disposal with
      | some p => exact .inl ⟨p, rfl, by simpa [hr] using hend⟩
      | none => exact .inr ⟨rfl, by simpa [hr] using hend⟩

/-- A handler whose code panics. -/
def failing : Handler Nat Nat Unit Unit where
  copy := .ok
  handle _ := .panic (.text "handler")
  describe _ := .word "error"

/-- Settings with two workers and no more. -/
def pair : Settings := { narrow with minWorkers := 2, maxTemps := some 0 }

/-- A pool of two workers, whose hook panics the first time that it is called, after two jobs that
panicked, the first one on worker 0, and a request whose handler did. -/
def unlucky : World Nat :=
  [3, 0, 0, 0, 3, 1, 1, 1, 3, 1, 1, 1].foldl step
    (({ settings := pair, hook := some startled :
      World Nat }.launch).spawn (.client { body := ⟨[
        .submit ⟨[], .error (.text "job")⟩ ⟨[], .ok ()⟩ 0 1 2,
        .submit ⟨[], .error .unprintable⟩ ⟨[], .ok ()⟩ 0 1 2,
        .ofJob (requestJob failing 7 (some fun request _ => .act (.note request))) 0 1 2],
        .ok ()⟩ }))

/-- The hook was told of the panics of the two jobs and ended the worker of the first one; the other
worker goes on. -/
theorem contained_of_reachable_unlucky :
    Reachable pair (some startled) unlucky ∧
      unlucky.serving 0 = {1} ∧ unlucky.upset 0 = {0} ∧
      unlucky.alarms = [(0, "job"), (0, "non-string panic payload")] ∧
      unlucky.books.count (.finished 0 2) = 1 ∧
      unlucky.Contained pair (some startled) := by
  have reachable : Reachable pair (some startled) unlucky :=
    (Reachable.launch _ ⟨by decide, by decide, by decide, by decide⟩).call _
      [3, 0, 0, 0, 3, 1, 1, 1, 3, 1, 1, 1]
  exact ⟨reachable, by decide, by decide, by decide, by decide, contained_of_reachable reachable⟩

end World

end WorkerPool
