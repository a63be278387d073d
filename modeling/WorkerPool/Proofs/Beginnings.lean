import WorkerPool.Proofs.Closing

/-!
# Who begins a job

A job begins with a worker: with one that was hired for it, or with an idle one that claims it from
a queue of its open epoch. No other code begins a job, so the state of a worker before a move says
which job begins in it.
-/

namespace WorkerPool

variable {ν : Type}

/-- The beginning of a job. -/
structure Beginning where
  epoch : EpochId
  ticket : Nat
  worker : TaskId
  source : Source
  deriving DecidableEq, Repr

/-- The beginning that an occurrence is. -/
def Occurrence.beginning? : Occurrence ν → Option Beginning
  | started e k t source => some ⟨e, k, t, source⟩
  | _ => none

namespace World

variable {w u : World ν} {t : TaskId} {e : EpochId} {kind : WorkerKind} {a : Option Nat}

section Journal

variable (w)

/-- The jobs that have begun, in order. -/
abbrev beginnings : List Beginning := w.picked Occurrence.beginning?

variable {w} in
/-- A job that has begun is among those that have. -/
theorem mem_beginnings {b : Beginning} : b ∈ w.beginnings ↔
    .started b.epoch b.ticket b.worker b.source ∈ w.occurrences := by
  rw [beginnings, mem_picked]
  constructor
  · rintro ⟨o, ho, hb⟩
    cases o <;> simp only [Occurrence.beginning?, reduceCtorEq, Option.some.injEq] at hb
    subst hb
    exact ho
  · intro h
    exact ⟨_, h, rfl⟩

end Journal

/-- What leaves no trace of its own begins no job. -/
theorem Aside.beginnings (h : Aside w u) : u.beginnings = w.beginnings :=
  h.picked (fun _ => rfl) fun _ _ => rfl

/-- Code begins no job. -/
theorem Shift.beginnings {th th' : Thread ν} {w' : World ν} (h : Shift t a th w th' w') :
    w'.beginnings = w.beginnings := by
  cases h with
  | aside ha => exact ha.beginnings
  | @deed d => cases d <;> simp [Deed.traces, Occurrence.beginning?]
  | @callbackDeed _ d => cases d <;> simp [Deed.traces, Occurrence.beginning?]
  | _ => simp [hire, handOver, giveUp, Occurrence.beginning?]

theorem Shifts.beginnings {th th' : Thread ν} {w' : World ν} (h : Shifts t a th w th' w') :
    w'.beginnings = w.beginnings := by
  induction h with
  | refl => rfl
  | head s _ ih => exact ih.trans s.beginnings

/-- A worker that rests begins no job. -/
@[simp] theorem beginnings_rest (w : World ν) (t : TaskId) (e : EpochId) (kind : WorkerKind)
    (source : Source) : (w.rest t e kind source).beginnings = w.beginnings := by
  obtain ⟨state, _, h | h⟩ := w.rest_cases t e kind source <;> simp [h, Occurrence.beginning?]

/-- Neither does one whose job is over. -/
@[simp] theorem beginnings_finish (w : World ν) (t : TaskId) (e : EpochId) (kind : WorkerKind)
    (source : Source) (k : Nat) (ending : Except Panic Unit) :
    (w.finish t e kind source k ending).beginnings = w.beginnings := by
  have recorded : (w.record (.finished e k ending)).beginnings = w.beginnings := by
    simp [Occurrence.beginning?]
  cases ending with
  | ok => simp only [finish, beginnings_rest, recorded]
  | error p =>
    have told : (((w.record (.finished e k (.error p))).log (.jobPanicked p.message)).callHook e t
        (.panicked p.message)).2.beginnings = w.beginnings := by
      simp [Occurrence.beginning?]
    simp only [finish]
    split <;> rename_i hu <;> rw [hu] at told
    · simpa [dismiss, leave, Occurrence.beginning?] using told
    · rw [beginnings_rest, told]

theorem beginnings_stepCollecting : (w.stepCollecting t e).beginnings = w.beginnings := by
  simp only [stepCollecting]
  split
  · simp [takeIn, Occurrence.beginning?]
  · split_ifs <;> simp [Occurrence.beginning?]

/-- A dispatcher begins no job. -/
theorem beginnings_stepDispatcher {state : DispatcherState ν} (hw : w.Sound) :
    (w.stepDispatcher t e state).beginnings = w.beginnings := by
  rcases state with _ | _ | _ | _ | _ | (_ | ⟨layer, layers⟩) | _
  · simp [stepDispatcher, Occurrence.beginning?]
  · simp only [stepDispatcher, stepFlushing_eq]
    split <;> simp [shutIntake, List.filterMap_map, Function.comp_def, Occurrence.beginning?]
  · simp only [stepDispatcher, stepParked]
    split_ifs
    · simp [shutIntake]
    · simp
    · split <;> simp [takeIn, Occurrence.beginning?]
  · exact beginnings_stepCollecting
  · exact beginnings_stepCollecting
  · simp only [stepDispatcher]
    split <;> simp [leave, Occurrence.beginning?]
  · exact (shifts_stepLayers (t := t) (a := none) ⟨layer :: layers, ⟨[], .ok ()⟩, .nothing⟩
      hw).beginnings
  · rfl

/-- Worker `t` is about to begin a job. -/
inductive Begins (w : World ν) (t : TaskId) : Beginning → Prop
  /-- It was hired for it, and the hook lets it join. -/
  | seed {e : EpochId} {kind : WorkerKind} {live : Nat} {x : Entry ν}
      (ht : w.tasks[t]? = some (.worker e kind (.seeded live x)))
      (hh : (w.callHook e t (.join live)).1 = false) : Begins w t ⟨e, x.ticket, t, .seed⟩
  /-- It is idle and finds it in a queue of its open epoch. -/
  | claim {e : EpochId} {kind : WorkerKind} {alarm : Option Nat} {tier : Tier} {x : Entry ν}
      {ep : Epoch ν} (ht : w.tasks[t]? = some (.worker e kind (.idle alarm)))
      (ho : (w.epoch e).closed = false)
      (hc : (w.epoch e).claim? (kind != .temporary) = some (tier, x, ep)) :
      Begins w t ⟨e, x.ticket, t, .tier tier⟩

/-- A worker begins at most one job in a step, as its state demands. -/
theorem beginnings_stepWorker {state : WorkerState ν} (hw : w.Sound)
    (ht : w.tasks[t]? = some (.worker e kind state)) (hr : w.ready t = true) :
    (w.stepWorker t e kind state).beginnings = w.beginnings ∨
      ∃ b, w.Begins t b ∧ (w.stepWorker t e kind state).beginnings = w.beginnings ++ [b] := by
  cases state with
  | hired =>
    left
    cases kind <;> simp [stepWorker, Occurrence.beginning?]
  | seeded live x =>
    have told : (w.callHook e t (.join live)).2.beginnings = w.beginnings := by
      simp [Occurrence.beginning?]
    simp only [stepWorker]
    rcases hh : w.callHook e t (.join live) with ⟨crashed, v⟩
    rw [hh] at told
    cases crashed with
    | true =>
      left
      simpa [dismiss, leave, Occurrence.beginning?] using told
    | false =>
      right
      refine ⟨_, .seed ht (by rw [hh]), ?_⟩
      simpa [World.assign, Occurrence.beginning?] using told
  | idle alarm =>
    simp only [stepWorker, stepIdle]
    split
    · left
      rfl
    · rename_i ho
      split
      · rename_i tier x ep hc
        right
        refine ⟨_, .claim ht (Bool.eq_false_iff.2 ho) hc, ?_⟩
        simp [World.assign, Occurrence.beginning?]
      · left
        split <;> simp [Occurrence.beginning?]
  | busy source k th =>
    left
    simp only [stepWorker]
    split
    · exact beginnings_finish w t e kind source k _
    · have hth : th.Sound w := (hw.tasks t _ ht).thread th rfl
      have hready : w.threadReady t th = true := by simpa [ready, ht] using hr
      exact (shifts_stepThread (a := some k) hw hth hready).beginnings
  | leaving =>
    left
    cases kind <;> simp [stepWorker, stepLeaving, dismiss, leave, Occurrence.beginning?]
  | gone crashed =>
    left
    rfl

/-- In a step of a task at most one job begins, with that task, as its state demands. -/
theorem beginnings_step (hw : w.Sound) (t : TaskId) : (w.step t).beginnings = w.beginnings ∨
    ∃ b, w.Begins t b ∧ (w.step t).beginnings = w.beginnings ++ [b] := by
  unfold step
  split
  · rename_i hr
    cases ht : w.tasks[t]? with
    | none =>
      left
      rfl
    | some task =>
      cases task with
      | worker home kind state => exact beginnings_stepWorker hw ht hr
      | dispatcher home state =>
        left
        exact beginnings_stepDispatcher hw
      | client th =>
        left
        have hth : th.Sound w := (hw.tasks t _ ht).thread th rfl
        have hready : w.threadReady t th = true := by
          simp only [ready, ht, Bool.and_eq_true] at hr
          exact hr.2
        exact (shifts_stepThread (a := none) hw hth hready).beginnings
  · left
    rfl

/-- No job begins as a client breaks off its call. -/
theorem beginnings_withdraw (hw : w.Sound) (t : TaskId) :
    (w.withdraw t).beginnings = w.beginnings := by
  have gone : ∀ {v : World ν}, v.Sound → v.letGo.2.beginnings = v.beginnings := fun hv =>
    (shifts_letGo (t := t) (a := none) ⟨[], ⟨[], .ok ()⟩, .nothing⟩ hv).beginnings
  unfold withdraw
  split
  · rename_i body wait ht
    cases wait with
    | nothing | alarm => rfl
    | inLine j k =>
      have hv : (w.giveUp t j k).Sound := (hw.modifyEpoch j rfl).record _
      rw [beginnings, picked_setTask, ← beginnings, gone hv]
      simp [giveUp, Occurrence.beginning?]
    | closing | exits => exact gone hw
  · rfl

/-- In a move at most one job begins, and only as a worker whose state demands it takes a step. -/
theorem Move.beginnings (m : Move w u) (hw : w.Sound) : u.beginnings = w.beginnings ∨
    ∃ t b, u = w.step t ∧ w.Begins t b ∧ u.beginnings = w.beginnings ++ [b] := by
  cases m with
  | step t =>
    refine (beginnings_step hw t).imp_right ?_
    rintro ⟨b, hb, heq⟩
    exact ⟨t, b, rfl, hb, heq⟩
  | withdraw t =>
    left
    exact beginnings_withdraw hw t
  | _ =>
    left
    rfl

/-- In an elementary change at most one job begins, with a worker whose state demands it. -/
theorem Change.beginnings (c : Change w u) : u.beginnings = w.beginnings ∨
    ∃ t b, w.Begins t b ∧ u.beginnings = w.beginnings ++ [b] := by
  cases c with
  | aside ha =>
    left
    exact ha.beginnings
  | code _ _ h =>
    left
    exact h.beginnings
  | welcomed ht hh =>
    right
    refine ⟨_, _, .seed ht hh, ?_⟩
    simp [World.assign, Occurrence.beginning?]
  | claimed ht ho hc =>
    right
    refine ⟨_, _, .claim ht ho hc, ?_⟩
    simp [World.assign, Occurrence.beginning?]
  | finished _ _ hos =>
    left
    obtain ⟨-, rfl⟩ | ⟨p, -, rfl⟩ := hos <;> simp [Occurrence.beginning?]
  | flushed =>
    left
    simp [List.filterMap_map, Function.comp_def, Occurrence.beginning?]
  | _ =>
    left
    simp [takeIn, shutIntake, Occurrence.beginning?]

end World

end WorkerPool
