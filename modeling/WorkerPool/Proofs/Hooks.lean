import WorkerPool.Proofs.Moves

/-!
# Who calls the hook

The hook is called by workers alone: by one that was hired for a job as it begins, by one whose job
has panicked, and by a temporary one that has left its loop. No other code calls it, so the state of
a worker before a move says all about the call that the move makes.
-/

namespace WorkerPool.World

variable {ν : Type} {w u : World ν} {t i : TaskId} {e : EpochId} {call : HookCall}
  {panic : Option Panic}

/-- Code calls no hook. -/
theorem Shift.hook_mem {a : Option Nat} {th th' : Thread ν} {w' : World ν}
    (h : Shift t a th w th' w') (hm : .hook e i call panic ∈ w'.occurrences) :
    .hook e i call panic ∈ w.occurrences := by
  cases h with
  | aside ha => exact ha.mem hm rfl
  | @deed d => cases d <;> simpa [Deed.traces] using hm
  | @callbackDeed _ d => cases d <;> simpa [Deed.traces] using hm
  | _ => simpa [hire, handOver, giveUp] using hm

theorem Shifts.hook_mem {a : Option Nat} {th th' : Thread ν} {w' : World ν}
    (h : Shifts t a th w th' w') (hm : .hook e i call panic ∈ w'.occurrences) :
    .hook e i call panic ∈ w.occurrences := by
  induction h with
  | refl => exact hm
  | head s _ ih => exact s.hook_mem (ih hm)

/-- A call of the hook writes down that call and nothing else. -/
theorem hook_mem_callHook {home : EpochId} {other : HookCall}
    (hm : .hook e i call panic ∈ (w.callHook home t other).2.occurrences) :
    .hook e i call panic ∈ w.occurrences ∨ e = home ∧ i = t ∧ call = other := by
  obtain ⟨n, hn⟩ := w.callHook_eq home t other
  have hos : (w.callHook home t other).2.occurrences =
      w.occurrences ++ w.hookTrace home t other := by
    rw [hn, ← occurrences_recordAll]
    rfl
  rw [hos, List.mem_append] at hm
  refine hm.imp_right fun hm => ?_
  obtain ⟨p, hp⟩ := w.mem_hookTrace home t hm
  cases hp
  exact ⟨rfl, rfl, rfl⟩

/-- A call of the hook leaves all epochs alone. -/
@[simp] theorem epoch_callHook (home i : EpochId) (other : HookCall) :
    (w.callHook home t other).2.epoch i = w.epoch i := by
  obtain ⟨n, hn⟩ := w.callHook_eq home t other
  rw [hn]
  exact epoch_recordAll w _ i

/-- A worker that rests calls no hook. -/
theorem hook_mem_rest {home : EpochId} {kind : WorkerKind} {source : Source}
    (hm : .hook e i call panic ∈ (w.rest t home kind source).occurrences) :
    .hook e i call panic ∈ w.occurrences := by
  obtain ⟨state, _, h | h⟩ := w.rest_cases t home kind source <;> simpa [h] using hm

/-- A worker whose job is over tells the hook at most that it panicked. -/
theorem hook_mem_finish {home : EpochId} {kind : WorkerKind} {source : Source} {k : Nat}
    {ending : Except Panic Unit}
    (hm : .hook e i call panic ∈ (w.finish t home kind source k ending).occurrences) :
    .hook e i call panic ∈ w.occurrences ∨
      e = home ∧ i = t ∧ ∃ message, call = .panicked message := by
  cases ending with
  | ok => exact .inl (by simpa using hook_mem_rest hm)
  | error p =>
    have told := @hook_mem_callHook _ (((w.record (.finished home k (.error p))).log
      (.jobPanicked p.message))) t i e call panic home (.panicked p.message)
    simp only [finish] at hm
    rcases hh : ((w.record (.finished home k (.error p))).log (.jobPanicked p.message)).callHook
      home t (.panicked p.message) with ⟨crashed, v⟩
    rw [hh] at hm told
    have hv : .hook e i call panic ∈ v.occurrences := by
      cases crashed with
      | true => simpa [dismiss, leave] using hm
      | false => exact hook_mem_rest hm
    obtain hold | ⟨rfl, rfl, rfl⟩ := told hv
    · exact .inl (by simpa [World.log] using hold)
    · exact .inr ⟨rfl, rfl, _, rfl⟩

/-- A dispatcher that has offered its backlog writes down where the jobs went. -/
theorem stepFlushing_eq (w : World ν) (t : TaskId) (home : EpochId) :
    w.stepFlushing t home =
      let flush := (w.epoch home).flush w.settings
      let v := (w.modifyEpoch home fun _ => flush.epoch).recordAll
        (flush.moved.map fun o => .republished home o.2.ticket o.1)
      if flush.isOpen then v.setTask t (.dispatcher home .parked) else v.shutIntake t home := by
  simp only [recordAll, List.foldl_map]
  rfl

theorem hook_mem_stepCollecting {home : EpochId}
    (hm : .hook e i call panic ∈ (w.stepCollecting t home).occurrences) :
    .hook e i call panic ∈ w.occurrences := by
  simp only [stepCollecting] at hm
  split at hm
  · simpa [takeIn] using hm
  · split_ifs at hm <;> simpa [World.log] using hm

/-- A dispatcher calls no hook. -/
theorem hook_mem_stepDispatcher {home : EpochId} {state : DispatcherState ν} (hw : w.Sound)
    (hm : .hook e i call panic ∈ (w.stepDispatcher t home state).occurrences) :
    .hook e i call panic ∈ w.occurrences := by
  rcases state with _ | _ | _ | _ | _ | (_ | ⟨layer, layers⟩) | _
  · simpa [stepDispatcher, World.log] using hm
  · simp only [stepDispatcher, stepFlushing_eq] at hm
    split at hm <;> simpa [shutIntake] using hm
  · simp only [stepDispatcher, stepParked] at hm
    split_ifs at hm
    · simpa [shutIntake] using hm
    · simpa using hm
    · split at hm <;> simpa [takeIn] using hm
  · exact hook_mem_stepCollecting hm
  · exact hook_mem_stepCollecting hm
  · simp only [stepDispatcher] at hm
    split at hm <;> simpa [World.log, leave] using hm
  · exact (shifts_stepLayers (t := t) (a := none) ⟨layer :: layers, ⟨[], .ok ()⟩, .nothing⟩
      hw).hook_mem hm
  · exact hm

/-- What worker `i` of epoch `e` is about to do as it makes this call of the hook. -/
inductive Calls (w : World ν) (e : EpochId) (i : TaskId) : HookCall → Prop
  | join {kind : WorkerKind} {live : Nat} {x : Entry ν}
      (h : w.tasks[i]? = some (.worker e kind (.seeded live x))) : Calls w e i (.join live)
  | panicked {kind : WorkerKind} {source : Source} {k : Nat} {th : Thread ν} {message : String}
      (h : w.tasks[i]? = some (.worker e kind (.busy source k th))) :
      Calls w e i (.panicked message)
  | leave (h : w.tasks[i]? = some (.worker e .temporary .leaving)) :
      Calls w e i (.leave ((w.epoch e).temps - 1))

/-- A worker calls the hook as its state demands. -/
theorem hook_mem_stepWorker {home : EpochId} {kind : WorkerKind} {state : WorkerState ν}
    (hw : w.Sound) (ht : w.tasks[t]? = some (.worker home kind state)) (hr : w.ready t = true)
    (hm : .hook e i call panic ∈ (w.stepWorker t home kind state).occurrences) :
    .hook e i call panic ∈ w.occurrences ∨ i = t ∧ w.Calls e i call := by
  cases state with
  | hired => cases kind <;> exact .inl (by simpa [stepWorker, World.log] using hm)
  | seeded live x =>
    have told := @hook_mem_callHook _ w t i e call panic home (.join live)
    simp only [stepWorker] at hm
    rcases hh : w.callHook home t (.join live) with ⟨crashed, v⟩
    rw [hh] at hm told
    have hv : .hook e i call panic ∈ v.occurrences := by
      cases crashed with
      | true => simpa [dismiss, leave] using hm
      | false => simpa [assign, World.log] using hm
    obtain hold | ⟨rfl, rfl, rfl⟩ := told hv
    · exact .inl hold
    · exact .inr ⟨rfl, .join ht⟩
  | idle alarm =>
    refine .inl ?_
    simp only [stepWorker, stepIdle] at hm
    split_ifs at hm
    · simpa using hm
    · split at hm
      · simpa [assign] using hm
      · simpa [World.log] using hm
    · split at hm
      · simpa [assign] using hm
      · exact hm
  | busy source k th =>
    simp only [stepWorker] at hm
    split at hm
    · obtain hold | ⟨rfl, rfl, message, rfl⟩ := hook_mem_finish hm
      · exact .inl hold
      · exact .inr ⟨rfl, .panicked ht⟩
    · have hth : th.Sound w := (hw.tasks t _ ht).thread th rfl
      have hready : w.threadReady t th = true := by simpa [ready, ht] using hr
      exact .inl ((shifts_stepThread (a := some k) hw hth hready).hook_mem hm)
  | leaving =>
    cases kind with
    | permanent index =>
      exact .inl (by simpa [stepWorker, stepLeaving, dismiss, leave, World.log] using hm)
    | temporary =>
      have he : home < w.epochs.size := hw.home_lt ht rfl
      have told := @hook_mem_callHook _ ((w.modifyEpoch home fun ep =>
        { ep with temps := ep.temps - 1 }).log (.tempLeft ((w.epoch home).temps - 1))) t i e call
          panic home (.leave ((w.epoch home).temps - 1))
      simp only [stepWorker, stepLeaving, epoch_modifyEpoch_self _ _ _ he] at hm
      have hv := fun h => (told h).imp_left fun h => by simpa [World.log] using h
      rcases hv (by simpa [dismiss, leave] using hm) with hold | ⟨rfl, rfl, rfl⟩
      · exact .inl hold
      · exact .inr ⟨rfl, .leave ht⟩
  | gone crashed => exact .inl hm

/-- In a step of a task the hook is called by none but this task, as its state demands. -/
theorem hook_mem_step (hw : w.Sound)
    (hm : .hook e i call panic ∈ (w.step t).occurrences) :
    .hook e i call panic ∈ w.occurrences ∨ i = t ∧ w.Calls e i call := by
  unfold step at hm
  split at hm
  · rename_i hr
    cases ht : w.tasks[t]? with
    | none => exact .inl (by simpa [ht] using hm)
    | some task =>
      rw [ht] at hm
      cases task with
      | worker home kind state => exact hook_mem_stepWorker hw ht hr hm
      | dispatcher home state => exact .inl (hook_mem_stepDispatcher hw hm)
      | client th =>
        have hth : th.Sound w := (hw.tasks t _ ht).thread th rfl
        have hready : w.threadReady t th = true := by
          simp only [ready, ht, Bool.and_eq_true] at hr
          exact hr.2
        exact .inl ((shifts_stepThread (a := none) hw hth hready).hook_mem hm)
  · exact .inl hm

/-- A client that breaks off its call calls no hook. -/
theorem hook_mem_withdraw (hw : w.Sound)
    (hm : .hook e i call panic ∈ (w.withdraw t).occurrences) :
    .hook e i call panic ∈ w.occurrences := by
  unfold withdraw at hm
  split at hm
  · rename_i body wait ht
    have gone : ∀ {v : World ν}, v.Sound → .hook e i call panic ∈ v.letGo.2.occurrences →
        .hook e i call panic ∈ v.occurrences := fun hv h =>
      (shifts_letGo (t := t) (a := none) ⟨[], ⟨[], .ok ()⟩, .nothing⟩ hv).hook_mem h
    cases wait with
    | nothing => exact hm
    | alarm => exact hm
    | inLine j k =>
      have hv : (w.giveUp t j k).Sound := (hw.modifyEpoch j rfl).record _
      simpa [giveUp] using gone hv hm
    | closing => exact gone hw hm
    | exits => exact gone hw hm
  · exact hm

/-- A move calls the hook only from a worker whose state demands it. -/
theorem Move.hook_mem (m : Move w u) (hw : w.Sound)
    (hm : .hook e i call panic ∈ u.occurrences) :
    .hook e i call panic ∈ w.occurrences ∨ u = w.step i ∧ w.Calls e i call := by
  cases m with
  | step t =>
    obtain hold | ⟨rfl, hc⟩ := hook_mem_step hw hm
    · exact .inl hold
    · exact .inr ⟨rfl, hc⟩
  | withdraw => exact .inl (hook_mem_withdraw hw hm)
  | _ => exact .inl hm

/-- An elementary change calls the hook only from a worker whose state demands it. -/
theorem Change.hook_mem (c : Change w u) (hm : .hook e i call panic ∈ u.occurrences) :
    .hook e i call panic ∈ w.occurrences ∨ w.Calls e i call := by
  have told : ∀ {home : EpochId} {t : TaskId} {other : HookCall}, w.Calls home t other →
      .hook e i call panic ∈ w.hookTrace home t other → w.Calls e i call := by
    intro home t other hc hm
    obtain ⟨_, hp⟩ := w.mem_hookTrace home t hm
    cases hp
    exact hc
  cases c with
  | aside ha => exact .inl (ha.mem hm rfl)
  | code _ _ h => exact .inl (h.hook_mem (by simpa using hm))
  | welcomed ht => exact Or.imp id (told (.join ht)) (by simpa [assign] using hm)
  | lost ht => exact Or.imp id (told (.join ht)) (by simpa using hm)
  | finished ht _ hos =>
    obtain ⟨-, rfl⟩ | ⟨p, -, rfl⟩ := hos
    · exact .inl (by simpa using hm)
    · exact Or.imp id (told (.panicked ht)) (by simpa using hm)
  | retired ht => exact Or.imp id (told (.leave ht)) (by simpa using hm)
  | _ => exact .inl (by simpa [takeIn, shutIntake, assign] using hm)

end WorkerPool.World
