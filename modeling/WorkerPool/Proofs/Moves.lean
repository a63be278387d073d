import WorkerPool.Proofs.Threads

/-!
# Moves are made of elementary changes

Every step of a task, every call that is made or broken off, and every passing of time is a sequence
of elementary changes. So every state that a pool may come to is one that elementary changes lead
to, and a law that each of them keeps is a law of all runs.
-/

namespace WorkerPool.World

variable {ν : Type}

section Steps

variable {w : World ν} {t : TaskId} {e : EpochId}

/-- A step of the code of a task is made of changes. -/
theorem changes_thread {task : Task ν} {th th' : Thread ν} {w' : World ν}
    (ht : w.tasks[t]? = some task) (hth : task.thread? = some th)
    (h : Shifts t task.author? th w th' w') : Changes w (w'.setTask t (task.withThread th')) := by
  have hs : t < w.tasks.size := (Array.getElem?_eq_some_iff.1 ht).1
  have hc := h.changes hs hth rfl
  rwa [setTask_self _ _ _ ht] at hc

/-- What a worker may come to after a job, by the rules of its kind. -/
def Rests (w : World ν) (kind : WorkerKind) (source : Source) (state : WorkerState ν) : Prop :=
  state = .idle none ∧ kind ≠ .temporary ∨
    (∃ deadline, state = .idle (some deadline) ∧ kind = .temporary) ∨
    state = .gone true ∧ kind = .temporary ∧ source ≠ .seed ∧
      w.deadline? w.settings.idleTimeout = none

/-- A worker rests by a change of its state; if it cannot, it is over. -/
theorem rest_cases (w : World ν) (t : TaskId) (e : EpochId) (kind : WorkerKind)
    (source : Source) : ∃ state, w.Rests kind source state ∧
      (w.rest t e kind source = w.setTask t (.worker e kind state) ∨
        w.rest t e kind source = (w.setTask t (.worker e kind state)).record (.exited t true)) := by
  cases kind with
  | permanent i =>
    refine ⟨.idle none, .inl ⟨rfl, by simp⟩, .inl ?_⟩
    rw [rest]
  | temporary =>
    cases source with
    | seed =>
      refine ⟨.idle (some (w.deadline w.settings.idleTimeout)), .inr (.inl ⟨_, rfl, rfl⟩), .inl ?_⟩
      rw [rest]
    | tier tier =>
      cases hd : w.deadline? w.settings.idleTimeout with
      | some alarm =>
        refine ⟨.idle (some alarm), .inr (.inl ⟨_, rfl, rfl⟩), .inl ?_⟩
        rw [rest, hd]
      | none =>
        refine ⟨.gone true, .inr (.inr ⟨rfl, rfl, by simp, hd⟩), .inr ?_⟩
        rw [rest, hd]
        rfl

/-- A worker whose job is over rests or is over itself. -/
theorem changes_finish {kind : WorkerKind} {source : Source} {k : Nat} {th : Thread ν}
    (ht : w.tasks[t]? = some (.worker e kind (.busy source k th))) (ho : th.isOver = true) :
    Changes w (w.finish t e kind source k th.body.ending) := by
  cases hend : th.body.ending with
  | ok =>
    obtain ⟨state, hs, later⟩ := rest_cases (w.record (.finished e k (.ok ()))) t e kind source
    have first := Change.finished ht ho (.inl ⟨hend, rfl⟩)
      (hs.imp id (.imp id fun h => ⟨h.1, .inr h.2⟩)) (by simp [hend])
    rw [hend] at first
    simp only [finish]
    obtain later | later := later <;> rw [later]
    · exact .single first
    · exact .head first (.single (.aside (.exited _ t true)))
  | error p =>
    obtain ⟨n, hn⟩ := ((w.record (.finished e k (.error p))).log
      (.jobPanicked p.message)).callHook_eq e t (.panicked p.message)
    obtain ⟨hcall, htrace⟩ := callHook_congr (w := w)
      (u := (w.record (.finished e k (.error p))).log (.jobPanicked p.message)) e t rfl rfl
      (.panicked p.message)
    simp only [finish]
    rcases hh : ((w.record (.finished e k (.error p))).log (.jobPanicked p.message)).callHook e t
      (.panicked p.message) with ⟨crashed, u⟩
    rw [hh] at hcall hn
    rw [htrace, World.log, ← recordAll_cons, ← recordAll_cons] at hn
    simp only at hcall hn
    subst hn
    cases crashed with
    | true =>
      have first := Change.finished ht ho (.inr ⟨p, hend, rfl⟩)
        (.inr (.inr ⟨rfl, .inl ⟨p, hend, hcall.symm⟩⟩)) fun _ _ _ => rfl
      rw [hend] at first
      exact .head first (.head (.aside (.hookCalls_setTask _ n t _))
        (.single (.aside (.exited _ t true))))
    | false =>
      obtain ⟨state, hs, later⟩ := rest_cases ({ w.recordAll (.finished e k (.error p) ::
        .log none (.jobPanicked p.message) :: w.hookTrace e t (.panicked p.message)) with
          hookCalls := n }) t e kind source
      have hs : w.Rests kind source state := by
        refine hs.imp id (.imp id fun h => ⟨h.1, h.2.1, h.2.2.1, ?_⟩)
        rw [← h.2.2.2, settings_recordAll]
        exact (deadline?_congr (by simp) _).symm
      have first := Change.finished ht ho (.inr ⟨p, hend, rfl⟩)
        (hs.imp id (.imp id fun h => ⟨h.1, .inr h.2⟩)) fun q hq hcrash => by
          rw [hend, Except.error.injEq] at hq
          rw [← hq, ← hcall] at hcrash
          cases hcrash
      rw [hend] at first
      have second := Aside.hookCalls_setTask (w.recordAll (.finished e k (.error p) ::
        .log none (.jobPanicked p.message) :: w.hookTrace e t (.panicked p.message))) n t
          (.worker e kind state)
      simp only
      obtain later | later := later <;> rw [later]
      · exact .head first (.single (.aside second))
      · exact .head first (.head (.aside second) (.single (.aside (.exited _ t true))))

/-- A step of an idle worker is a change. -/
theorem changes_stepIdle {kind : WorkerKind} {alarm : Option Nat}
    (ht : w.tasks[t]? = some (.worker e kind (.idle alarm))) :
    Changes w (w.stepIdle t e kind alarm) := by
  unfold stepIdle
  split
  · rename_i hc
    exact .single (.quit ht (.inl ⟨alarm, rfl, .inl hc⟩))
  · rename_i hc
    split
    · rename_i tier x ep hclaim
      exact .single (.claimed ht (Bool.eq_false_iff.2 hc) hclaim)
    · rename_i hclaim
      split
      · rename_i halarm
        obtain ⟨deadline, rfl, hd⟩ : ∃ deadline, alarm = some deadline ∧ deadline ≤ w.clock := by
          simpa [Option.any_eq_true] using halarm
        exact .head (.aside (.log w _))
          (.single (.quit ht (.inl ⟨_, rfl, .inr ⟨⟨deadline, rfl, hd⟩, hclaim⟩⟩)))
      · exact .refl

/-- A step of a worker that leaves is made of changes. -/
theorem changes_stepLeaving {kind : WorkerKind} (hw : w.Sound)
    (ht : w.tasks[t]? = some (.worker e kind .leaving)) : Changes w (w.stepLeaving t e kind) := by
  cases kind with
  | permanent i =>
    exact .head (.aside (.log w _)) (.head (.left ht) (.single (.aside (.exited _ t false))))
  | temporary =>
    have he : e < w.epochs.size := hw.home_lt ht rfl
    have first := Change.retired ht
    unfold stepLeaving
    simp only [epoch_modifyEpoch_self _ _ _ he]
    generalize hv : (w.modifyEpoch e fun ep => { ep with temps := ep.temps - 1 }).log
      (.tempLeft ((w.epoch e).temps - 1)) = v
    obtain ⟨hcall, htrace⟩ := callHook_congr (w := w) (u := v) e t (by rw [← hv]; rfl)
      (by rw [← hv]; rfl) (.leave ((w.epoch e).temps - 1))
    obtain ⟨n, hn⟩ := v.callHook_eq e t (.leave ((w.epoch e).temps - 1))
    rcases hh : v.callHook e t (.leave ((w.epoch e).temps - 1)) with ⟨crashed, u⟩
    rw [hh] at hcall hn
    rw [htrace] at hn
    simp only at hcall hn
    subst hn
    rw [recordAll_cons, ← hcall] at first
    refine .head first ?_
    subst hv
    exact .head (.aside (.hookCalls_setTask _ n t _)) (.single (.aside (.exited _ t crashed)))

/-- A step of a worker is made of changes. -/
theorem changes_stepWorker {kind : WorkerKind} {state : WorkerState ν} (hw : w.Sound)
    (ht : w.tasks[t]? = some (.worker e kind state)) (hr : w.ready t = true) :
    Changes w (w.stepWorker t e kind state) := by
  cases state with
  | hired =>
    cases kind with
    | permanent i => exact .head (.aside (.log w _)) (.single (.began ht))
    | temporary => exact .single (.quit ht (.inr ⟨rfl, rfl⟩))
  | seeded live x =>
    obtain ⟨n, hn⟩ := w.callHook_eq e t (.join live)
    simp only [stepWorker]
    rcases hh : w.callHook e t (.join live) with ⟨crashed, u⟩
    rw [hh] at hn
    simp only at hn
    subst hn
    have hcall : (w.callHook e t (.join live)).1 = crashed := congrArg Prod.fst hh
    cases crashed with
    | true =>
      have first := Change.lost ht hcall
      rw [recordAll_append] at first
      exact .head first (.head (.aside (.hookCalls_setTask _ n t _))
        (.single (.aside (.exited _ t true))))
    | false =>
      have first := Change.welcomed ht hcall
      rw [recordAll_append] at first
      exact .head first (.single (.aside (.hookCalls _ n)))
  | idle alarm => exact changes_stepIdle ht
  | busy source k th =>
    have hth : th.Sound w := (hw.tasks t _ ht).thread th rfl
    simp only [stepWorker]
    split
    · rename_i ho
      exact changes_finish ht ho
    · have hready : w.threadReady t th = true := by simpa [ready, ht] using hr
      exact changes_thread ht rfl (shifts_stepThread hw hth hready)
  | leaving => exact changes_stepLeaving hw ht
  | gone crashed => exact .refl

/-- Changing an epoch to what it is changes nothing. -/
theorem modifyEpoch_self (w : World ν) (e : EpochId) :
    w.modifyEpoch e (fun _ => w.epoch e) = w := by
  have h : w.epochs.modify e (fun _ => w.epoch e) = w.epochs := by
    apply Array.ext_getElem?
    intro i
    rw [Array.getElem?_modify]
    split
    · rename_i hi
      subst hi
      cases hx : w.epochs[e]? with
      | none => rfl
      | some x => simp [epoch, hx]
    · rfl
  simp [modifyEpoch, h]

/-- A flush of a dispatcher is a change. -/
theorem changes_stepFlushing (ht : w.tasks[t]? = some (.dispatcher e .flushing)) :
    Changes w (w.stepFlushing t e) := by
  have spec := Epoch.flushes_flush w.settings (w.epoch e)
  unfold stepFlushing
  simp only
  split
  · rename_i ho
    have first := Change.flushed ht ho
    rw [recordAll, List.foldl_map] at first
    exact .single first
  · rename_i ho
    obtain ⟨hc, hsame, hmoved⟩ := spec.isOpen (Bool.eq_false_iff.2 ho)
    rw [hmoved, hsame, modifyEpoch_self]
    exact .single (.shut ht (.inl rfl) hc)

/-- A step of a dispatcher is made of changes. -/
theorem changes_stepDispatcher {state : DispatcherState ν} (hw : w.Sound)
    (ht : w.tasks[t]? = some (.dispatcher e state)) (hr : w.ready t = true) :
    Changes w (w.stepDispatcher t e state) := by
  rcases state with _ | _ | _ | _ | _ | (_ | ⟨layer, layers⟩) | _
  · exact .head (.aside (.log w _)) (.single (.dispatching ht))
  · exact changes_stepFlushing ht
  · simp only [stepDispatcher, stepParked]
    split
    · rename_i hc
      exact .single (.shut ht (.inr rfl) hc)
    · rename_i hc
      have ho := Bool.eq_false_iff.2 hc
      split
      · exact .single (.woken ht ho)
      · split
        · rename_i x intake hi
          exact .single (.tookIn ht ho hi)
        · exact .refl
  · simp only [stepDispatcher, stepCollecting]
    split
    · rename_i x intake hi
      exact .single (.collected ht (.inl rfl) hi)
    · rename_i hnone
      split
      · rename_i hf
        split
        · exact .single (.discarding ht hf)
        · exact .head (.aside (.log w _)) (.single (.discarding ht hf))
      · rename_i hf
        exact .single (.expecting ht (by simpa [Intake.take?] using hnone)
          (Bool.eq_false_iff.2 hf))
  · obtain ⟨x, hx⟩ := Option.isSome_iff_exists.1 (by simpa [ready, ht] using hr)
    simp only [stepDispatcher, stepCollecting, Intake.take?, hx, Option.map_some]
    exact .single (.collected ht (.inr rfl) (by simp [Intake.take?, hx]))
  · simp only [stepDispatcher]
    split
    · rename_i hb
      exact .head (.aside (.log w _)) (.head (.dispersed ht hb)
        (.single (.aside (.exited _ t false))))
    · rename_i x rest hb
      exact .single (.discarded ht hb)
  · exact changes_thread ht rfl (shifts_stepLayers ⟨layer :: layers, ⟨[], .ok ()⟩, .nothing⟩ hw)
  · exact .refl

/-- A step of any task is made of changes. -/
theorem changes_step (hw : w.Sound) (t : TaskId) : Changes w (w.step t) := by
  unfold step
  split
  · rename_i hr
    cases ht : w.tasks[t]? with
    | none => exact .refl
    | some task =>
      cases task with
      | worker home kind state => exact changes_stepWorker hw ht hr
      | dispatcher home state => exact changes_stepDispatcher hw ht hr
      | client th =>
        have hth : th.Sound w := (hw.tasks t _ ht).thread th rfl
        have hready : w.threadReady t th = true := by
          simp only [ready, ht, Bool.and_eq_true] at hr
          exact hr.2
        exact changes_thread ht rfl (shifts_stepThread hw hth hready)
  · exact .refl

/-- A client that is broken off lets go of the pool. -/
theorem changes_brokenOff (th : Thread ν) (hw : w.Sound) (hs : t < w.tasks.size)
    (hl : th.layers = []) (hwait : th.wait.line? = none) :
    Changes (w.setTask t (.client th))
      (w.letGo.2.setTask t (.client { layers := w.letGo.1, body := ⟨[], .ok ()⟩ })) := by
  have first := Change.brokenOff (w.getElem?_setTask_self t (.client th) hs) hl hwait
  rw [setTask_setTask] at first
  have shifts := shifts_letGo (t := t) (a := none) ⟨[], ⟨[], .ok ()⟩, .nothing⟩ hw
  rw [List.append_nil] at shifts
  exact .head first (shifts.changes hs rfl rfl)

/-- Breaking off the call of a client is made of changes. -/
theorem changes_withdraw (hw : w.Sound) (t : TaskId) : Changes w (w.withdraw t) := by
  unfold withdraw
  split
  · rename_i body wait ht
    have hs : t < w.tasks.size := (Array.getElem?_eq_some_iff.1 ht).1
    cases wait with
    | inLine e k =>
      have gave : Shift t none ⟨[], body, .inLine e k⟩ w ⟨[], body, .nothing⟩ (w.giveUp t e k) :=
        .gaveUp rfl rfl
      have hv : (w.giveUp t e k).Sound := (gave.sound hw ((hw.tasks t _ ht).thread _ rfl)).1
      exact .head (.code ht rfl gave)
        (changes_brokenOff _ hv (Nat.lt_of_lt_of_le hs gave.grows.tasks) rfl rfl)
    | nothing => exact .single (.brokenOff ht rfl rfl)
    | alarm => exact .single (.brokenOff ht rfl rfl)
    | closing e =>
      have later := changes_brokenOff (t := t) ⟨[], body, .closing e⟩ hw hs rfl rfl
      rwa [setTask_self _ _ _ ht] at later
    | exits e deadline =>
      have later := changes_brokenOff (t := t) ⟨[], body, .exits e deadline⟩ hw hs rfl rfl
      rwa [setTask_self _ _ _ ht] at later
  · exact .refl

/-- Every move is made of changes. -/
theorem Move.changes {u : World ν} (m : Move w u) (hw : w.Sound) : Changes w u := by
  cases m with
  | step t => exact changes_step hw t
  | pass time h => exact .single (.aside (.passing w h))
  | post code => exact .single (.posted code)
  | withdraw t => exact changes_withdraw hw t
  | release gate passes => exact .single (.aside (.gates w _))

end Steps

/-- What changes lead to is an evolved state. -/
theorem Evolved.changes {settings : Settings} {hook : Option Hook} {w u : World ν}
    (h : Evolved settings hook w) (c : Changes w u) : Evolved settings hook u := by
  induction c with
  | refl => exact h
  | tail _ c ih => exact .next ih c

/-- Steps of tasks, in this order, are a run. -/
theorem run_steps (order : List TaskId) (w : World ν) : Run w (order.foldl step w) := by
  induction order generalizing w with
  | nil => exact .refl w
  | cons t order ih => exact (Run.single (.step w t)).trans (ih (w.step t))

namespace Reachable

variable {settings : Settings} {hook : Option Hook} {w : World ν}

/-- What holds of a pool as it is opened, and survives every move, holds in every state that it may
come to. -/
theorem induct {P : World ν → Prop} (h : Reachable settings hook w)
    (first : settings.Valid → P { settings, hook : World ν }.launch)
    (move : ∀ v u, Reachable settings hook v → P v → Move v u → P u) : P w := by
  obtain ⟨start, hopen, hrun⟩ := h
  have hstart : P start := by
    have hopen' := hopen
    unfold opened Settings.check at hopen'
    cases hf : settings.fault? with
    | some fault => simp [hf] at hopen'
    | none =>
      simp only [hf, Except.ok.injEq] at hopen'
      subst hopen'
      exact first (settings.fault?_eq_none_iff.1 hf)
  refine (hrun.invariant (P := fun v => Reachable settings hook v ∧ P v)
    ⟨⟨start, hopen, .refl _⟩, hstart⟩ fun v u hv m => ⟨?_, move v u hv.1 hv.2 m⟩).2
  obtain ⟨start', hopen', hrun'⟩ := hv.1
  exact ⟨start', hopen', hrun'.tail m⟩

/-- Every state that a pool may come to is one that elementary changes lead to. -/
theorem evolved (h : Reachable settings hook w) : Evolved settings hook w :=
  h.induct .opened fun _ _ _ hv m => hv.changes (m.changes hv.sound)

/-- Valid settings open a pool. -/
theorem launch (hook : Option Hook) (h : settings.Valid) :
    Reachable settings hook { settings, hook : World ν }.launch := by
  refine ⟨_, ?_, .refl _⟩
  rw [opened, Settings.check, settings.fault?_eq_none_iff.2 h]
  rfl

/-- One more move stays within reach. -/
theorem move {u : World ν} (h : Reachable settings hook w) (m : Move w u) :
    Reachable settings hook u := by
  obtain ⟨first, hopen, hrun⟩ := h
  exact ⟨first, hopen, hrun.tail m⟩

/-- A run stays within reach. -/
theorem run {u : World ν} (h : Reachable settings hook w) (r : Run w u) :
    Reachable settings hook u := by
  obtain ⟨first, hopen, hrun⟩ := h
  exact ⟨first, hopen, hrun.trans r⟩

/-- A call of a client that takes its first steps, and other tasks theirs, in this order. -/
theorem call (h : Reachable settings hook w) (code : Script (Act ν) Unit) (order : List TaskId) :
    Reachable settings hook (order.foldl step (w.spawn (.client { body := code }))) :=
  (h.move (.post w code)).run (run_steps order _)

end Reachable

end WorkerPool.World
