import WorkerPool.Proofs.Beginnings
import WorkerPool.Proofs.Deadlines

/-!
# When temporary workers retire

A temporary worker sets its alarm as a job of its ends, for as long as it is to wait for work. Any
other job that it finds meanwhile it takes, and sets its alarm anew after that. So it retires once
it has waited for all of this time, not before, and only if it finds no job then; and it never
leaves with a job in its hands.
-/

namespace WorkerPool

variable {ν : Type}

/-- The worker has not begun. -/
def WorkerState.isFresh : WorkerState ν → Bool
  | hired => true
  | seeded .. => true
  | _ => false

namespace World

variable {w u : World ν} {t i : TaskId} {e : EpochId} {kind : WorkerKind} {state : WorkerState ν}
  {settings : Settings} {hook : Option Hook}

section Fresh

/-- A worker that code has added has not begun. -/
theorem Shifts.isFresh_of_new {a : Option Nat} {th th' : Thread ν} {w' : World ν}
    (h : Shifts t a th w th' w') (hu : w'.tasks[i]? = some (.worker e kind state))
    (hn : w.tasks[i]? = none) : state.isFresh = true := by
  induction h with
  | refl =>
    rw [hn] at hu
    cases hu
  | @head th th₁ th' w v w' s later ih =>
    cases hv : v.tasks[i]? with
    | none => exact ih hu hv
    | some task =>
      rw [later.getElem?_tasks (Array.getElem?_eq_some_iff.1 hv).1, hv, Option.some.injEq] at hu
      subst hu
      obtain hold | hcrew | ⟨_, _, _, heq⟩ := s.getElem?_cases hv
      · rw [hn] at hold
        cases hold
      · obtain ⟨_, _, heq⟩ | ⟨_, heq⟩ := mem_crew.1 hcrew <;> cases heq
        rfl
      · cases heq
        rfl

/-- A worker that is new after a step has not begun. -/
theorem isFresh_of_step (hw : w.Sound) (hu : (w.step t).tasks[i]? = some (.worker e kind state))
    (hn : w.tasks[i]? = none) : state.isFresh = true := by
  by_cases hi : i = t
  · subst hi
    have still : w.step i = w := w.step_of_not_ready i (by rw [ready, hn])
    rw [still, hn] at hu
    cases hu
  · obtain plain | ⟨task, th, ht, hth, hr, hstep⟩ := w.step_cases t
    · rw [plain.tasks i hi, hn] at hu
      cases hu
    · rw [hstep, getElem?_setTask_of_ne _ _ _ hi] at hu
      exact (shifts_stepThread (a := task.author?) hw ((hw.tasks t task ht).thread th hth)
        hr).isFresh_of_new hu hn

/-- So has one that is new after a call was broken off. -/
theorem isFresh_of_withdraw (hw : w.Sound)
    (hu : (w.withdraw t).tasks[i]? = some (.worker e kind state)) (hn : w.tasks[i]? = none) :
    state.isFresh = true := by
  have gone : ∀ {v : World ν}, v.Sound → v.tasks = w.tasks →
      v.letGo.2.tasks[i]? = some (.worker e kind state) → state.isFresh = true := by
    intro v hv ht h
    exact (shifts_letGo (t := t) (a := none) ⟨[], ⟨[], .ok ()⟩, .nothing⟩ hv).isFresh_of_new h
      (ht ▸ hn)
  unfold withdraw at hu
  split at hu
  · rename_i body wait ht
    have hi : i ≠ t := by
      rintro rfl
      rw [hn] at ht
      cases ht
    simp only [getElem?_setTask_of_ne _ _ _ hi] at hu
    cases wait with
    | nothing | alarm =>
      rw [hn] at hu
      cases hu
    | inLine j k => exact gone ((hw.modifyEpoch j rfl).record _) rfl hu
    | closing | exits => exact gone hw rfl hu
  · rw [hn] at hu
    cases hu

/-- A worker that is new after a move has not begun. -/
theorem Move.isFresh_of_new (m : Move w u) (hw : w.Sound)
    (hu : u.tasks[i]? = some (.worker e kind state)) (hn : w.tasks[i]? = none) :
    state.isFresh = true := by
  cases m with
  | step t => exact isFresh_of_step hw hu hn
  | withdraw t => exact isFresh_of_withdraw hw hu hn
  | post code =>
    obtain ⟨_, heq⟩ | hold := getElem?_spawn_cases hu
    · cases heq
    · rw [hn] at hold
      cases hold
  | _ =>
    rw [hn] at hu
    cases hu

end Fresh

section Jobs

/-- The jobs that worker `t` has begun, in order. -/
def jobs (w : World ν) (t : TaskId) : List Beginning := w.beginnings.filter (·.worker = t)

/-- A job that is about to begin does so with the worker whose state says it. -/
theorem Begins.worker_eq {b : Beginning} (h : w.Begins t b) : b.worker = t := by
  cases h <;> rfl

/-- The last job that a worker has begun is the one that it begins. -/
theorem Begins.jobs {b : Beginning} (h : w.Begins t b) (hu : u.beginnings = w.beginnings ++ [b]) :
    u.jobs t = w.jobs t ++ [b] := by
  simp [World.jobs, hu, h.worker_eq]

/-- What others do is none of the jobs of a worker. -/
theorem Move.jobs_of_ne (m : Move w u) (hw : w.Sound) (ht : u ≠ w.step t) :
    u.jobs t = w.jobs t := by
  obtain same | ⟨i, b, rfl, hb, hu⟩ := m.beginnings hw
  · rw [World.jobs, same, ← World.jobs]
  · have hi : i ≠ t := by
      rintro rfl
      exact ht rfl
    simp [World.jobs, hu, hb.worker_eq, hi]

/-- When the job of this ticket came to its end in epoch `e`. -/
def endOf? (w : World ν) (e : EpochId) (k : Nat) : Option Nat :=
  (w.journal.toList.find? fun s => s.what.ends? = some (e, k)).map Stamped.clock

/-- When the last job that worker `t` has begun came to its end. -/
def lastEnd? (w : World ν) (t : TaskId) : Option Nat :=
  (w.jobs t).getLast?.bind fun b => w.endOf? b.epoch b.ticket

/-- An end is not forgotten. -/
theorem Move.endOf? (m : Move w u) {k c : Nat} (h : w.endOf? e k = some c) :
    u.endOf? e k = some c := by
  obtain ⟨-, os, hos⟩ | ⟨time, -, rfl⟩ := m.dated
  · obtain ⟨s, hs, rfl⟩ := Option.map_eq_some_iff.1 h
    rw [World.endOf?, hos, List.find?_append, hs]
    rfl
  · exact h

/-- A job that ends as its worker takes a step ends in this millisecond. -/
theorem endOf?_step (hl : w.Ledger) {k : Nat} {ending : Except Panic Unit} (hk : w.Holds e k)
    (hf : .finished e k ending ∈ (w.step t).occurrences) :
    (w.step t).endOf? e k = some w.clock := by
  obtain ⟨hc, os, hos⟩ := w.dated_step t
  obtain ⟨s, hs, hwhat⟩ := List.mem_map.1 hf
  have found : ((w.step t).journal.toList.find? fun s => s.what.ends? = some (e, k)).isSome := by
    rw [List.find?_isSome]
    exact ⟨s, hs, by simp [hwhat, Occurrence.ends?]⟩
  obtain ⟨s', hs'⟩ := Option.isSome_iff_exists.1 found
  have new : s' ∈ os.map (Stamped.mk w.clock) := by
    have hm := List.mem_of_find?_eq_some hs'
    rw [hos, List.mem_append] at hm
    refine hm.resolve_left fun hold => hl.not_endsAt hk s'.clock ⟨s', ?_, rfl, ?_⟩
    · exact Array.mem_toList_iff.1 hold
    · simpa using List.find?_some hs'
  obtain ⟨o, -, rfl⟩ := List.mem_map.1 new
  rw [endOf?, hs']
  rfl

end Jobs

section Strides

/-- What one move from `w` to `u` does to the state of a temporary worker. -/
inductive Stride (w u : World ν) (t : TaskId) (e : EpochId) : WorkerState ν → WorkerState ν → Prop
  /-- It waits, or is over, or it is not its turn. -/
  | waits {state : WorkerState ν} (hb : u.jobs t = w.jobs t) : Stride w u t e state state
  /-- It leaves at once. -/
  | turnsBack (hb : u.jobs t = w.jobs t) : Stride w u t e .hired .leaving
  /-- It begins a job. -/
  | takes {state : WorkerState ν} {b : Beginning} {th : Thread ν} (hb : w.Begins t b)
      (he : b.epoch = e) (hu : u.jobs t = w.jobs t ++ [b]) :
      Stride w u t e state (.busy b.source b.ticket th)
  /-- The hook ends it before it begins. -/
  | fails {live : Nat} {x : Entry ν} (hb : u.jobs t = w.jobs t)
      (hh : (w.callHook e t (.join live)).1 = true) : Stride w u t e (.seeded live x) (.gone true)
  /-- It goes on with its job. -/
  | works {source : Source} {k : Nat} {th th' : Thread ν} (hb : u.jobs t = w.jobs t) :
      Stride w u t e (.busy source k th) (.busy source k th')
  /-- Its job is over, and it sets its alarm. -/
  | rests {source : Source} {k : Nat} {th : Thread ν} (hb : u.jobs t = w.jobs t)
      (hf : .finished e k th.body.ending ∈ u.occurrences)
      (hd : u.endOf? e k = some w.clock) : Stride w u t e (.busy source k th)
        (.idle (some (w.deadline w.settings.idleTimeout)))
  /-- Its job is over, and it is ended by the hook or by an alarm that the clock cannot show. -/
  | dies {source : Source} {k : Nat} {th : Thread ν} (hb : u.jobs t = w.jobs t)
      (hf : .finished e k th.body.ending ∈ u.occurrences) :
      Stride w u t e (.busy source k th) (.gone true)
  /-- It leaves its loop: its epoch is closed, or its alarm has gone off and there is no job. -/
  | quits {alarm : Option Nat} (hb : u.jobs t = w.jobs t)
      (hq : (w.epoch e).closed = true ∨
        (∃ d, alarm = some d ∧ d ≤ w.clock) ∧ (w.epoch e).temp = []) :
      Stride w u t e (.idle alarm) .leaving
  /-- It is over. -/
  | leaves {crashed : Bool} (hb : u.jobs t = w.jobs t) :
      Stride w u t e .leaving (.gone crashed)

/-- A temporary worker that rests sets its alarm, or is over if the clock cannot show it. -/
theorem rest_temporary (w : World ν) (t : TaskId) (e : EpochId) (source : Source) :
    w.rest t e .temporary source = w.setTask t
        (.worker e .temporary (.idle (some (w.deadline w.settings.idleTimeout)))) ∨
      w.rest t e .temporary source = w.dismiss t e .temporary true := by
  cases source with
  | seed =>
    left
    rw [rest]
  | tier tier =>
    cases hd : w.deadline? w.settings.idleTimeout with
    | some alarm =>
      left
      simp only [rest, hd, deadline, Option.getD_some]
    | none =>
      right
      simp only [rest, hd]

/-- A call of the hook changes no task, no setting and not the time. -/
theorem callHook_frame (w : World ν) (e : EpochId) (t : TaskId) (call : HookCall) :
    (w.callHook e t call).2.tasks = w.tasks ∧ (w.callHook e t call).2.settings = w.settings ∧
      (w.callHook e t call).2.clock = w.clock := by
  obtain ⟨n, hn⟩ := w.callHook_eq e t call
  rw [hn]
  exact ⟨tasks_recordAll _ _, settings_recordAll _ _, clock_recordAll _ _⟩

/-- Once its job is over a temporary worker sets its alarm or is over. -/
theorem state_of_finish (ht : t < w.tasks.size) (e : EpochId) (source : Source) (k : Nat)
    (ending : Except Panic Unit) :
    (w.finish t e .temporary source k ending).tasks[t]? = some (.worker e .temporary
        (.idle (some (w.deadline w.settings.idleTimeout)))) ∨
      (w.finish t e .temporary source k ending).tasks[t]? =
        some (.worker e .temporary (.gone true)) := by
  have dismissed : ∀ v : World ν, v.tasks = w.tasks →
      (v.dismiss t e .temporary true).tasks[t]? = some (.worker e .temporary (.gone true)) := by
    intro v hv
    exact getElem?_setTask_self _ _ _ (hv ▸ ht)
  have rested : ∀ v : World ν, v.tasks = w.tasks → v.settings = w.settings →
      v.clock = w.clock → (v.rest t e .temporary source).tasks[t]? = some (.worker e .temporary
          (.idle (some (w.deadline w.settings.idleTimeout)))) ∨
        (v.rest t e .temporary source).tasks[t]? = some (.worker e .temporary (.gone true)) := by
    intro v hv hs hc
    have same : v.deadline v.settings.idleTimeout = w.deadline w.settings.idleTimeout := by
      rw [deadline, deadline, hs, deadline?_congr hc, hc]
    obtain h | h := v.rest_temporary t e source <;> rw [h]
    · left
      rw [same]
      exact getElem?_setTask_self _ _ _ (hv ▸ ht)
    · right
      exact dismissed v hv
  cases ending with
  | ok => exact rested _ rfl rfl rfl
  | error p =>
    obtain ⟨hv, hs, hc⟩ := callHook_frame ((w.record (.finished e k (.error p))).log
      (.jobPanicked p.message)) e t (.panicked p.message)
    simp only [finish]
    split <;> rename_i hu <;> rw [hu] at hv hs hc
    · right
      exact dismissed _ hv
    · exact rested _ hv hs hc

section

variable (ht : w.tasks[t]? = some (.worker e .temporary state))
  (hstep : w.step t = w.stepWorker t e .temporary state)

include ht

/-- Only a worker that was hired for a job or is idle begins one in its step. -/
theorem jobs_step (hw : w.Sound) (hs : ∀ live x, state ≠ .seeded live x)
    (hi : ∀ alarm, state ≠ .idle alarm) : (w.step t).jobs t = w.jobs t := by
  obtain same | ⟨b, hb, -⟩ := beginnings_step hw t
  · rw [jobs, same, ← jobs]
  · cases hb with
    | seed h =>
      rw [ht, Option.some.injEq, Task.worker.injEq] at h
      exact absurd h.2.2 (hs _ _)
    | claim h =>
      rw [ht, Option.some.injEq, Task.worker.injEq] at h
      exact absurd h.2.2 (hi _)

include hstep

/-- A worker that was hired for a job begins it, unless the hook ends it. -/
theorem stride_of_seeded {live : Nat} {x : Entry ν} (hs : state = .seeded live x) :
    ∃ state', (w.step t).tasks[t]? = some (.worker e .temporary state') ∧
      Stride w (w.step t) t e state state' := by
  subst hs
  have hlt : t < w.tasks.size := (Array.getElem?_eq_some_iff.1 ht).1
  have told : (w.callHook e t (.join live)).2.beginnings = w.beginnings := by
    simp [Occurrence.beginning?]
  obtain ⟨htasks, -, -⟩ := w.callHook_frame e t (.join live)
  rw [hstep]
  simp only [stepWorker]
  rcases hh : w.callHook e t (.join live) with ⟨crashed, v⟩
  rw [hh] at told htasks
  simp only at told htasks
  cases crashed with
  | true =>
    refine ⟨.gone true, ?_, .fails ?_ (by rw [hh])⟩
    · exact getElem?_setTask_self _ _ _ (by rw [tasks_record, htasks]; exact hlt)
    · simp [jobs, dismiss, leave, Occurrence.beginning?, told]
  | false =>
    have begins : w.Begins t ⟨e, x.ticket, t, .seed⟩ := .seed ht (by rw [hh])
    refine ⟨.busy .seed x.ticket { body := x.job.run }, ?_, .takes begins rfl (begins.jobs ?_)⟩
    · exact getElem?_setTask_self _ _ _ (by rw [World.log, tasks_record, htasks]; exact hlt)
    · simpa [World.assign, Occurrence.beginning?] using told

/-- An idle worker leaves its closed epoch, begins a job that it finds, or leaves if it has waited
for its whole time. -/
theorem stride_of_idle {alarm : Option Nat} (hs : state = .idle alarm) :
    ∃ state', (w.step t).tasks[t]? = some (.worker e .temporary state') ∧
      Stride w (w.step t) t e state state' := by
  subst hs
  have hlt : t < w.tasks.size := (Array.getElem?_eq_some_iff.1 ht).1
  rw [hstep]
  simp only [stepWorker, stepIdle]
  split
  · rename_i hc
    exact ⟨.leaving, getElem?_setTask_self _ _ _ hlt, .quits rfl (.inl hc)⟩
  · rename_i ho
    split
    · rename_i tier x ep hc
      have begins : w.Begins t ⟨e, x.ticket, t, .tier tier⟩ :=
        .claim ht (Bool.eq_false_iff.2 ho) hc
      refine ⟨.busy (.tier tier) x.ticket { body := x.job.run }, ?_,
        .takes begins rfl (begins.jobs ?_)⟩
      · exact getElem?_setTask_self _ _ _ hlt
      · simp [World.assign, Occurrence.beginning?]
    · rename_i hnone
      split
      · rename_i ha
        refine ⟨.leaving, getElem?_setTask_self _ _ _ hlt, .quits ?_ (.inr ⟨?_, ?_⟩)⟩
        · simp [jobs, Occurrence.beginning?]
        · simpa [Option.any_eq_true] using ha
        · have idle : (w.epoch e).hasWork false = false := by
            rw [← Epoch.isSome_claim?]
            simpa using hnone
          simpa [Epoch.hasWork] using idle
      · exact ⟨_, ht, .waits rfl⟩

/-- A worker goes on with its job, and rests once that is over. -/
theorem stride_of_busy (hw : w.Sound) (hl : w.Ledger) (hr : w.ready t = true) {source : Source}
    {k : Nat} {th : Thread ν} (hs : state = .busy source k th) :
    ∃ state', (w.step t).tasks[t]? = some (.worker e .temporary state') ∧
      Stride w (w.step t) t e state state' := by
  subst hs
  have hlt : t < w.tasks.size := (Array.getElem?_eq_some_iff.1 ht).1
  have same := jobs_step ht hw (by simp) (by simp)
  by_cases ho : th.isOver = true
  · have finishes : w.step t = w.finish t e .temporary source k th.body.ending := by
      rw [hstep, stepWorker, if_pos ho]
    have idles := state_of_finish hlt e source k th.body.ending
    rw [← finishes] at idles
    have done : .finished e k th.body.ending ∈ (w.step t).occurrences := by
      refine ((changes_step hw t).busy ht).resolve_left ?_
      rintro ⟨th', h, -⟩
      obtain h' | h' := idles <;> rw [h] at h' <;> cases h'
    have holds : w.Holds e k := ⟨t, _, ht, rfl⟩
    obtain h | h := idles
    · exact ⟨_, h, .rests same done (endOf?_step hl holds done)⟩
    · exact ⟨_, h, .dies same done⟩
  · have hready : w.threadReady t th = true := by simpa [ready, ht] using hr
    have grows := (shifts_stepThread (a := some k) hw ((hw.tasks t _ ht).thread th rfl)
      hready).grows
    refine ⟨.busy source k (w.stepThread t (some k) th).1, ?_, .works same⟩
    rw [hstep, stepWorker, if_neg ho]
    exact getElem?_setTask_self _ _ _ (Nat.lt_of_lt_of_le hlt grows.tasks)

/-- A worker that leaves is over after that. -/
theorem stride_of_leaving (hw : w.Sound) (hs : state = .leaving) :
    ∃ state', (w.step t).tasks[t]? = some (.worker e .temporary state') ∧
      Stride w (w.step t) t e state state' := by
  subst hs
  have hlt : t < w.tasks.size := (Array.getElem?_eq_some_iff.1 ht).1
  have same := jobs_step ht hw (by simp) (by simp)
  have gone : ∃ (v : World ν) (crashed : Bool), v.tasks = w.tasks ∧
      w.step t = v.dismiss t e .temporary crashed := by
    let v := w.modifyEpoch e fun ep => { ep with temps := ep.temps - 1 }
    obtain ⟨htasks, -, -⟩ := callHook_frame (v.log (.tempLeft (v.epoch e).temps)) e t
      (.leave (v.epoch e).temps)
    exact ⟨_, _, htasks, hstep⟩
  obtain ⟨v, crashed, htasks, hgone⟩ := gone
  refine ⟨.gone crashed, ?_, .leaves same⟩
  rw [hgone]
  exact getElem?_setTask_self _ _ _ (htasks ▸ hlt)

end

/-- A step of a temporary worker takes it one stride. -/
theorem exists_stride (hw : w.Sound) (hl : w.Ledger)
    (ht : w.tasks[t]? = some (.worker e .temporary state)) :
    ∃ state', (w.step t).tasks[t]? = some (.worker e .temporary state') ∧
      Stride w (w.step t) t e state state' := by
  cases hr : w.ready t with
  | false =>
    rw [w.step_of_not_ready t hr]
    exact ⟨state, ht, .waits rfl⟩
  | true =>
    have hstep : w.step t = w.stepWorker t e .temporary state := by
      simp only [step, hr, if_true, ht]
    cases state with
    | hired =>
      refine ⟨.leaving, ?_, .turnsBack (jobs_step ht hw (by simp) (by simp))⟩
      rw [hstep]
      exact getElem?_setTask_self _ _ _ (Array.getElem?_eq_some_iff.1 ht).1
    | seeded live x => exact stride_of_seeded ht hstep rfl
    | idle alarm => exact stride_of_idle ht hstep rfl
    | busy source k th => exact stride_of_busy ht hstep hw hl hr rfl
    | leaving => exact stride_of_leaving ht hstep hw rfl
    | gone crashed =>
      rw [hstep]
      exact ⟨.gone crashed, ht, .waits rfl⟩

/-- A move takes a temporary worker one stride. -/
theorem Move.exists_stride (m : Move w u) (hw : w.Sound) (hl : w.Ledger)
    (ht : w.tasks[t]? = some (.worker e .temporary state)) :
    ∃ state', u.tasks[t]? = some (.worker e .temporary state') ∧ Stride w u t e state state' := by
  by_cases hu : u = w.step t
  · subst hu
    exact World.exists_stride hw hl ht
  · refine ⟨state, ?_, .waits (m.jobs_of_ne hw hu)⟩
    obtain same | rfl | rfl := m.getElem?_tasks hw (Array.getElem?_eq_some_iff.1 ht).1
    · rw [same, ht]
    · exact absurd rfl hu
    · have still : w.withdraw t = w := by
        unfold World.withdraw
        rw [ht]
      rwa [still]

/-- What holds of every temporary worker as it is hired, and survives each of its strides, holds of
every temporary worker in every state that a pool comes to. -/
theorem temporary_induct {P : World ν → TaskId → EpochId → WorkerState ν → Prop}
    (hired : ∀ {u t e live x}, u.tasks[t]? = some (.worker e .temporary (.seeded live x)) →
      u.jobs t = [] → P u t e (.seeded live x))
    (stride : ∀ {w u t e state state'}, Reachable settings hook w → Move w u →
      w.tasks[t]? = some (.worker e .temporary state) → Stride w u t e state state' →
        P w t e state → P u t e state')
    (h : Reachable settings hook w) (ht : w.tasks[t]? = some (.worker e .temporary state)) :
    P w t e state := by
  refine h.induct (P := fun w => ∀ t e state, w.tasks[t]? = some (.worker e .temporary state) →
    P w t e state) ?_ ?_ t e state ht
  · intro _ t e state ht
    obtain ⟨-, hm⟩ | hold := getElem?_launch_cases ht
    · obtain ⟨i, -, hm⟩ | ⟨-, hm⟩ := mem_crew.1 hm <;> cases hm
    · cases hold
  · intro w u hw ih m t e state hu
    have sound := hw.evolved.sound
    cases hn : w.tasks[t]? with
    | none =>
      have other : u ≠ w.step t := by
        rintro rfl
        rw [w.step_of_not_ready t (by rw [ready, hn]), hn] at hu
        cases hu
      have idle : w.jobs t = [] := by
        rw [jobs, List.filter_eq_nil_iff]
        intro b hb hworker
        obtain rfl : b.worker = t := by simpa using hworker
        obtain ⟨_, _, hsome⟩ := hw.evolved.worker_of_started (mem_beginnings.1 hb)
        rw [hn] at hsome
        cases hsome
      cases state with
      | seeded live x => exact hired hu ((m.jobs_of_ne sound other).trans idle)
      | hired => exact absurd rfl ((hw.move m).evolved.tells hu).1
      | _ => cases m.isFresh_of_new sound hu hn
    | some task =>
      obtain ⟨task', hu', hrole⟩ := (m.changes sound).role_eq hn
      obtain rfl := Option.some.inj (hu.symm.trans hu')
      obtain ⟨old, rfl⟩ := Task.role_eq_worker.1 hrole.symm
      obtain ⟨state', hu', hs⟩ := m.exists_stride sound hw.evolved.ledger hn
      obtain ⟨-, -, rfl⟩ := Task.worker.inj (Option.some.inj (hu.symm.trans hu'))
      exact stride hw m hn hs (ih t e old hn)

end Strides

section Retirement

/-- What holds of a temporary worker in this state: if it runs a job, that is the last one that it
has begun; if it is idle, the last one is over, and it has set its alarm as it ended. -/
def Abides (w : World ν) (t : TaskId) (e : EpochId) : WorkerState ν → Prop
  | .hired => False
  | .busy source k _ => (w.jobs t).getLast? = some ⟨e, k, t, source⟩
  | .idle alarm => ∃ c, w.lastEnd? t = some c ∧
      ((w.deadline? w.settings.idleTimeout).isSome →
        alarm = some (c + w.settings.idleTimeout.ceilMillis))
  | _ => True

/-- A stride of a temporary worker keeps to that. -/
theorem Stride.abides {state' : WorkerState ν} (s : Stride w u t e state state') (m : Move w u)
    (hs : u.settings = w.settings) (h : w.Abides t e state) : u.Abides t e state' := by
  have clock : w.clock ≤ u.clock := by
    obtain ⟨hc, -⟩ | ⟨time, hle, rfl⟩ := m.dated
    · exact hc.ge
    · exact hle
  have shown : (u.deadline? u.settings.idleTimeout).isSome →
      (w.deadline? w.settings.idleTimeout).isSome := by
    rw [hs]
    intro hu
    by_contra hnone
    rw [deadline?_eq_none_of_le (by simpa using hnone) clock] at hu
    cases hu
  cases s with
  | waits hb =>
    cases state with
    | busy source k th =>
      have last : (w.jobs t).getLast? = some ⟨e, k, t, source⟩ := h
      rwa [← hb] at last
    | idle alarm =>
      obtain ⟨c, hlast, halarm⟩ := h
      refine ⟨c, ?_, ?_⟩
      · obtain ⟨b, hb', hend⟩ := Option.bind_eq_some_iff.1 hlast
        rw [lastEnd?, hb, hb']
        exact m.endOf? hend
      · rw [hs]
        exact fun hu => halarm (shown (hs ▸ hu))
    | hired => exact h
    | _ => trivial
  | @takes _ b _ hb he hu =>
    subst he
    have last : (u.jobs t).getLast? = some b := by rw [hu, List.getLast?_concat]
    rw [show b = ⟨b.epoch, b.ticket, t, b.source⟩ by rw [← hb.worker_eq]] at last
    exact last
  | @works source k _ _ hb =>
    have last : (w.jobs t).getLast? = some ⟨e, k, t, source⟩ := h
    rwa [← hb] at last
  | @rests source k _ hb hf hd =>
    have last : (w.jobs t).getLast? = some ⟨e, k, t, source⟩ := h
    refine ⟨w.clock, ?_, ?_⟩
    · rw [lastEnd?, hb, last]
      exact hd
    · intro hu
      rw [deadline_eq (shown hu) rfl, hs]
  | _ => trivial

/-- Every temporary worker abides in every state that a pool comes to. -/
theorem abides_of_reachable (h : Reachable settings hook w)
    (ht : w.tasks[t]? = some (.worker e .temporary state)) : w.Abides t e state := by
  refine temporary_induct ?_ ?_ h ht
  · exact fun _ _ => trivial
  · intro w u t e state state' hw m _ s ih
    exact s.abides m (m.changes hw.evolved.sound).grows.settings ih

/-- A job that a temporary worker has begun it still runs, or it has finished it. -/
theorem finished_of_started (h : Reachable settings hook w)
    (ht : w.tasks[t]? = some (.worker e .temporary state)) {b : Beginning} (hb : b ∈ w.jobs t) :
    (∃ th, state = .busy b.source b.ticket th) ∨
      ∃ ending, .finished e b.ticket ending ∈ w.occurrences := by
  revert hb
  revert b
  refine temporary_induct (P := fun w t e state => ∀ {b : Beginning}, b ∈ w.jobs t →
    (∃ th, state = .busy b.source b.ticket th) ∨
      ∃ ending, .finished e b.ticket ending ∈ w.occurrences) ?_ ?_ h ht
  · intro u t e live x _ hnil b hb
    rw [hnil] at hb
    cases hb
  · intro w u t e state state' hw m ht s ih b hb
    have grows := (m.changes hw.evolved.sound).grows
    have kept : b ∈ w.jobs t → (∀ th, state ≠ .busy b.source b.ticket th) →
        ∃ ending, .finished e b.ticket ending ∈ u.occurrences := by
      intro hold hidle
      refine ((ih hold).resolve_left ?_).imp fun _ hf => grows.mem hf
      rintro ⟨th, hth⟩
      exact hidle th hth
    cases s with
    | waits hj => exact (ih (hj ▸ hb)).imp_right (Exists.imp fun _ hf => grows.mem hf)
    | @takes _ first th hfirst _ hj =>
      rw [hj, List.mem_append, List.mem_singleton] at hb
      obtain hold | rfl := hb
      · right
        apply kept hold
        rintro th' rfl
        cases hfirst with
        | seed h => cases ht.symm.trans h
        | claim h => cases ht.symm.trans h
      · left
        exact ⟨th, rfl⟩
    | @works source k th th' hj =>
      obtain ⟨_, heq⟩ | hf := ih (hj ▸ hb)
      · cases heq
        exact .inl ⟨th', rfl⟩
      · exact .inr (hf.imp fun _ hf => grows.mem hf)
    | rests hj hf _ =>
      right
      obtain ⟨_, heq⟩ | hf' := ih (hj ▸ hb)
      · cases heq
        exact ⟨_, hf⟩
      · exact hf'.imp fun _ hf => grows.mem hf
    | dies hj hf =>
      right
      obtain ⟨_, heq⟩ | hf' := ih (hj ▸ hb)
      · cases heq
        exact ⟨_, hf⟩
      · exact hf'.imp fun _ hf => grows.mem hf
    | turnsBack hj | fails hj | quits hj | leaves hj => exact .inr (kept (hj ▸ hb) (by simp))

/-- Code hires a worker for a job by adding one that has not begun. -/
theorem Shift.hired_mem {a : Option Nat} {th th' : Thread ν} {w' : World ν} {k : Nat}
    (h : Shift i a th w th' w') (hk : .seeded e k t ∈ w'.occurrences) :
    .seeded e k t ∈ w.occurrences ∨ t = w.tasks.size ∧ ∃ live x, x.ticket = k ∧
      w'.tasks[t]? = some (.worker e .temporary (.seeded live x)) := by
  cases h with
  | aside ha =>
    left
    exact ha.mem hk rfl
  | @deed d =>
    left
    cases d <;> simpa [Deed.traces] using hk
  | @callbackDeed _ d =>
    left
    cases d <;> simpa [Deed.traces] using hk
  | hired job =>
    simp only [hire, occurrences_record, occurrences_draw, occurrences_spawn,
      occurrences_modifyEpoch, List.mem_append, List.mem_singleton, reduceCtorEq, or_false,
      Occurrence.seeded.injEq] at hk
    obtain hold | ⟨rfl, rfl, rfl⟩ := hk
    · exact .inl hold
    · right
      refine ⟨rfl, (w.epoch e).temps + 1, ⟨w.nextTicket, job⟩, rfl, ?_⟩
      simp [hire, World.spawn]
  | _ =>
    left
    simpa [handOver, giveUp] using hk

/-- A worker that is hired for a job has not begun. -/
theorem Change.hired_mem {k : Nat} (c : Change w u) (hk : .seeded e k t ∈ u.occurrences) :
    .seeded e k t ∈ w.occurrences ∨ ∃ live x, x.ticket = k ∧
      u.tasks[t]? = some (.worker e .temporary (.seeded live x)) := by
  cases c with
  | aside ha =>
    left
    exact ha.mem hk rfl
  | code hi _ h =>
    obtain hold | ⟨rfl, live, x, hx, hnew⟩ := h.hired_mem hk
    · exact .inl hold
    · right
      refine ⟨live, x, hx, ?_⟩
      rwa [getElem?_setTask_of_ne _ _ _ (Nat.ne_of_gt (Array.getElem?_eq_some_iff.1 hi).1)]
  | finished _ _ hos =>
    left
    obtain ⟨_, rfl⟩ | ⟨p, _, rfl⟩ := hos <;> simpa [mem_hookTrace_iff] using hk
  | _ =>
    left
    simpa [World.assign, mem_hookTrace_iff, takeIn, shutIntake] using hk

/-- A worker that was hired for a job has not begun yet, or it has begun this job. -/
theorem Evolved.started_of_hired {k : Nat} (h : Evolved settings hook w) (calm : Calm hook)
    (hk : .seeded e k t ∈ w.occurrences) :
    (∃ live x, x.ticket = k ∧ w.tasks[t]? = some (.worker e .temporary (.seeded live x))) ∨
      .started e k t .seed ∈ w.occurrences := by
  induction h with
  | opened =>
    rw [occurrences_launch] at hk
    simp [occurrences] at hk
  | @next w u h c ih =>
    obtain hold | hnew := c.hired_mem hk
    · obtain ⟨live, x, rfl, ht⟩ | hs := ih hold
      · obtain ⟨state', _, hu, _, turn⟩ := c.turn ht
        cases turn with
        | still => exact .inl ⟨live, x, rfl, hu⟩
        | joins _ hs => exact .inr hs
        | fails hh =>
          have returned := callHook_of_calm (w := w) (e := e) (t := t)
            (by rw [h.same.2]; exact calm) (.join live)
          rw [returned] at hh
          cases hh
        | quits hq => simp at hq
      · exact .inr (c.grows.mem hs)
    · exact .inl hnew

/-- An idle temporary worker that cannot go on waits for its alarm, and there is no job for it. -/
theorem idle_of_not_ready {d : Nat}
    (ht : w.tasks[t]? = some (.worker e .temporary (.idle (some d)))) (hr : w.ready t = false) :
    (w.epoch e).temp = [] ∧ w.clock < d := by
  simp only [ready, ht, Bool.or_eq_false_iff, Epoch.hasWork, bne_self_eq_false, Bool.false_and,
    Bool.or_false, Option.any_some, decide_eq_false_iff_not, Nat.not_le] at hr
  obtain ⟨⟨-, hwork⟩, hlt⟩ := hr
  exact ⟨by simpa using hwork, hlt⟩

/-- An idle temporary worker of an open epoch whose alarm has gone off leaves in its next step if
there is no job for it. -/
theorem step_of_late {d : Nat} (ht : w.tasks[t]? = some (.worker e .temporary (.idle (some d))))
    (ho : (w.epoch e).closed = false) (hd : d ≤ w.clock) (hn : (w.epoch e).temp = []) :
    (w.step t).tasks[t]? = some (.worker e .temporary .leaving) := by
  have hr : w.ready t = true := by simp [ready, ht, hd]
  have none : (w.epoch e).claim? false = none := by
    rw [← Option.not_isSome_iff_eq_none, Epoch.isSome_claim?]
    simp [Epoch.hasWork, hn]
  have hstep : w.step t = w.stepIdle t e .temporary (some d) := by
    simp only [step, hr, if_true, ht, stepWorker]
  rw [hstep, stepIdle, if_neg (by simp [ho])]
  simp only [bne_self_eq_false, none, Option.any_some, hd, decide_true, if_true]
  exact getElem?_setTask_self _ _ _ (Array.getElem?_eq_some_iff.1 ht).1

/-- A job that a temporary worker was hired for or has begun it still holds, or it has finished it.
-/
theorem held_or_finished (h : Reachable settings hook w) (calm : Calm hook)
    (ht : w.tasks[t]? = some (.worker e .temporary state)) {k : Nat}
    (hk : .seeded e k t ∈ w.occurrences ∨ ∃ source, .started e k t source ∈ w.occurrences) :
    (Task.worker e .temporary state).held? = some (e, k) ∨
      ∃ ending, .finished e k ending ∈ w.occurrences := by
  have begun : ∀ {source}, .started e k t source ∈ w.occurrences →
      (Task.worker e .temporary state).held? = some (e, k) ∨
        ∃ ending, .finished e k ending ∈ w.occurrences := by
    intro source hs
    have hb : (⟨e, k, t, source⟩ : Beginning) ∈ w.jobs t := by
      simpa [jobs] using mem_beginnings.2 hs
    obtain ⟨th, rfl⟩ | hf := finished_of_started h ht hb
    · exact .inl rfl
    · exact .inr hf
  obtain hs | ⟨source, hs⟩ := hk
  · obtain ⟨live, x, rfl, hx⟩ | hs := h.evolved.started_of_hired calm hs
    · left
      rw [ht, Option.some.injEq, Task.worker.injEq] at hx
      obtain ⟨-, -, rfl⟩ := hx
      rfl
    · exact begun hs
  · exact begun hs

/-- A temporary worker that leaves its open epoch in a stride has waited until its alarm, and there
is no job for it. -/
theorem Stride.timesOut {state' : WorkerState ν} (s : Stride w u t e state state')
    (abides : w.Abides t e state) (hd : (w.deadline? w.settings.idleTimeout).isSome)
    (ho : (w.epoch e).closed = false) (hne : state ≠ .leaving) (hl : state' = .leaving) :
    (w.epoch e).temp = [] ∧
      ∃ c, w.lastEnd? t = some c ∧ c + w.settings.idleTimeout.ceilMillis ≤ w.clock := by
  cases s with
  | waits => exact absurd hl hne
  | turnsBack => cases abides
  | quits _ hq =>
    obtain ⟨c, hlast, halarm⟩ := abides
    obtain rfl := halarm hd
    obtain hc | ⟨⟨d, heq, hle⟩, htemp⟩ := hq
    · rw [ho] at hc
      cases hc
    · obtain rfl := Option.some.inj heq
      exact ⟨htemp, c, hlast, hle⟩
  | _ => cases hl

/-- How temporary worker `t` of an epoch goes to rest. -/
structure Retires (w : World ν) (t : TaskId) (e : EpochId) (state : WorkerState ν) : Prop where
  /-- While no task can take a step and its epoch is open, it runs a job or is over, or there is no
  job for it and its time to wait is not over: that is counted from the end of the last job it
  began. -/
  waits : w.Settled → (w.epoch e).closed = false → (∀ crashed, state ≠ .gone crashed) →
    (∃ source k th, state = .busy source k th) ∨ (w.epoch e).temp = [] ∧
      ∃ c, w.lastEnd? t = some c ∧ w.clock < c + w.settings.idleTimeout.ceilMillis
  /-- If it leaves its open epoch in a move, it has waited for all of that time, and there is no job
  for it. -/
  timesOut : ∀ u, Move w u → (w.epoch e).closed = false → state ≠ .leaving →
    u.tasks[t]? = some (.worker e .temporary .leaving) → (w.epoch e).temp = [] ∧
      ∃ c, w.lastEnd? t = some c ∧ c + w.settings.idleTimeout.ceilMillis ≤ w.clock
  /-- Once that time is over and there is no job for it, it leaves in its next step. -/
  leaves : ∀ alarm c, state = .idle alarm → (w.epoch e).closed = false → w.lastEnd? t = some c →
    c + w.settings.idleTimeout.ceilMillis ≤ w.clock → (w.epoch e).temp = [] →
      (w.step t).tasks[t]? = some (.worker e .temporary .leaving)
  /-- Every job that it was hired for or has begun it still holds, or it has finished it; it holds
  no job as it leaves, or once it is over. -/
  holds : ∀ k, .seeded e k t ∈ w.occurrences ∨ (∃ source, .started e k t source ∈ w.occurrences) →
    (Task.worker e .temporary state).held? = some (e, k) ∨
      ∃ ending, .finished e k ending ∈ w.occurrences

/-- A temporary worker retires once it has waited for its whole time to wait since its last job
ended, not before, and only if no job is queued for it; and it never leaves with a job. -/
theorem retires_of_reachable (h : Reachable settings hook w) (calm : Calm hook)
    (hd : (w.deadline? settings.idleTimeout).isSome)
    (ht : w.tasks[t]? = some (.worker e .temporary state)) : w.Retires t e state := by
  have hw := h.evolved
  have abides := abides_of_reachable h ht
  rw [← hw.same.1] at hd
  constructor
  case waits =>
    intro settled ho live
    have still := settled t
    cases state with
    | busy source k th =>
      left
      exact ⟨source, k, th, rfl⟩
    | gone crashed => exact absurd rfl (live crashed)
    | idle alarm =>
      right
      obtain ⟨c, hlast, halarm⟩ := abides
      obtain rfl := halarm hd
      obtain ⟨empty, hlt⟩ := idle_of_not_ready ht still
      exact ⟨empty, c, hlast, hlt⟩
    | _ => simp [ready, ht] at still
  case timesOut =>
    intro u m ho hne hu
    obtain ⟨state', hu', s⟩ := m.exists_stride hw.sound hw.ledger ht
    rw [hu, Option.some.injEq, Task.worker.injEq] at hu'
    exact s.timesOut abides hd ho hne hu'.2.2.symm
  case leaves =>
    rintro alarm c rfl ho hlast hle htemp
    obtain ⟨c', hlast', halarm⟩ := abides
    obtain rfl : c = c' := Option.some.inj (hlast.symm.trans hlast')
    obtain rfl := halarm hd
    exact step_of_late ht ho hle htemp
  case holds => exact fun k hk => held_or_finished h calm ht hk

/-- A narrow pool at rest, to which a client submitted three jobs. The temporary worker that was
hired for the last one slept in it, and finished it in the seventh millisecond. -/
def resting : World Nat :=
  [2, 2, 0, 0, 0, 0, 0, 0].foldl step
    { [1, 1, 1, 2, 2].foldl step (({ settings := narrow : World Nat }.launch).spawn
      (.client { body := ⟨[.submit ⟨[], .ok ()⟩ ⟨[], .ok ()⟩ 0 1 2,
        .submit ⟨[], .ok ()⟩ ⟨[], .ok ()⟩ 0 1 2,
        .submit ⟨[.sleep (.ofMillis 7)], .ok ()⟩ ⟨[], .ok ()⟩ 0 1 2], .ok ()⟩ })) with clock := 7 }

/-- The pool a minute after that. -/
def rested : World Nat := { resting with clock := 60007 }

/-- The worker has waited for its job until then, and it leaves in its next step. -/
theorem retires_of_reachable_rested :
    Reachable narrow none rested ∧ resting.Settled ∧ resting.lastEnd? 2 = some 7 ∧
      (resting.epoch 0).temp = [] ∧ (∃ c, resting.lastEnd? 2 = some c ∧
        resting.clock < c + resting.settings.idleTimeout.ceilMillis) ∧
      (∃ c, rested.lastEnd? 2 = some c ∧
        c + rested.settings.idleTimeout.ceilMillis ≤ rested.clock) ∧
        (rested.step 2).tasks[2]? = some (.worker 0 .temporary .leaving) ∧
          ∃ ending, .finished 0 2 ending ∈ rested.occurrences := by
  have reachable : Reachable narrow none resting :=
    ((((Reachable.launch none narrow_valid).move (.post _ _)).run (run_steps _ _)).move
      (.pass _ 7 (by decide))).run (run_steps _ _)
  have later : Reachable narrow none rested := reachable.move (.pass _ 60007 (by decide))
  have calm : Calm none := by simp [Calm]
  have settled : resting.Settled := .of_lt (by decide)
  have early : resting.Retires 2 0 (.idle (some 60007)) :=
    retires_of_reachable reachable calm (by decide) rfl
  have late : rested.Retires 2 0 (.idle (some 60007)) :=
    retires_of_reachable later calm (by decide) rfl
  obtain ⟨empty, waits⟩ := (early.waits settled (by decide) (by simp)).resolve_left (by simp)
  have leaves := late.leaves _ 7 rfl (by decide) (by decide) (by decide) (by decide)
  obtain ⟨-, waited⟩ := late.timesOut _ (.step _ 2) (by decide) (by simp) leaves
  have begun : ⟨0, 2, 2, .seed⟩ ∈ rested.beginnings := by decide
  have finished := (late.holds 2 (.inr ⟨.seed, mem_beginnings.1 begun⟩)).resolve_left (by decide)
  exact ⟨later, settled, by decide, empty, waits, waited, leaves, finished⟩

end Retirement

end World

end WorkerPool
