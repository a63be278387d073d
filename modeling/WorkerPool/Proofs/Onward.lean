import WorkerPool.Proofs.Returns

/-!
# Code goes on by itself

Code is a stack: the body of a task at the bottom, and above it the drains and callbacks that its
calls have led to. It is worked off from the top, one thing at a time, and a callback that panics is
over like one that returns. So whatever happens in a pool, a body goes on to its own end, unless it
is the call of a client that breaks it off.
-/

namespace WorkerPool

variable {ν : Type}

/-- One thing that running code does, and the code that is left. -/
inductive Thread.Onward : Thread ν → Thread ν → Prop
  /-- The act of the body goes on, after what it may have left to do first. -/
  | stays {layers : List (Layer ν)} {body : Script (Act ν) Unit} {wait wait' : Wait}
      (more : List (Layer ν)) : Onward ⟨layers, body, wait⟩ ⟨more ++ layers, body, wait'⟩
  /-- The act of the body is done. -/
  | next {act : Act ν} {rest : List (Act ν)} {ending : Except Panic Unit} {wait : Wait} :
      Onward ⟨[], ⟨act :: rest, ending⟩, wait⟩ ⟨[], ⟨rest, ending⟩, .nothing⟩
  /-- A deed of a callback is done. -/
  | deed {k : Nat} {d : Deed ν} {ds : List (Deed ν)} {ending : Except Panic Unit}
      {below : List (Layer ν)} {body : Script (Act ν) Unit} {wait : Wait} :
      Onward ⟨.callback k ⟨d :: ds, ending⟩ :: below, body, wait⟩
        ⟨.callback k ⟨ds, ending⟩ :: below, body, wait⟩
  /-- A callback is over, with a panic or without, and what stands below goes on. -/
  | over {k : Nat} {ending : Except Panic Unit} {below : List (Layer ν)}
      {body : Script (Act ν) Unit} {wait : Wait} :
      Onward ⟨.callback k ⟨[], ending⟩ :: below, body, wait⟩ ⟨below, body, wait⟩
  /-- A drain calls the callback of the job that it abandons. -/
  | calls {e : EpochId} {n k : Nat} {code : Script (Deed ν) Unit} {below : List (Layer ν)}
      {body : Script (Act ν) Unit} {wait : Wait} :
      Onward ⟨.drain e n :: below, body, wait⟩
        ⟨.callback k code :: .drain e (n + 1) :: below, body, wait⟩
  /-- A drain is over. -/
  | drained {e : EpochId} {n : Nat} {below : List (Layer ν)} {body : Script (Act ν) Unit}
      {wait : Wait} : Onward ⟨.drain e n :: below, body, wait⟩ ⟨below, body, wait⟩

/-- Some things that running code does, one after the other. -/
abbrev Thread.Leads : Thread ν → Thread ν → Prop := Relation.ReflTransGen Thread.Onward

namespace Thread

variable {th th' : Thread ν}

/-- A body never ends in another way than its own, and does its acts in order. -/
theorem Onward.body (h : Onward th th') :
    th'.body.acts <:+ th.body.acts ∧ th'.body.ending = th.body.ending := by
  cases h with
  | next => exact ⟨List.suffix_cons _ _, rfl⟩
  | _ => exact ⟨List.suffix_rfl, rfl⟩

theorem Leads.body (h : Leads th th') :
    th'.body.acts <:+ th.body.acts ∧ th'.body.ending = th.body.ending := by
  induction h with
  | refl => exact ⟨List.suffix_rfl, rfl⟩
  | tail _ s ih => exact ⟨s.body.1.trans ih.1, s.body.2.trans ih.2⟩

end Thread

namespace World

variable {w v u : World ν} {t : TaskId} {th th' : Thread ν}

/-- A shift of code is one thing that the code does. -/
theorem Shift.onward {a : Option Nat} {w' : World ν} (h : Shift t a th w th' w') :
    th.Onward th' := by
  obtain ⟨layers, ⟨acts, ending⟩, wait⟩ := th
  cases h with
  | deed hl ha =>
    obtain rfl : layers = [] := hl
    obtain rfl : acts = _ := ha
    exact .next
  | callbackDeed hl =>
    obtain rfl : layers = _ := hl
    exact .deed
  | paused hl ha =>
    obtain rfl : layers = [] := hl
    obtain rfl : acts = _ := ha
    exact .next
  | answered hl ha =>
    obtain rfl : layers = [] := hl
    obtain rfl : acts = _ := ha
    exact .next
  | returned hl =>
    obtain rfl : layers = _ := hl
    exact .over
  | abandoned hl =>
    obtain rfl : layers = _ := hl
    exact .calls
  | drained hl =>
    obtain rfl : layers = _ := hl
    exact .drained
  | @halted e => exact .stays [.drain e 0]
  | _ => exact .stays []

theorem Shifts.leads {a : Option Nat} {w' : World ν} (h : Shifts t a th w th' w') :
    th.Leads th' := by
  induction h with
  | refl => exact .refl
  | head s _ ih => exact .head s.onward ih

/-- A worker whose job is over writes down how it ended. -/
theorem mem_finish (w : World ν) (t : TaskId) (e : EpochId) (kind : WorkerKind) (source : Source)
    (k : Nat) (ending : Except Panic Unit) :
    .finished e k ending ∈ (w.finish t e kind source k ending).occurrences := by
  have rests : ∀ v : World ν, .finished e k ending ∈ v.occurrences →
      .finished e k ending ∈ (v.rest t e kind source).occurrences := by
    intro v hv
    obtain ⟨state, _, h | h⟩ := v.rest_cases t e kind source <;> rw [h]
    · exact hv
    · simp [hv]
  cases ending with
  | ok => exact rests _ (by simp)
  | error p =>
    simp only [finish]
    generalize hv : (w.record (.finished e k (.error p))).log (.jobPanicked p.message) = v
    have hmem : .finished e k (.error p) ∈ v.occurrences := by
      rw [← hv]
      simp [World.log]
    obtain ⟨n, hn⟩ := v.callHook_eq e t (.panicked p.message)
    have told : .finished e k (.error p) ∈
        (v.callHook e t (.panicked p.message)).2.occurrences := by
      rw [hn]
      exact (Grows.recordAll v _).mem hmem
    split
    · rename_i hu
      rw [hu] at told
      exact (Grows.record _ _).mem told
    · rename_i hu
      rw [hu] at told
      exact rests _ told

/-- A task whose code is not over is ready only if its code is. -/
theorem threadReady_of_ready {task : Task ν} (ht : w.tasks[t]? = some task)
    (hth : task.thread? = some th) (ho : th.isOver = false) (hr : w.ready t = true) :
    w.threadReady t th = true := by
  obtain ⟨_, _, _, _, rfl⟩ | ⟨_, layers, rfl, rfl⟩ | rfl := Task.thread?_eq_some hth
  · simpa [ready, ht] using hr
  · cases layers with
    | nil => cases ho
    | cons layer layers => rfl
  · simp only [ready, ht, Bool.and_eq_true] at hr
    exact hr.2

/-- In one move code goes on by itself, or it is over and, if it is a job, has ended as its own code
says, or a client has broken it off. -/
theorem Move.onward (m : Move w u) (hw : w.Sound) {task : Task ν} (ht : w.tasks[t]? = some task)
    (hth : task.thread? = some th) :
    (∃ th', u.tasks[t]? = some (task.withThread th') ∧
      (task.withThread th').thread? = some th' ∧ th.Leads th') ∨
    (th.isOver = true ∧ ∀ e kind source k, task = .worker e kind (.busy source k th) →
      .finished e k th.body.ending ∈ u.occurrences) ∨
    u = w.withdraw t ∧ task = .client th := by
  have hlt : t < w.tasks.size := (Array.getElem?_eq_some_iff.1 ht).1
  have same : u.tasks[t]? = w.tasks[t]? → ∃ th', u.tasks[t]? = some (task.withThread th') ∧
      (task.withThread th').thread? = some th' ∧ th.Leads th' := by
    intro hu
    refine ⟨th, ?_, ?_, .refl⟩
    · rw [hu, ht, withThread_self hth]
    · rw [withThread_self hth, hth]
  obtain hu | rfl | rfl := m.getElem?_tasks hw hlt
  · exact .inl (same hu)
  · cases hr : w.ready t with
    | false => exact .inl (same (by rw [step_of_not_ready w t hr]))
    | true =>
      cases ho : th.isOver with
      | true =>
        refine .inr (.inl ⟨rfl, fun e kind source k htask => ?_⟩)
        subst htask
        simp only [World.step, hr, if_true, ht, stepWorker, ho]
        exact mem_finish w t e kind source k _
      | false =>
        have ready := threadReady_of_ready ht hth ho hr
        have shifts := shifts_stepThread (a := task.author?) hw ((hw.tasks t task ht).thread th hth)
          ready
        rw [(step_of_thread ht hth ready ho).2]
        exact .inl ⟨_, getElem?_setTask_self _ _ _ (Nat.lt_of_lt_of_le hlt shifts.grows.tasks),
          shifts.thread?_withThread hth, shifts.leads⟩
  · by_cases hc : task = .client th
    · exact .inr (.inr ⟨rfl, hc⟩)
    · refine .inl (same ?_)
      unfold World.withdraw
      split
      · rename_i body wait hclient
        rw [ht, Option.some.injEq] at hclient
        subst hclient
        cases hth
        exact absurd rfl hc
      · rfl

/-- What has become in `v` of the code that task `t` ran in `w`. -/
inductive Fate (w v : World ν) (t : TaskId) (task : Task ν) (th : Thread ν) : Prop
  /-- The task is still at it. -/
  | onward {th' : Thread ν} (ht : v.tasks[t]? = some (task.withThread th'))
      (hth : (task.withThread th').thread? = some th') (h : th.Leads th')
  /-- It was done to its end and, if it was a job, has ended as its own code says. -/
  | ended {th' : Thread ν} (h : th.Leads th') (ho : th'.isOver = true)
      (hf : ∀ e kind source k, task = .worker e kind (.busy source k th) →
        .finished e k th.body.ending ∈ v.occurrences)
  /-- It was the call of a client, who broke it off. -/
  | withdrawn {x : World ν} {th' : Thread ν} (before : Run w x)
      (ht : x.tasks[t]? = some (.client th')) (after : Run (x.withdraw t) v)

/-- Code goes on by itself through every run. -/
theorem Evolved.fate {settings : Settings} {hook : Option Hook} (hw : Evolved settings hook w)
    (r : Run w v) {task : Task ν} (ht : w.tasks[t]? = some task) (hth : task.thread? = some th) :
    Fate w v t task th := by
  induction r with
  | refl => exact .onward (by rwa [withThread_self hth]) (by rwa [withThread_self hth]) .refl
  | @tail v u before m ih =>
    have hv : Evolved settings hook v := hw.changes (hw.changes_of_run before)
    obtain ⟨hv', hth', h⟩ | ⟨h, ho, hf⟩ | ⟨hbefore, hclient, after⟩ := ih
    · obtain ⟨th'', hu, hth'', h'⟩ | ⟨ho, hf⟩ | ⟨rfl, hclient⟩ := m.onward hv.sound hv' hth'
      · rw [withThread_withThread] at hu hth''
        exact .onward hu hth'' (h.trans h')
      · refine .ended h ho fun e kind source k htask => ?_
        subst htask
        rw [← h.body.2]
        exact hf e kind source k rfl
      · exact .withdrawn before (hclient ▸ hv') (.refl _)
    · exact .ended h ho fun e kind source k htask =>
        (Changes.grows (m.changes hv.sound)).mem (hf e kind source k htask)
    · exact .withdrawn hbefore hclient (after.tail m)

end World

end WorkerPool
