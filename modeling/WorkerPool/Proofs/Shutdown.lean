import WorkerPool.Proofs.Farewells
import WorkerPool.Proofs.Reentrancy
import WorkerPool.Proofs.Rest

/-!
# When a shutdown returns

A shutdown that returns in time has drained its epoch and has found all tasks of it over. From then
on nothing belongs to the epoch any more: no queue holds a job of it, no worker runs one, no
callback of one is under way, and nothing that happens later concerns it.
-/

namespace WorkerPool

variable {ν : Type}

namespace Occurrence

/-- The epoch that an occurrence is about, if it is about one. -/
def about? : Occurrence ν → Option EpochId
  | hook e _ _ _ => some e
  | opened e => some e
  | closed e => some e
  | queued e _ _ => some e
  | seeded e _ _ => some e
  | handedOver e _ => some e
  | buffered e _ => some e
  | republished e _ _ => some e
  | started e _ _ _ => some e
  | finished e _ _ => some e
  | abandoned e _ => some e
  | lost e _ _ => some e
  | _ => none

/-- The job whose code makes an occurrence, if the code of one does. -/
def author? : Occurrence ν → Option Nat
  | note author _ => author
  | log author _ => author
  | _ => none

end Occurrence

/-- A task that runs a job is a worker inside of it. -/
theorem Task.running?_eq_some {task : Task ν} {e : EpochId} {k : Nat}
    (h : task.running? = some (e, k)) :
    ∃ kind source th, task = .worker e kind (.busy source k th) := by
  rcases task with ⟨home, kind, _ | _ | _ | ⟨source, ticket, th⟩ | _ | _⟩ | _ | _ <;>
    simp only [running?, reduceCtorEq, Option.some.injEq, Prod.mk.injEq] at h
  obtain ⟨rfl, rfl⟩ := h
  exact ⟨kind, source, th, rfl⟩

/-- What a temporary worker that is over has told a hook that never panicked: it left, or the clock
ended it. -/
theorem Ended.told_eq {hook : Option Hook} {untimed : Prop} {crashed : Bool} {cs : History}
    (h : Ended hook untimed .temporary crashed cs) (hc : cs.isCalm = true) (hh : hook.isSome) :
    ∃ (live : Nat) (messages : List String),
      crashed = false ∧ (∃ remaining, cs = (.join live, none) ::
        messages.map (fun m => (.panicked m, none)) ++ [(.leave remaining, none)]) ∨
      crashed = true ∧ cs = (.join live, none) :: messages.map fun m => (.panicked m, none) := by
  cases h with
  | left hk => exact absurd rfl hk
  | retired _ hs remaining =>
    obtain ⟨live, messages, rfl⟩ := hs.exists_eq hh
    exact ⟨live, messages, .inl ⟨rfl, remaining, by simp [Hook.returned, hh]⟩⟩
  | failed => cases hc
  | upset => simp at hc
  | slammed => simp at hc
  | overrun _ hs =>
    obtain ⟨live, messages, rfl⟩ := hs.exists_eq hh
    exact ⟨live, messages, .inr ⟨rfl, rfl⟩⟩

namespace World

variable {w u v : World ν} {e i : EpochId} {t : TaskId} {k : Nat} {settings : Settings}
  {hook : Option Hook}

/-- Something may still happen in epoch `e`: a task of it is not over, it is being drained, it is
current, or it is the next one to be opened. -/
inductive Live (w : World ν) (e : EpochId) : Prop
  | task {t : TaskId} {task : Task ν} (ht : w.tasks[t]? = some task) (hh : task.home? = some e)
      (ho : task.isOver = false)
  | draining (h : w.Draining e)
  | current (h : w.current = some e)
  | next (h : e = w.epochs.size)

/-- The code of the job of this ticket may still do something: a worker runs it, or its callback is
under way. -/
inductive Speaks (w : World ν) (k : Nat) : Prop
  | job {t : TaskId} {task : Task ν} {e : EpochId} (ht : w.tasks[t]? = some task)
      (hr : task.running? = some (e, k))
  | callback {t : TaskId} {task : Task ν} {th : Thread ν} {code : Script (Deed ν) Unit}
      (ht : w.tasks[t]? = some task) (hth : task.thread? = some th)
      (hm : .callback k code ∈ th.layers)

/-- Whatever happens happens to an epoch that is live, or is done by the code of a job that is not
over. -/
def Warranted (w : World ν) (o : Occurrence ν) : Prop :=
  (∀ e, o.about? = some e → w.Live e) ∧ ∀ k, o.author? = some k → w.Speaks k

/-- What is neither about an epoch nor done by a job is warranted. -/
theorem Warranted.of_none {o : Occurrence ν} (ha : o.about? = none) (hb : o.author? = none) :
    w.Warranted o := by
  constructor
  · simp [ha]
  · simp [hb]

/-- What is about a live epoch and not done by a job is warranted. -/
theorem Warranted.of_live {o : Occurrence ν} (ha : o.about? = some e) (hb : o.author? = none)
    (h : w.Live e) : w.Warranted o := by
  constructor
  · intro i hi
    obtain rfl := Option.some.inj (ha.symm.trans hi)
    exact h
  · simp [hb]

/-- What a deed leaves in the journal is warranted by who does it. -/
theorem Warranted.of_trace {o : Occurrence ν} {a : Option Nat} {d : Deed ν} (ho : o ∈ d.traces a)
    (h : ∀ k, a = some k → w.Speaks k) : w.Warranted o := by
  cases d <;> simp only [Deed.traces, List.mem_singleton, List.not_mem_nil] at ho <;> subst ho <;>
    exact ⟨by simp [Occurrence.about?], h⟩

/-- What happens aside is warranted. -/
theorem Warranted.of_isAside {o : Occurrence ν} (ho : o.isAside = true) : w.Warranted o := by
  cases o with
  | log author =>
    cases author with
    | none => exact .of_none rfl rfl
    | some => cases ho
  | exited => exact .of_none rfl rfl
  | _ => cases ho

/-- Code does what it does in live epochs, and as one of the jobs that are not over. -/
theorem Shift.warranted {task : Task ν} {th th' : Thread ν} {w' : World ν}
    (h : Shift t task.author? th w th' w') (hw : w.Sound) (ht : w.tasks[t]? = some task)
    (hth : task.thread? = some th) :
    ∃ os, w'.occurrences = w.occurrences ++ os ∧ ∀ o ∈ os, w.Warranted o := by
  have body : ∀ k, task.author? = some k → w.Speaks k := by
    intro k hk
    obtain ⟨home, kind, source, th, rfl⟩ := Task.author?_eq_some hk
    exact .job ht rfl
  have drawn : ∀ {o : Occurrence ν} (job : Job ν), w.Warranted o →
      ∀ o' ∈ [.submitted w.nextTicket job, o], w.Warranted o' := by
    intro o job ho
    exact List.forall_mem_cons.2 ⟨.of_none rfl rfl, List.forall_mem_singleton.2 ho⟩
  cases h with
  | deed => exact ⟨_, occurrences_recordAll _ _, fun o ho => .of_trace ho body⟩
  | callbackDeed hl =>
    refine ⟨_, occurrences_recordAll _ _, fun o ho => .of_trace ho fun k hk => ?_⟩
    obtain rfl := Option.some.inj hk
    exact .callback ht hth (hl ▸ List.mem_cons_self)
  | answered =>
    exact ⟨_, occurrences_record _ _,
      List.forall_mem_singleton.2 ⟨by simp [Occurrence.about?], body⟩⟩
  | @abandoned i n rest x ep hl =>
    have hd : w.Draining i := ⟨t, task, th, n, ht, hth, hl ▸ List.mem_cons_self⟩
    exact ⟨_, occurrences_record _ _,
      List.forall_mem_singleton.2 (.of_live rfl rfl (.draining hd))⟩
  | halted _ hc =>
    exact ⟨_, occurrences_stop _ _, List.forall_mem_singleton.2 (.of_live rfl rfl (.current hc))⟩
  | launched =>
    exact ⟨_, occurrences_launch _, List.forall_mem_cons.2 ⟨.of_live rfl rfl (.next rfl),
      List.forall_mem_singleton.2 (.of_none rfl rfl)⟩⟩
  | aside h =>
    obtain ⟨os, hos, hall⟩ := h.occurrences
    exact ⟨os, hos, fun o ho => .of_isAside (hall o ho)⟩
  | @queued job _ _ _ _ e tier _ _ _ _ hc =>
    exact ⟨[.submitted w.nextTicket job, .queued e w.nextTicket tier], by simp,
      drawn job (.of_live rfl rfl (.current hc))⟩
  | @hired job _ _ _ _ e _ _ _ hc =>
    exact ⟨[.submitted w.nextTicket job, .seeded e w.nextTicket w.tasks.size], by simp [hire],
      drawn job (.of_live rfl rfl (.current hc))⟩
  | @handedOver job _ _ _ _ e _ _ _ _ hc =>
    exact ⟨[.submitted w.nextTicket job, .handedOver e w.nextTicket], by simp [handOver],
      drawn job (.of_live rfl rfl (.current hc))⟩
  | refused job =>
    exact ⟨[.submitted w.nextTicket job, .refused w.nextTicket], by simp,
      drawn job (.of_none rfl rfl)⟩
  | joined job =>
    exact ⟨[.submitted w.nextTicket job], by simp, List.forall_mem_singleton.2 (.of_none rfl rfl)⟩
  | @granted _ _ _ _ _ e k _ _ hwait hc =>
    have he := ((hw.tasks t task ht).thread th hth).line_lt e k (by rw [hwait]; rfl)
    exact ⟨[.handedOver e k], by simp [handOver],
      List.forall_mem_singleton.2 (.of_live rfl rfl (.current (hw.open_current e he hc)))⟩
  | @gaveUp _ k =>
    exact ⟨[.refused k], by simp [giveUp], List.forall_mem_singleton.2 (.of_none rfl rfl)⟩
  | _ => exact ⟨[], (List.append_nil _).symm, by simp⟩

/-- Whatever a change writes into the journal happens to a live epoch, or is done by a job that is
not over. -/
theorem Change.warranted (c : Change w u) (hw : w.Sound) :
    ∃ os, u.occurrences = w.occurrences ++ os ∧ ∀ o ∈ os, w.Warranted o := by
  have hooked : ∀ {i : EpochId} {t : TaskId} {call : HookCall}, w.Live i →
      ∀ o ∈ w.hookTrace i t call, w.Warranted o := by
    intro i t call hi o ho
    obtain ⟨p, rfl⟩ := w.mem_hookTrace i t ho
    exact .of_live rfl rfl hi
  cases c with
  | aside h =>
    obtain ⟨os, hos, hall⟩ := h.occurrences
    exact ⟨os, hos, fun o ho => .of_isAside (hall o ho)⟩
  | code ht hth h => exact h.warranted hw ht hth
  | @welcomed t e _ live x ht =>
    have here : w.Live e := .task ht rfl rfl
    refine ⟨w.hookTrace e t (.join live) ++ [.log none (.tempJoined live),
      .started e x.ticket t .seed], by simp [World.assign], List.forall_mem_append.2
        ⟨hooked here, List.forall_mem_cons.2 ⟨.of_none rfl rfl, ?_⟩⟩⟩
    exact List.forall_mem_singleton.2 (.of_live rfl rfl here)
  | @lost t e _ live x ht =>
    have here : w.Live e := .task ht rfl rfl
    exact ⟨_, occurrences_recordAll _ _, List.forall_mem_append.2
      ⟨hooked here, List.forall_mem_singleton.2 (.of_live rfl rfl here)⟩⟩
  | claimed ht =>
    exact ⟨_, occurrences_record _ _,
      List.forall_mem_singleton.2 (.of_live rfl rfl (.task ht rfl rfl))⟩
  | @finished t e _ _ _ _ _ _ ht _ hos =>
    have here : w.Live e := .task ht rfl rfl
    refine ⟨_, occurrences_recordAll _ _, List.forall_mem_cons.2 ⟨.of_live rfl rfl here, ?_⟩⟩
    obtain ⟨_, rfl⟩ | ⟨p, _, rfl⟩ := hos
    · simp
    · exact List.forall_mem_cons.2 ⟨.of_none rfl rfl, hooked here⟩
  | @retired t e ht =>
    have here : w.Live e := .task ht rfl rfl
    exact ⟨_, occurrences_recordAll _ _, List.forall_mem_cons.2 ⟨.of_none rfl rfl, hooked here⟩⟩
  | @flushed t e ht =>
    refine ⟨_, occurrences_recordAll _ _, fun o ho => ?_⟩
    obtain ⟨⟨tier, x⟩, _, rfl⟩ := List.mem_map.1 ho
    exact .of_live rfl rfl (.task ht rfl rfl)
  | tookIn ht =>
    exact ⟨_, occurrences_record _ _,
      List.forall_mem_singleton.2 (.of_live rfl rfl (.task ht rfl rfl))⟩
  | collected ht hs =>
    refine ⟨_, occurrences_record _ _,
      List.forall_mem_singleton.2 (.of_live rfl rfl (.task ht rfl ?_))⟩
    obtain rfl | rfl := hs <;> rfl
  | discarded ht =>
    exact ⟨_, occurrences_record _ _,
      List.forall_mem_singleton.2 (.of_live rfl rfl (.task ht rfl rfl))⟩
  | _ => exact ⟨[], (List.append_nil _).symm, by simp⟩

/-- Who works for an epoch and is not over belongs to a live one already. -/
theorem Change.live (c : Change w u) {task : Task ν} (hu : u.tasks[t]? = some task)
    (hh : task.home? = some e) (ho : task.isOver = false) : w.Live e := by
  have set : ∀ {v : World ν} {j : TaskId} {old new : Task ν}, w.tasks[j]? = some old →
      (v.setTask j new).tasks[t]? = some task → new.home? = old.home? → old.isOver = false →
      v.tasks = w.tasks → w.Live e := by
    intro v j old new hj ht hhome hover hv
    obtain ⟨rfl, rfl⟩ | ⟨_, ht⟩ := getElem?_setTask_cases ht
    · exact .task hj (hhome.symm.trans hh) hover
    · exact .task (hv ▸ ht) hh ho
  have fresh : ∀ {i : EpochId}, task ∈ crew w.settings i → i = e := by
    intro i hm
    obtain ⟨_, _, rfl⟩ | ⟨_, rfl⟩ := mem_crew.1 hm <;> exact Option.some.inj hh
  cases c with
  | aside h => exact .task (h.tasks ▸ hu) hh ho
  | posted =>
    obtain ⟨_, rfl⟩ | hold := getElem?_spawn_cases hu
    · cases hh
    · exact .task hold hh ho
  | @code w' j old th th' hj hth h =>
    obtain ⟨_, rfl⟩ | ⟨_, hnew⟩ := getElem?_setTask_cases hu
    · obtain ⟨_, _, _, _, rfl⟩ | ⟨_, _, rfl, _⟩ | rfl := Task.thread?_eq_some hth
      · exact .task hj hh rfl
      · exact .task hj hh rfl
      · cases hh
    · cases h with
      | launched =>
        obtain ⟨_, hm⟩ | hold := getElem?_launch_cases hnew
        · exact .next (fresh hm).symm
        · exact .task hold hh ho
      | hired job _ _ _ hc =>
        obtain ⟨_, rfl⟩ | hold := getElem?_spawn_cases hnew
        · exact .current (Option.some.inj hh ▸ hc)
        · exact .task hold hh ho
      | aside h => exact .task (h.tasks ▸ hnew) hh ho
      | _ => exact .task (by simpa [handOver, giveUp] using hnew) hh ho
  | brokenOff hj =>
    obtain ⟨_, rfl⟩ | ⟨_, hold⟩ := getElem?_setTask_cases hu
    · cases hh
    · exact .task hold hh ho
  | welcomed hj =>
    rw [World.assign, tasks_record] at hu
    exact set hj hu rfl rfl (by simp)
  | claimed hj =>
    rw [World.assign, tasks_record] at hu
    exact set hj hu rfl rfl rfl
  | quit hj hq =>
    refine set hj hu rfl ?_ rfl
    obtain ⟨_, rfl, _⟩ | ⟨rfl, _⟩ := hq <;> rfl
  | shut hj hs =>
    refine set hj hu rfl ?_ rfl
    obtain rfl | rfl := hs <;> rfl
  | collected hj hs =>
    refine set hj hu rfl ?_ rfl
    obtain rfl | rfl := hs <;> rfl
  | expecting hj => exact set hj hu rfl rfl rfl
  | lost hj => exact set hj hu rfl rfl (by simp)
  | finished hj => exact set hj hu rfl rfl (by simp)
  | retired hj => exact set hj hu rfl rfl (by simp)
  | flushed hj => exact set hj hu rfl rfl (by simp)
  | began hj => exact set hj hu rfl rfl rfl
  | left hj => exact set hj hu rfl rfl rfl
  | dispatching hj => exact set hj hu rfl rfl rfl
  | woken hj => exact set hj hu rfl rfl rfl
  | tookIn hj => exact set hj hu rfl rfl rfl
  | discarding hj => exact set hj hu rfl rfl rfl
  | discarded hj => exact set hj hu rfl rfl rfl
  | dispersed hj => exact set hj hu rfl rfl rfl

/-- An epoch whose tasks are all over is deserted. -/
theorem deserted_of_forall (h : ∀ (t : TaskId) (task : Task ν), w.tasks[t]? = some task →
    task.home? = some e → task.isOver = true) : w.deserted e = true := by
  rw [deserted, Array.all_eq_true]
  intro t ht
  have hover := h t w.tasks[t] (Array.getElem?_eq_getElem ht)
  by_cases hh : w.tasks[t].home? = some e
  · simp [hover hh]
  · simp [hh]

/-- No drain of an epoch is under way if none counts. -/
theorem total_drains_eq_zero_iff : w.total (Task.drains e) = 0 ↔ ¬ w.Draining e := by
  constructor
  · rintro hz ⟨t, task, th, n, ht, hth, hm⟩
    obtain ⟨above, below, heq⟩ := List.append_of_mem hm
    have hd : w.DrainsAt e t n below th.body :=
      ⟨th, thread?_eq_some.2 ⟨task, ht, hth⟩, rfl, above, heq.symm⟩
    have := hd.total_pos
    omega
  · intro hd
    refine total_eq_zero w _ fun t task ht => ?_
    cases hth : task.thread? with
    | none => simp [Task.drains, hth]
    | some th =>
      rw [Task.drains_of_thread? hth, List.countP_eq_zero]
      rintro (⟨i, n⟩ | _) hm hdrains
      · obtain rfl : i = e := by simpa using hdrains
        exact hd ⟨t, task, th, n, ht, hth, hm⟩
      · cases hdrains

/-- Nothing may happen in epoch `e` any more: it is closed, its tasks are over, and nobody drains
it. -/
structure Spent (w : World ν) (e : EpochId) : Prop where
  closed : (w.epoch e).closed = true
  deserted : w.deserted e = true
  drained : ¬ w.Draining e

/-- A spent epoch is not live. -/
theorem Spent.not_live (h : w.Spent e) (hw : w.Sound) : ¬ w.Live e := by
  rintro (⟨ht, hh, ho⟩ | hd | hc | rfl)
  · exact absurd ((isOver_of_deserted h.deserted ht hh).symm.trans ho) (by decide)
  · exact h.drained hd
  · exact absurd ((hw.current_open e hc).symm.trans h.closed) (by decide)
  · exact Nat.lt_irrefl _ (lt_of_closed h.closed)

/-- The jobs of a spent epoch do nothing any more. -/
theorem Spent.not_speaks (h : w.Spent e) (hw : Evolved settings hook w) (ha : w.AcceptedBy e k) :
    ¬ w.Speaks k := by
  have gone := h.not_live hw.sound
  rintro (⟨ht, hr⟩ | ⟨ht, hth, hm⟩)
  · obtain rfl := hw.ledger.home_of_running ht hr ha
    obtain ⟨kind, source, th, rfl⟩ := Task.running?_eq_some hr
    exact gone (.task ht rfl rfl)
  · obtain ⟨i, hi, ⟨n, hn⟩ | ⟨state, rfl⟩⟩ := hw.drained.callback ht hth hm
    · obtain rfl := hw.ledger.eq_of_abandoned ha hi
      exact gone (.draining ⟨_, _, _, n, ht, hth, hn⟩)
    · obtain rfl := hw.ledger.eq_of_abandoned ha hi
      refine gone (.task ht rfl ?_)
      cases state <;> simp [Task.thread?, Task.isOver] at hth ⊢

/-- A spent epoch stays so. -/
theorem Change.spent (c : Change w u) (hw : w.Sound) (h : w.Spent e) : u.Spent e := by
  have gone := h.not_live hw
  have hclosed := c.grows.closed e (lt_of_closed h.closed) h.closed
  refine ⟨hclosed, deserted_of_forall fun t task hu hh => ?_, ?_⟩
  · by_contra ho
    exact gone (c.live hu hh (Bool.not_eq_true _ ▸ ho))
  · have hle := c.drains_le hw e
    rw [h.closed, hclosed, total_drains_eq_zero_iff.2 h.drained] at hle
    rw [← total_drains_eq_zero_iff]
    omega

/-- What was booked stays so. -/
theorem Grows.booked (h : Grows w u) {b : Booking} (hb : b ∈ w.books) : b ∈ u.books := by
  obtain ⟨o, ho, hb⟩ := mem_books_iff.1 hb
  exact mem_books (h.mem ho) hb

/-- A job that was accepted stays so. -/
theorem Grows.acceptedBy (h : Grows w u) (ha : w.AcceptedBy e k) : u.AcceptedBy e k := h.booked ha

/-- Whatever happens once an epoch is spent is not about it, and is not done by a job of it. -/
theorem Changes.silent (h : Changes w v) (hw : Evolved settings hook w) (hs : w.Spent e) :
    v.Spent e ∧ ∃ os, v.occurrences = w.occurrences ++ os ∧ ∀ o ∈ os, o.about? ≠ some e ∧
      ∀ k, o.author? = some k → ¬ w.AcceptedBy e k := by
  induction h with
  | refl => exact ⟨hs, [], (List.append_nil _).symm, by simp⟩
  | @tail v x before c ih =>
    obtain ⟨hv, os, hos, hall⟩ := ih
    have ev := hw.changes before
    obtain ⟨os', hos', hall'⟩ := c.warranted ev.sound
    refine ⟨c.spent ev.sound hv, os ++ os', by rw [hos', hos, List.append_assoc],
      List.forall_mem_append.2 ⟨hall, fun o ho => ⟨fun hi => ?_, fun k hk ha => ?_⟩⟩⟩
    · exact hv.not_live ev.sound ((hall' o ho).1 e hi)
    · exact hv.not_speaks ev ((Changes.grows before).acceptedBy ha) ((hall' o ho).2 k hk)

section Farewell

/-- No call of the hook by a worker of epoch `e` panicked. -/
def Quiet (w : World ν) (e : EpochId) : Prop :=
  ∀ (t : TaskId) (call : HookCall) (p : Panic), .hook e t call (some p) ∉ w.occurrences

/-- A calm hook never panics as a worker calls it. -/
theorem Change.panic_mem (c : Change w u) (calm : Calm w.hook) {call : HookCall} {p : Panic}
    (hm : .hook e t call (some p) ∈ u.occurrences) :
    .hook e t call (some p) ∈ w.occurrences := by
  have hooked : ∀ i j other, .hook e t call (some p) ∉ w.hookTrace i j other := by
    intro i j other ho
    unfold hookTrace at ho
    split at ho
    · cases ho
    · rename_i f hf
      have heq := List.mem_singleton.1 ho
      rw [calm f hf] at heq
      cases heq
  cases c with
  | aside ha => exact ha.mem hm rfl
  | code _ _ h => exact h.hook_mem hm
  | finished _ _ hos =>
    obtain ⟨_, rfl⟩ | ⟨p, _, rfl⟩ := hos <;> simpa [hooked] using hm
  | _ => simpa [World.assign, takeIn, shutIntake, hooked] using hm

/-- Every epoch is quiet if the hook is calm. -/
theorem Evolved.quiet (h : Evolved settings hook w) (calm : Calm hook) (e : EpochId) :
    w.Quiet e := by
  induction h with
  | opened =>
    intro t call p hm
    rw [occurrences_launch] at hm
    simp [occurrences] at hm
  | next h c ih => exact fun t call p hm => ih t call p (c.panic_mem (h.same.2 ▸ calm) hm)

/-- No call that a worker of a quiet epoch made panicked. -/
theorem Evolved.isCalm_of_quiet (h : Evolved settings hook w) (hq : w.Quiet e)
    {kind : WorkerKind} {state : WorkerState ν} (ht : w.tasks[t]? = some (.worker e kind state)) :
    History.isCalm (w.told t) = true := by
  rw [History.isCalm, List.all_eq_true]
  intro c hc
  obtain ⟨o, ho, hcall⟩ := mem_picked.1 hc
  cases o with
  | hook i j call panic =>
    simp only [Occurrence.callBy?, Option.ite_none_right_eq_some, Option.some.injEq] at hcall
    obtain ⟨rfl, rfl⟩ := hcall
    obtain ⟨_, _, hi⟩ := h.worker_of_hook ho
    cases ht.symm.trans hi
    cases panic with
    | none => rfl
    | some p => exact absurd ho (hq j call p)
  | _ => cases hcall

/-- All tasks of a deserted epoch are over. -/
theorem those_eq_empty_of_deserted (h : w.deserted e = true) {p : TaskId → Task ν → Bool}
    (hp : ∀ t task, p t task = true → task.home? = some e ∧ task.isOver = false) :
    w.those p = ∅ := by
  rw [Finset.eq_empty_iff_forall_notMem]
  intro t hm
  obtain ⟨task, ht, hpt⟩ := mem_those.1 hm
  obtain ⟨hh, ho⟩ := hp t task hpt
  exact absurd ((isOver_of_deserted h ht hh).symm.trans ho) (by decide)

/-- If the hook was quiet, all workers of a deserted epoch that joined have left, and have given
their places back, but for those that the clock ended. -/
theorem Evolved.joins_of_deserted (h : Evolved settings hook w) (hd : w.deserted e = true)
    (hq : w.Quiet e) : (hook.isSome → w.joins e = w.leaves e + (w.overrun e).card) ∧
      (w.epoch e).temps = (w.overrun e).card := by
  have calm : ∀ t kind state, w.tasks[t]? = some (.worker e kind state) →
      History.isCalm (w.told t) = true := fun t kind state ht => h.isCalm_of_quiet hq ht
  have temp : ∀ {task : Task ν}, task.isTemp e = true → task.home? = some e := by
    rintro (⟨home, _ | _, state⟩ | _ | _) ht <;> simp [Task.isTemp, Task.home?] at ht ⊢
    exact ht
  have joined : w.joined e = ∅ := by
    refine those_eq_empty_of_deserted hd fun t task hp => ?_
    rw [Bool.and_eq_true] at hp
    refine ⟨temp hp.1, ?_⟩
    rcases task with ⟨home, kind, _ | _ | _ | _ | _ | _⟩ | _ | _ <;>
      simp [Task.isInService, Task.isOver] at hp ⊢
  have alive : w.alive e = ∅ := by
    refine those_eq_empty_of_deserted hd fun t task hp => ?_
    simp only [Bool.and_eq_true, Bool.not_eq_true'] at hp
    exact ⟨temp hp.1, hp.2⟩
  have leaked : w.leaked e = ∅ := by
    rw [Finset.eq_empty_iff_forall_notMem]
    intro t hm
    obtain ⟨task, ht, hp⟩ := mem_those.1 hm
    rcases task with ⟨home, _ | _, state⟩ | _ | _ <;> simp [Task.isTemp] at hp
    obtain ⟨⟨rfl, _⟩, hs⟩ := hp
    simp [History.isStruck_of_isCalm (calm t _ _ ht)] at hs
  refine ⟨fun hh => ?_, ?_⟩
  · rw [h.joins_eq hh calm, joined, Finset.card_empty, Nat.add_zero]
  · rw [h.housed.count, h.card_keepers, alive, leaked, Finset.card_empty,
      Nat.zero_add]

/-- The temporary workers of an epoch, whether they are over or not. -/
def temporaries (w : World ν) (e : EpochId) : Finset TaskId := w.those fun _ task => task.isTemp e

/-- If the hook was quiet, each temporary worker of a deserted epoch has joined once, and nobody
else has. -/
theorem Evolved.joins_eq_card (h : Evolved settings hook w) (hd : w.deserted e = true)
    (hq : w.Quiet e) (hh : hook.isSome) : w.joins e = (w.temporaries e).card := by
  have each : ∀ t ∈ w.those fun _ => Task.worksFor e,
      ((w.told t).countP fun c => c.1.isJoin) = if t ∈ w.temporaries e then 1 else 0 := by
    intro t ht
    obtain ⟨task, htask, hp⟩ := mem_those.1 ht
    rcases task with ⟨home, kind, state⟩ | _ | _
    · obtain rfl : home = e := by simpa [Task.worksFor] using hp
      have hover := isOver_of_deserted hd htask rfl
      cases state with
      | gone crashed =>
        have ended : Ended hook w.Untimed kind crashed (w.told t) := h.tells htask
        have hmem : t ∈ w.temporaries home ↔
            (Task.worker home kind (.gone crashed) : Task ν).isTemp home = true :=
          mem_those_of_task htask
        simp only [ended.countP_isJoin hh (h.isCalm_of_quiet hq htask), hmem]
        cases kind <;> simp [Task.isTemp]
      | _ => cases hover
    · cases hp
    · cases hp
  have sub : w.temporaries e ⊆ w.those fun _ => Task.worksFor e := by
    intro t ht
    obtain ⟨task, htask, hp⟩ := mem_those.1 ht
    refine mem_those.2 ⟨task, htask, ?_⟩
    rcases task with ⟨home, _ | _, state⟩ | _ | _ <;> first | exact hp | cases hp
  rw [joins, h.countP_isCall, Finset.sum_congr rfl each, Finset.sum_ite_mem,
    Finset.inter_eq_right.2 sub, ← Finset.card_eq_sum_ones]

end Farewell

/-- What happened to a job is one of its places. -/
theorem mem_places_of_mem {o : Occurrence ν} (ho : o ∈ w.occurrences) {p : Place}
    (hp : o.place? k = some p) : p ∈ w.places k :=
  List.mem_append_right _ (List.mem_filterMap.2 ⟨o, ho, hp⟩)

/-- Nothing is queued in a spent epoch. -/
theorem Spent.stock_eq_zero (h : w.Spent e) (hw : Evolved settings hook w) : w.stock e k = 0 := by
  have hqueue : (w.epoch e).queue = [] := by
    by_contra hne
    exact h.drained (hw.drained.draining e h.closed hne)
  rw [stock, entries_of_deserted h.deserted hw.manned hw.dispatched, hqueue]
  rfl

/-- A job that a spent epoch accepted was begun or abandoned, if the hook is calm. -/
theorem Spent.started_add_abandoned (h : w.Spent e) (hw : Evolved settings hook w)
    (calm : Calm hook) (ha : w.AcceptedBy e k) :
    w.books.count (.started e k) + w.books.count (.abandoned e k) = 1 := by
  have hstock : w.stock e k = 0 := h.stock_eq_zero hw
  have hholders := holders_of_deserted h.deserted k
  have hrunners := w.runners_le_holders e k
  have hlost : w.books.count (.lost e k) = 0 := List.count_eq_zero.2 (hw.not_lost calm e k)
  have haccepted := hw.ledger.count_accepted ha e
  rw [if_pos rfl] at haccepted
  have hkept := hw.ledger.kept e k
  have hbegun := hw.ledger.begun e k
  omega

/-- A job that a spent epoch accepted was finished or abandoned, once and not both, or it was
lost. -/
theorem Spent.places (h : w.Spent e) (hw : Evolved settings hook w) (ha : w.AcceptedBy e k) :
    w.places k = [.finished e] ∨ w.places k = [.abandoned e] ∨
      w.places k = [] ∧ w.LostBy e k := by
  obtain ⟨p, hp, he⟩ | ⟨hn, hl⟩ := hw.ledger.places_of_accepted ha
  case inr => exact .inr (.inr ⟨hn, hw.papers.lostBy hl⟩)
  have hcount := w.countP_places e k
  rw [hp, h.stock_eq_zero hw, holders_of_deserted h.deserted] at hcount
  simp only [List.countP_singleton, he, decide_true, if_true] at hcount
  have only : ∀ {q : Place}, q ∈ w.places k → w.places k = [q] := by
    intro q hq
    rw [hp, List.mem_singleton] at hq
    rw [hp, hq]
  obtain hpos | hpos : 0 < w.books.count (.finished e k) ∨ 0 < w.books.count (.abandoned e k) := by
    omega
  · obtain ⟨ending, ho⟩ := finished_mem_books.1 (List.count_pos_iff.1 hpos)
    exact .inl (only (mem_places_of_mem ho (by simp [Occurrence.place?])))
  · have ho := abandoned_mem_books.1 (List.count_pos_iff.1 hpos)
    exact .inr (.inl (only (mem_places_of_mem ho (by simp [Occurrence.place?]))))

section Return

variable {task : Task ν} {th : Thread ν} {timeout : Duration} {done late gone : ν}

/-- The next step of task `t` is the return, in time, of the shutdown with which it closed epoch
`e`: it logs that the shutdown is complete and answers so. -/
def ReturnsOk (v : World ν) (e : EpochId) (t : TaskId) : Prop :=
  ∃ task th timeout done late gone, v.tasks[t]? = some task ∧ task.thread? = some th ∧
    th.act? = some (.shutdown timeout done late gone) ∧
      (th.wait = .closing e ∨ ∃ deadline, th.wait = .exits e deadline) ∧
        v.occurrences ++ [.log none .shutdownComplete, .note task.author? done] <+:
          (v.step t).occurrences

/-- An answer comes before whatever letting go of the pool leads to. -/
theorem occurrences_conclude (hw : w.Sound) (a : Option Nat) (th : Thread ν) (answer : ν) :
    w.occurrences ++ [.note a answer] <+: (w.conclude a th answer).2.occurrences := by
  rw [← occurrences_record]
  exact (shifts_letGo (t := 0) (a := a) th.next (hw.record (.note a answer))).grows.occurrences

/-- A shutdown that finds tasks of its epoch left does not say that it is complete. -/
theorem occurrences_awaitExits (hw : w.Sound) (a : Option Nat) (deadline : Nat)
    (hd : w.deserted e = false) {os : List (Occurrence ν)} :
    ¬ w.occurrences ++ .log none .shutdownComplete :: os <+:
      (w.awaitExits a th e deadline timeout done late).2.occurrences := by
  intro hcomplete
  simp only [awaitExits, hd, Bool.false_eq_true, if_false] at hcomplete
  split at hcomplete
  · have hlate := occurrences_conclude (hw.record (.log none (.shutdownTimedOut timeout))) a th late
    rw [occurrences_record, List.append_assoc] at hlate
    have hsame := List.prefix_or_prefix_of_prefix hcomplete hlate
    simp [List.prefix_append_right_inj] at hsame
  · have := hcomplete.length_le
    simp at this

/-- A shutdown returns in time only if all tasks of its epoch are over. -/
theorem ReturnsOk.deserted (h : v.ReturnsOk e t) (hv : v.Sound) : v.deserted e = true := by
  obtain ⟨task, th, timeout, done, late, gone, ht, hth, hact, hwait, hcomplete⟩ := h
  obtain ⟨hl, rest, ha⟩ := Thread.acts_of_shutdown hact
  by_contra hd
  rw [Bool.not_eq_true] at hd
  have ho := Thread.isOver_of_act? hact
  by_cases hr : v.threadReady t th = true
  · rw [(step_of_thread ht hth hr ho).2, occurrences_setTask] at hcomplete
    obtain hwait | ⟨deadline, hwait⟩ := hwait <;>
      simp only [stepThread, hl, ha, stepAct, hwait] at hcomplete <;>
      exact occurrences_awaitExits hv task.author? _ hd hcomplete
  · have still : v.ready t = false := by
      obtain ⟨_, _, _, _, rfl⟩ | ⟨_, _, rfl, rfl⟩ | rfl := Task.thread?_eq_some hth
      · simpa [ready, ht] using hr
      · cases ha
      · simpa [ready, ht, ho] using hr
    rw [step_of_not_ready v t still] at hcomplete
    have := hcomplete.length_le
    simp at this

/-- As soon as they are, its next step is the return. -/
theorem returnsOk_of_deserted (hv : v.Sound) (ht : v.tasks[t]? = some task)
    (hth : task.thread? = some th) (hact : th.act? = some (.shutdown timeout done late gone))
    (hwait : th.wait = .closing e ∨ ∃ deadline, th.wait = .exits e deadline)
    (hd : v.deserted e = true) : v.ReturnsOk e t := by
  refine ⟨task, th, timeout, done, late, gone, ht, hth, hact, hwait, ?_⟩
  obtain ⟨hl, rest, ha⟩ := Thread.acts_of_shutdown hact
  have hready : v.threadReady t th = true := by
    obtain hwait | ⟨deadline, hwait⟩ := hwait <;> simp [threadReady, bodyReady, hwait, hd]
  have hanswer :=
    occurrences_conclude (hv.record (.log none .shutdownComplete)) task.author? th done
  rw [occurrences_record, List.append_assoc] at hanswer
  rw [(step_of_thread ht hth hready (Thread.isOver_of_act? hact)).2, occurrences_setTask]
  obtain hwait | ⟨deadline, hwait⟩ := hwait <;>
    simpa only [stepThread, hl, ha, stepAct, hwait, awaitExits, hd, if_true, World.log,
      List.singleton_append] using hanswer

/-- A shutdown that returns has left its drain behind. -/
theorem ReturnsOk.layers_eq_nil (h : v.ReturnsOk e t) (ht : v.thread? t = some th) :
    th.layers = [] := by
  obtain ⟨task, th', _, _, _, _, htask, hth, hact, _⟩ := h
  obtain rfl := Option.some.inj ((thread?_eq_some.2 ⟨task, htask, hth⟩).symm.trans ht)
  exact (Thread.acts_of_shutdown hact).1

/-- A shutdown of a running pool closes its epoch, which it then drains. -/
theorem step_of_retiring (hw : w.Sound) (ht : w.tasks[t]? = some task)
    (hth : task.thread? = some th) (h : th.act? = some (.shutdown timeout done late gone))
    (hwait : th.wait = .nothing) (hc : w.current = some e) (hh : w.handles ≠ 0) :
    w.step t = (({ w with handles := w.handles + 1 } : World ν).stop e).setTask t
      (task.withThread { th with layers := [.drain e 0], wait := .closing e }) := by
  obtain ⟨hl, rest, ha⟩ := Thread.acts_of_shutdown h
  have hr : w.running = true := by rw [hw.running_eq, hc]; rfl
  have hready : w.threadReady t th = true := by simp [threadReady, bodyReady, hwait, ha]
  have hretire : ({ w with handles := w.handles + 1 } : World ν).retire = (some e,
      { w with handles := w.handles + 1, running := false, current := none }) :=
    retire_of_running hr hc
  have hstep : w.stepThread t task.author? th =
      ({ th with layers := [.drain e 0], wait := .closing e },
        ({ w with handles := w.handles + 1 } : World ν).stop e) := by
    simp only [stepThread, hl, ha, stepAct, hwait]
    rw [if_neg hh, hretire]
    rfl
  rw [(step_of_thread ht hth hready (Thread.isOver_of_act? h)).2, hstep]

/-- A task whose body has acts to do is no dispatcher, so it runs the code that is put into it. -/
theorem thread?_withThread_of_acts (hth : task.thread? = some th) (ha : th.body.acts ≠ [])
    (th' : Thread ν) : (task.withThread th').thread? = some th' := by
  obtain ⟨_, _, _, _, rfl⟩ | ⟨_, _, rfl, rfl⟩ | rfl := Task.thread?_eq_some hth
  · rfl
  · exact absurd rfl ha
  · rfl

/-- A shutdown of a running pool closes the epoch and begins to drain it. -/
theorem drainsAt_of_shutdown (hw : w.Sound) (ht : w.tasks[t]? = some task)
    (hth : task.thread? = some th) (h : th.act? = some (.shutdown timeout done late gone))
    (hwait : th.wait = .nothing) (hc : w.current = some e) (hh : w.handles ≠ 0) :
    ((w.step t).epoch e).closed = true ∧ (w.step t).DrainsAt e t 0 [] th.body := by
  obtain ⟨-, rest, ha⟩ := Thread.acts_of_shutdown h
  have hlt : t < w.tasks.size := (Array.getElem?_eq_some_iff.1 ht).1
  rw [step_of_retiring hw ht hth h hwait hc hh]
  constructor
  · rw [epoch_setTask, epoch_stop_self]
    exact hw.current_lt e hc
  · exact ⟨_, thread?_eq_some.2 ⟨_, getElem?_setTask_self _ _ _ hlt,
      thread?_withThread_of_acts hth (by simp [ha]) _⟩, rfl, List.suffix_rfl⟩

end Return

/-- Epoch `e` is wound up: whatever belongs to it has come to its end, and nothing more happens in
it. -/
structure WoundUp (w : World ν) (e : EpochId) : Prop where
  /-- Whoever worked for it is over. -/
  tasks : ∀ (t : TaskId) (task : Task ν), w.tasks[t]? = some task → task.home? = some e →
    task.isOver = true
  /-- None of its permanent workers is missing. -/
  permanent : ∀ i < w.settings.minWorkers, ∃ (t : TaskId) (crashed : Bool),
    w.tasks[t]? = some (.worker e (.permanent i) (.gone crashed))
  /-- Neither is its dispatcher, if it has one. -/
  dispatcher : w.settings.maxTemps.isSome → ∃ t : TaskId, w.tasks[t]? = some (.dispatcher e .gone)
  /-- A job that it accepted was finished or abandoned, once and not both, but for those whose
  worker the hook ended as it joined. -/
  jobs : ∀ k, w.AcceptedBy e k → w.places k = [.finished e] ∨ w.places k = [.abandoned e] ∨
    w.places k = [] ∧ w.LostBy e k
  /-- If the hook was quiet, whoever joined has left, but for those that the clock ended. -/
  joins : w.Quiet e → w.hook.isSome → w.joins e = w.leaves e + (w.overrun e).card
  /-- If it was, each temporary worker said first that it joins and last that it leaves, but for
  those. -/
  told : w.Quiet e → w.hook.isSome → ∀ (t : TaskId) (crashed : Bool),
    w.tasks[t]? = some (.worker e .temporary (.gone crashed)) →
      ∃ (live : Nat) (messages : List String),
        t ∉ w.overrun e ∧ (∃ remaining, w.told t = (.join live, none) ::
          messages.map (fun m => (.panicked m, none)) ++ [(.leave remaining, none)]) ∨
        t ∈ w.overrun e ∧ w.told t = (.join live, none) ::
          messages.map fun m => (.panicked m, none)
  /-- If it was, these alone keep their places. -/
  temps : w.Quiet e → (w.epoch e).temps = (w.overrun e).card
  /-- The clock ends nobody while it can show the end of an idle time. -/
  timed : (w.deadline? w.settings.idleTimeout).isSome → w.overrun e = ∅
  /-- It accepts no job any more. -/
  accepts : ∀ v k, Run w v → v.AcceptedBy e k → w.AcceptedBy e k
  /-- Nothing that happens any more is about it, and the code of its jobs does nothing any more. -/
  silent : ∀ v, Run w v → ∃ os, v.occurrences = w.occurrences ++ os ∧ ∀ o ∈ os,
    o.about? ≠ some e ∧ ∀ k, o.author? = some k → ¬ w.AcceptedBy e k

/-- A spent epoch is wound up. -/
theorem Spent.woundUp (hs : w.Spent e) (h : Reachable settings hook w) : w.WoundUp e := by
  have hw := h.evolved
  have he := lt_of_closed hs.closed
  have hover : ∀ {t : TaskId} {task : Task ν}, w.tasks[t]? = some task → task.home? = some e →
      task.isOver = true := isOver_of_deserted hs.deserted
  have silent : ∀ v, Run w v → ∃ os, v.occurrences = w.occurrences ++ os ∧ ∀ o ∈ os,
      o.about? ≠ some e ∧ ∀ k, o.author? = some k → ¬ w.AcceptedBy e k :=
    fun v r => ((hw.changes_of_run r).silent hw hs).2
  have farewell : w.Quiet e → _ := hw.joins_of_deserted hs.deserted
  refine ⟨fun t task => hover, fun i hi => ?_, fun hm => ?_, fun k => hs.places hw,
    fun hq hh => (farewell hq).1 (hw.same.2 ▸ hh), fun hq hh t crashed ht => ?_,
    fun hq => (farewell hq).2, fun ht => hw.overrun_eq_empty ?_ e, fun v k r ha => ?_, silent⟩
  · obtain ⟨t, state, ht⟩ := hw.manned.exists_permanent he hi
    have ho := hover ht rfl
    cases state with
    | gone crashed => exact ⟨t, crashed, ht⟩
    | _ => cases ho
  · obtain ⟨t, state, ht⟩ := hw.manned.exists_dispatcher he hm
    have ho := hover ht rfl
    cases state with
    | gone => exact ⟨t, ht⟩
    | _ => cases ho
  · have hc := hw.isCalm_of_quiet hq ht
    have ended : Ended hook w.Untimed .temporary crashed (w.told t) := hw.tells ht
    rw [overrun, mem_those_of_task ht, hc]
    obtain ⟨live, messages, ⟨rfl, hleft⟩ | ⟨rfl, hstays⟩⟩ := ended.told_eq hc (hw.same.2 ▸ hh)
    · exact ⟨live, messages, .inl ⟨by simp [Task.isCrashed], hleft⟩⟩
    · exact ⟨live, messages, .inr ⟨by simp [Task.isTemp, Task.isCrashed], hstays⟩⟩
  · rw [Untimed]
    exact Option.isSome_iff_ne_none.1 ht
  · obtain ⟨os, hos, hall⟩ := silent v r
    obtain ⟨o, ho, hb⟩ := mem_books_iff.1 ha
    rw [hos] at ho
    obtain hold | hnew := List.mem_append.1 ho
    · exact mem_books hold hb
    · have habout : o.about? = some e := by
        cases o <;> simp [Occurrence.booking?] at hb <;> simp [Occurrence.about?, hb]
      exact absurd habout (hall o hnew).1

/-- A shutdown that returns in time has wound its epoch up. Whatever state the pool is in when the
shutdown is called and whatever happens until it returns: all workers of the epoch and its
dispatcher are over by then; each job that was accepted was finished or abandoned once, unless the
hook ended the worker that was hired for it; temporary workers have joined and left in pairs, but
for those whose idle time the clock cannot show; and nothing of the epoch happens afterwards. -/
theorem woundUp_of_shutdown (h : Reachable settings hook w) (hc : w.current = some e)
    {task : Task ν} {th : Thread ν} (ht : w.tasks[t]? = some task) (hth : task.thread? = some th)
    {timeout : Duration} {done late gone : ν}
    (hact : th.act? = some (.shutdown timeout done late gone)) (hwait : th.wait = .nothing)
    (r : Run (w.step t) v) (hv : v.ReturnsOk e t) : (v.step t).WoundUp e := by
  have hw := h.evolved
  have hh : w.handles ≠ 0 := by
    intro hz
    have hr := hw.stopped_of_released hz
    rw [hw.sound.running_eq, hc] at hr
    cases hr
  obtain ⟨hclosed, hdrain⟩ := drainsAt_of_shutdown hw.sound ht hth hact hwait hc hh
  have hu := hw.changes ((Move.step w t).changes hw.sound)
  have later := hu.changes_of_run r
  have ev := hu.changes later
  have hreach : Reachable settings hook v := (h.move (.step w t)).run r
  have drained : ¬ v.Draining e := by
    obtain ⟨m, _, _, hd, _⟩ | ⟨_, hz⟩ := later.drainsAt hu hclosed hdrain
    · obtain ⟨th', ht', hl', _⟩ := hd.exists_layers
      exact absurd (hv.layers_eq_nil ht') hl'
    · exact total_drains_eq_zero_iff.1 hz
  have spent : v.Spent e :=
    ⟨(Changes.grows later).closed e (lt_of_closed hclosed) hclosed, hv.deserted ev.sound, drained⟩
  have last := (Move.step v t).changes ev.sound
  exact ((last.silent ev spent).1).woundUp (hreach.move (.step v t))

/-- A narrow pool whose idle time no clock can show, after a client submitted three jobs and the
temporary worker that was hired for the third one ran two of them. The client is about to shut it
down. -/
def parting : World Nat :=
  [1, 1, 1, 2, 2, 2, 2].foldl step
    (({ settings := patient, hook := some polite : World Nat }.launch).spawn
      (.client { body := ⟨List.replicate 3 (.submit ⟨[], .ok ()⟩ ⟨[], .ok ()⟩ 0 1 2) ++
        [.shutdown (.ofSeconds 1) 3 4 5], .ok ()⟩ }))

/-- The same pool as the shutdown is about to return. The job that was queued was abandoned and the
permanent worker has left. -/
def parted : World Nat := [1, 1, 1, 0, 0, 0].foldl step (parting.step 1)

/-- The shutdown returns, but the temporary worker that joined has not left and keeps its place. -/
theorem woundUp_of_shutdown_parted :
    Reachable patient (some polite) parting ∧ parting.current = some 0 ∧
      Run (parting.step 1) parted ∧ parted.ReturnsOk 0 1 ∧ (parted.step 1).joins 0 = 1 ∧
      (parted.step 1).leaves 0 = 0 ∧ ((parted.step 1).epoch 0).temps = 1 ∧
      (parted.step 1).overrun 0 = {2} ∧ (parted.step 1).WoundUp 0 := by
  have reachable : Reachable patient (some polite) parting :=
    (Reachable.launch _ ⟨by decide, by decide, by decide, by decide⟩).call _ [1, 1, 1, 2, 2, 2, 2]
  have run : Run (parting.step 1) parted := run_steps _ _
  have reachable' : Reachable patient (some polite) parted := (reachable.move (.step _ 1)).run run
  have current : parting.current = some 0 := by decide
  have calls : parting.tasks[1]? =
      some (.client ⟨[], ⟨[.shutdown (.ofSeconds 1) 3 4 5], .ok ()⟩, .nothing⟩) := rfl
  have waits : parted.tasks[1]? =
      some (.client ⟨[], ⟨[.shutdown (.ofSeconds 1) 3 4 5], .ok ()⟩, .closing 0⟩) := rfl
  have returns : parted.ReturnsOk 0 1 :=
    returnsOk_of_deserted reachable'.evolved.sound waits rfl rfl (.inl rfl)
      (by decide +kernel)
  exact ⟨reachable, current, run, returns, by decide +kernel, by decide +kernel,
    by decide +kernel, by decide +kernel,
    woundUp_of_shutdown reachable current calls rfl rfl rfl run returns⟩

end World

end WorkerPool
