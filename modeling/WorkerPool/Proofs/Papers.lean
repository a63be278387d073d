import WorkerPool.Proofs.Ledger

/-!
# Papers

Whatever a pool holds it holds for a reason that the journal tells: each job that is queued,
buffered, seeded, run or waiting in line is the one that was submitted with its ticket, a body that
runs is what is left of its job, and a job that was lost was the seed of a worker whose hook
panicked.
-/

namespace WorkerPool

variable {ν : Type}

/-- A submission that waits in line has drawn its ticket for the job that it submits. -/
def Thread.Registered (w : World ν) (th : Thread ν) : Prop :=
  ∀ e k (job : Job ν) accepted refused gone rest, th.wait = .inLine e k →
    th.body.acts = .submit job.run job.abandon accepted refused gone :: rest →
      .submitted k job ∈ w.occurrences

/-- What task `t` holds was submitted, and its body is what is left of its job. -/
structure Task.Papers (w : World ν) (t : TaskId) (task : Task ν) : Prop where
  seed : ∀ e kind live x, task = .worker e kind (.seeded live x) →
    .submitted x.ticket x.job ∈ w.occurrences ∧ .seeded e x.ticket t ∈ w.occurrences
  body : ∀ e kind source k th, task = .worker e kind (.busy source k th) →
    ∃ job, .submitted k job ∈ w.occurrences ∧ th.body.acts <:+ job.run.acts ∧
      th.body.ending = job.run.ending
  line : ∀ th, task.thread? = some th → th.Registered w

namespace World

/-- Whatever is held was submitted, and whatever was lost was a seed whose worker was ended. -/
structure Papers (w : World ν) : Prop where
  stock : ∀ e, ∀ x ∈ (w.epoch e).entries, .submitted x.ticket x.job ∈ w.occurrences
  tasks : w.EveryTask fun t task => task.Papers w t
  lost : ∀ e k t, .lost e k t ∈ w.occurrences → .seeded e k t ∈ w.occurrences ∧
    ∃ live p, .hook e t (.join live) (some p) ∈ w.occurrences

end World

open World

theorem Thread.Registered.mono {w u : World ν} {th : Thread ν} (h : th.Registered w)
    (g : Grows w u) : th.Registered u :=
  fun e k job accepted refused gone rest hw ha => g.mem (h e k job accepted refused gone rest hw ha)

theorem Thread.Registered.of_line? {w : World ν} {th : Thread ν} (h : th.wait.line? = none) :
    th.Registered w := by
  intro e k job accepted refused gone rest hw
  simp [hw, Wait.line?] at h

theorem Task.Papers.mono {w u : World ν} {t : TaskId} {task : Task ν} (h : task.Papers w t)
    (g : Grows w u) : task.Papers u t where
  seed e kind live x ht := (h.seed e kind live x ht).imp g.mem g.mem
  body e kind source k th ht := by
    obtain ⟨job, hs, hrest⟩ := h.body e kind source k th ht
    exact ⟨job, g.mem hs, hrest⟩
  line th hth := (h.line th hth).mono g

/-- A task that holds nothing and runs nothing needs no papers. -/
theorem Task.Papers.of_idle {w : World ν} {t : TaskId} {task : Task ν} (hh : task.held? = none)
    (hth : ∀ th, task.thread? = some th → th.wait.line? = none) : task.Papers w t where
  seed e kind live x ht := by
    subst ht
    cases hh
  body e kind source k th ht := by
    subst ht
    cases hh
  line th h := .of_line? (hth th h)

/-- A body that a worker begins is that of a job that was submitted. -/
theorem Task.Papers.begun {w : World ν} {t : TaskId} {e : EpochId} {kind : WorkerKind}
    {source : Source} {x : Entry ν} (h : .submitted x.ticket x.job ∈ w.occurrences) :
    (Task.worker e kind (.busy source x.ticket { body := x.job.run })).Papers w t where
  seed e' kind' live y hy := by simp at hy
  body e' kind' source' k th hb := by
    simp only [Task.worker.injEq, WorkerState.busy.injEq] at hb
    obtain ⟨rfl, rfl, rfl, rfl, rfl⟩ := hb
    exact ⟨x.job, h, List.suffix_refl _, rfl⟩
  line th hth := by
    obtain rfl : _ = th := by simpa [Task.thread?] using hth
    exact .of_line? rfl

namespace World

variable {w u : World ν}

/-- What grows without a new loss, a new task or a new job keeps its papers. -/
theorem Papers.grow (h : w.Papers) (g : Grows w u)
    (hs : ∀ e, ∀ x ∈ (u.epoch e).entries, x ∈ (w.epoch e).entries ∨
      .submitted x.ticket x.job ∈ u.occurrences)
    (ht : ∀ (t : TaskId) (task : Task ν), u.tasks[t]? = some task →
      w.tasks[t]? = some task ∨ task.Papers u t)
    (hl : ∀ e k t, .lost e k t ∈ u.occurrences → .lost e k t ∈ w.occurrences ∨
      .seeded e k t ∈ u.occurrences ∧ ∃ live p, .hook e t (.join live) (some p) ∈ u.occurrences) :
    u.Papers where
  stock e x hx := by
    rcases hs e x hx with hx | hx
    · exact g.mem (h.stock e x hx)
    · exact hx
  tasks t task htask := by
    rcases ht t task htask with ht | ht
    · exact (h.tasks t task ht).mono g
    · exact ht
  lost e k t hk := by
    rcases hl e k t hk with hk | hk
    · obtain ⟨hseeded, live, p, hhook⟩ := h.lost e k t hk
      exact ⟨g.mem hseeded, live, p, g.mem hhook⟩
    · exact hk

/-- A change of one epoch brings nothing into any that it does not bring into that one. -/
theorem mem_entries_modifyEpoch {e : EpochId} {f : Epoch ν → Epoch ν} {os : List (Occurrence ν)}
    (h : ∀ x ∈ (f (w.epoch e)).entries,
      x ∈ (w.epoch e).entries ∨ .submitted x.ticket x.job ∈ os) {i : EpochId} {x : Entry ν}
    (hx : x ∈ ((w.modifyEpoch e f).epoch i).entries) :
    x ∈ (w.epoch i).entries ∨ .submitted x.ticket x.job ∈ os := by
  obtain hi | ⟨rfl, hi⟩ := w.epoch_modifyEpoch_cases e f i
  · rw [hi] at hx
    exact .inl hx
  · rw [hi] at hx
    exact h x hx

section Code

variable {t : TaskId} {a : Option Nat} {th th' : Thread ν} {w' : World ν}

/-- Code only works off its body. -/
theorem Shift.suffix (h : Shift t a th w th' w') :
    th'.body.acts <:+ th.body.acts ∧ th'.body.ending = th.body.ending := by
  cases h with
  | deed => exact ⟨List.tail_suffix _, rfl⟩
  | paused => exact ⟨List.tail_suffix _, rfl⟩
  | answered => exact ⟨List.tail_suffix _, rfl⟩
  | _ => exact ⟨List.suffix_refl _, rfl⟩

/-- A submission in line stays registered, and one that joins has just drawn its ticket. -/
theorem Shift.registered (h : Shift t a th w th' w') (hr : th.Registered w) :
    th'.Registered w' := by
  have grows := h.grows
  cases h with
  | deed => exact .of_line? rfl
  | paused => exact .of_line? rfl
  | asleep => exact .of_line? rfl
  | awaiting => exact .of_line? rfl
  | answered => exact .of_line? rfl
  | granted => exact .of_line? rfl
  | gaveUp => exact .of_line? rfl
  | @halted e wait hrun hc hwait =>
    obtain rfl | ⟨rfl, _⟩ := hwait
    · exact hr.mono grows
    · exact .of_line? rfl
  | joined job hl ha =>
    intro e k other accepted refused gone rest hwait hacts
    obtain ⟨rfl, rfl⟩ : _ = e ∧ w.nextTicket = k := by simpa using hwait
    rw [ha, List.cons.injEq, Act.submit.injEq] at hacts
    obtain rfl : job = other := by
      cases job
      cases other
      simpa using ⟨hacts.1.1, hacts.1.2.1⟩
    simp
  | _ => exact hr.mono grows

/-- Code loses no job. -/
theorem Shift.lost_mem (h : Shift t a th w th' w') {e : EpochId} {k : Nat} {worker : TaskId}
    (hk : .lost e k worker ∈ w'.occurrences) : .lost e k worker ∈ w.occurrences := by
  cases h with
  | @deed d => cases d <;> simpa [Deed.traces] using hk
  | @callbackDeed _ d => cases d <;> simpa [Deed.traces] using hk
  | aside ha => exact ha.mem hk rfl
  | _ => simpa [hire, handOver, giveUp] using hk

/-- What an epoch holds after a shift it held before, or it was submitted. -/
theorem Shift.mem_entries (h : Shift t a th w th' w') (hr : th.Registered w) {e : EpochId}
    {x : Entry ν} (hx : x ∈ (w'.epoch e).entries) :
    x ∈ (w.epoch e).entries ∨ .submitted x.ticket x.job ∈ w'.occurrences := by
  have grows := h.grows
  cases h with
  | @abandoned i n rest y ep _ hd =>
    refine mem_entries_modifyEpoch (fun z hz => .inl ?_) hx
    exact (Epoch.perm_entries_of_drain hd).mem_iff.2 (List.mem_cons_of_mem _ hz)
  | halted =>
    refine mem_entries_modifyEpoch ?_ hx
    exact fun z hz => .inl hz
  | aside ha =>
    rw [epoch, ha.epochs, ← epoch] at hx
    exact .inl hx
  | queued job _ _ _ _ ho =>
    refine mem_entries_modifyEpoch (w := w.draw job) (fun z hz => ?_) hx
    rcases List.mem_cons.1 ((Epoch.perm_entries_of_placed ho).mem_iff.1 hz) with rfl | hz
    · exact .inr (by simp)
    · exact .inl hz
  | hired job =>
    refine mem_entries_modifyEpoch (w := w.draw job) ?_ hx
    exact fun z hz => .inl hz
  | handedOver job _ _ _ _ _ _ _ hf =>
    refine mem_entries_modifyEpoch (w := w.draw job) (fun z hz => ?_) hx
    have hp := Epoch.perm_entries_put (Intake.isFree_iff.1 hf).1 ⟨w.nextTicket, job⟩
    rcases List.mem_cons.1 (hp.mem_iff.1 hz) with rfl | hz
    · exact .inr (by simp [handOver])
    · exact .inl hz
  | joined job =>
    refine mem_entries_modifyEpoch (w := w.draw job) ?_ hx
    exact fun z hz => .inl hz
  | @granted job _ _ _ _ i k _ ha hwait =>
    refine mem_entries_modifyEpoch (fun z hz => ?_) hx
    simp only [Epoch.entries, Intake.put, List.mem_append, Option.mem_toList,
      Option.some.injEq] at hz ⊢
    obtain ((hz | hz) | rfl) | hz := hz
    · exact .inl (.inl (.inl (.inl hz)))
    · exact .inl (.inl (.inl (.inr hz)))
    · exact .inr (grows.mem (hr i k job _ _ _ _ hwait ha))
    · exact .inl (.inr hz)
  | gaveUp =>
    refine mem_entries_modifyEpoch (fun z hz => .inl ?_) hx
    simpa [Epoch.entries] using hz
  | _ => exact .inl (by simpa using hx)

/-- A task that code adds has papers. -/
theorem Shift.papers_of_new (h : Shift t a th w th' w') {i : TaskId} {task : Task ν}
    (hi : w'.tasks[i]? = some task) : w.tasks[i]? = some task ∨ task.Papers w' i := by
  cases h with
  | aside ha => exact .inl (by rwa [ha.tasks] at hi)
  | launched =>
    obtain ⟨_, hm⟩ | hi := getElem?_launch_cases hi
    · obtain ⟨_, _, rfl⟩ | ⟨_, rfl⟩ := mem_crew.1 hm
      · exact .inr (.of_idle rfl (by simp [Task.thread?]))
      · exact .inr (.of_idle rfl (by simp [Task.thread?]))
    · exact .inl hi
  | @hired job _ _ _ _ e =>
    obtain ⟨rfl, rfl⟩ | hi := getElem?_spawn_cases hi
    · refine .inr ⟨fun e' kind live x hx => ?_, by simp, by simp [Task.thread?]⟩
      simp only [Task.worker.injEq, WorkerState.seeded.injEq] at hx
      obtain ⟨rfl, _, _, rfl⟩ := hx
      simp [hire]
    · exact .inl hi
  | _ => exact .inl (by simpa [handOver, giveUp] using hi)

/-- Code keeps the papers of its own task. -/
theorem Shift.papers_withThread {task : Task ν} (h : Shift t task.author? th w th' w')
    (hth : task.thread? = some th) (hp : task.Papers w t) :
    (task.withThread th').Papers w' t := by
  have grows := h.grows
  refine ⟨fun e kind live x hx => ?_, fun e kind source k th'' hb => ?_, fun th'' hth'' => ?_⟩
  · obtain ⟨_, _, _, _, rfl⟩ | ⟨_, _, rfl, _⟩ | rfl := Task.thread?_eq_some hth <;> cases hx
  · obtain ⟨_, _, _, _, rfl⟩ | ⟨_, _, rfl, _⟩ | rfl := Task.thread?_eq_some hth
    · simp only [Task.withThread, Task.worker.injEq, WorkerState.busy.injEq] at hb
      obtain ⟨rfl, rfl, rfl, rfl, rfl⟩ := hb
      obtain ⟨job, hs, hsuffix, hend⟩ := hp.body _ _ _ _ _ rfl
      exact ⟨job, grows.mem hs, h.suffix.1.trans hsuffix, h.suffix.2.trans hend⟩
    · cases hb
    · cases hb
  · rw [h.thread?_withThread hth, Option.some.injEq] at hth''
    subst hth''
    exact h.registered (hp.line th hth)

/-- Code keeps all papers. -/
theorem Shift.papers {task : Task ν} (h : Shift t task.author? th w th' w')
    (ht : w.tasks[t]? = some task) (hth : task.thread? = some th) (hp : w.Papers) :
    (w'.setTask t (task.withThread th')).Papers := by
  have grows := h.grows.trans (.setTask w' t (task.withThread th'))
  have hpt := hp.tasks t task ht
  refine hp.grow grows (fun e x hx => h.mem_entries (hpt.line th hth) hx) (fun i other hi => ?_)
    fun e k i hk => .inl (h.lost_mem hk)
  obtain ⟨rfl, rfl⟩ | ⟨_, hi⟩ := getElem?_setTask_cases hi
  · exact .inr ((h.papers_withThread hth hpt).mono (.setTask _ _ _))
  · exact (h.papers_of_new hi).imp id fun hn => hn.mono (.setTask _ _ _)

end Code

/-- A task that is set anew with papers of its own keeps all papers. -/
theorem Papers.setTask (h : w.Papers) {v : World ν} (g : Grows w v) (hv : v.tasks = w.tasks)
    (hs : ∀ e, ∀ x ∈ (v.epoch e).entries, x ∈ (w.epoch e).entries)
    (hl : ∀ e k t, .lost e k t ∈ v.occurrences → .lost e k t ∈ w.occurrences ∨
      .seeded e k t ∈ v.occurrences ∧ ∃ live p, .hook e t (.join live) (some p) ∈ v.occurrences)
    {t : TaskId} {task : Task ν} (ht : task.Papers v t) : (v.setTask t task).Papers := by
  refine h.grow (g.trans (.setTask v t task)) (fun e x hx => .inl (hs e x hx))
    (fun i other hi => ?_) hl
  obtain ⟨rfl, rfl⟩ | ⟨_, hi⟩ := getElem?_setTask_cases hi
  · exact .inr (ht.mono (.setTask _ _ _))
  · exact .inl (hv ▸ hi)

/-- A task is set that has its papers while its epoch changes but takes no job in. -/
theorem Papers.setTask_of_written (h : w.Papers) {e : EpochId} (f : Epoch ν → Epoch ν)
    (os : List (Occurrence ν)) {t : TaskId} {task : Task ν}
    (hc : (f (w.epoch e)).closed = (w.epoch e).closed)
    (hsub : ∀ x ∈ (f (w.epoch e)).entries, x ∈ (w.epoch e).entries)
    (hos : ∀ i k j, Occurrence.lost i k j ∉ os)
    (ht : task.Papers ((w.modifyEpoch e f).recordAll os) t) :
    (((w.modifyEpoch e f).recordAll os).setTask t task).Papers := by
  refine h.setTask ((Grows.modifyEpoch w e f hc).trans (.recordAll _ os)) (by simp)
    (fun i x hx => ?_) (fun i k j hk => .inl (by simpa [hos] using hk)) ht
  rw [epoch_recordAll] at hx
  exact (@mem_entries_modifyEpoch _ _ _ _ [] (fun y hy => .inl (hsub y hy)) _ _ hx).resolve_right
    List.not_mem_nil

/-- Every elementary change keeps all papers. -/
theorem Change.papers (c : Change w u) (h : w.Papers) : u.Papers := by
  have still : ∀ {t : TaskId} {task : Task ν}, task.Papers w t → (w.setTask t task).Papers :=
    fun ht => h.setTask (.refl w) rfl (fun _ _ hx => hx) (fun _ _ _ hk => .inl hk) ht
  have idle : ∀ {v : World ν} {t : TaskId} {task : Task ν}, task.held? = none →
      task.thread? = none → task.Papers v t := fun hh hn => .of_idle hh (by simp [hn])
  cases c with
  | aside ha =>
    refine h.grow (.aside ha) (fun e x hx => .inl ?_) (fun t task ht => .inl (ha.tasks ▸ ht))
      fun e k t hk => .inl ?_
    · rwa [epoch, ha.epochs, ← epoch] at hx
    · exact ha.mem hk rfl
  | posted code =>
    refine h.grow (.spawn _ _) (fun e x hx => .inl hx) (fun t task ht => ?_) fun e k t hk => .inl hk
    obtain ⟨rfl, rfl⟩ | ht := getElem?_spawn_cases ht
    · exact .inr (.of_idle rfl (by simp [Task.thread?, Wait.line?]))
    · exact .inl ht
  | code ht hth hs => exact hs.papers ht hth h
  | brokenOff ht => exact still (.of_idle rfl (by simp [Task.thread?, Wait.line?]))
  | began ht => exact still (idle rfl rfl)
  | @welcomed t e kind live x ht =>
    have hx := ((h.tasks t _ ht).seed _ _ _ _ rfl).1
    have g := (Grows.recordAll w
      (w.hookTrace e t (.join live) ++ [.log none (.tempJoined live)])).trans
        (.record _ (.started e x.ticket t .seed))
    exact h.setTask g (by simp) (by simp)
      (fun i k j hk => .inl (by simpa [mem_hookTrace_iff] using hk))
      (.begun (g.mem hx))
  | @lost t e kind live x ht hh =>
    obtain ⟨hx, hseeded⟩ := (h.tasks t _ ht).seed _ _ _ _ rfl
    have g := Grows.recordAll w (w.hookTrace e t (.join live) ++ [.lost e x.ticket t])
    refine h.setTask g (by simp) (by simp) (fun i k j hk => ?_) (idle rfl rfl)
    simp only [occurrences_recordAll, List.mem_append, List.mem_singleton, mem_hookTrace_iff,
      reduceCtorEq, and_false, exists_false, false_or, Occurrence.lost.injEq] at hk
    rcases hk with hk | ⟨rfl, rfl, rfl⟩
    · exact .inl hk
    · obtain ⟨p, hp⟩ := hookTrace_of_panic w i j hh
      exact .inr ⟨g.mem hseeded, live, p, by simp [hp]⟩
  | @claimed t e kind alarm tier x ep ht _ hc =>
    have hmem : x ∈ (w.epoch e).entries := (Epoch.perm_entries_of_claim hc).mem_iff.2 (by simp)
    have hclosed := (Epoch.claim_frame hc).1
    exact h.setTask_of_written (fun _ => ep) [.started e x.ticket t (.tier tier)] hclosed
      (fun y hy => (Epoch.perm_entries_of_claim hc).mem_iff.2 (List.mem_cons_of_mem _ hy))
      (by simp) (.begun (by simpa using h.stock e x hmem))
  | @finished t e kind source k th os state ht hover hos hs =>
    have hn : ∀ i j n, Occurrence.lost i j n ∉ os := by
      intro i j n hm
      obtain ⟨_, rfl⟩ | ⟨p, _, rfl⟩ := hos
      · cases hm
      · simp [mem_hookTrace_iff] at hm
    refine h.setTask (.recordAll _ _) (by simp) (by simp)
      (fun i j n hk => .inl (by simpa [hn] using hk)) ?_
    obtain ⟨rfl, _⟩ | ⟨_, rfl, _⟩ | ⟨rfl, _⟩ := hs <;> exact idle rfl rfl
  | quit ht => exact still (idle rfl rfl)
  | left ht => exact still (idle rfl rfl)
  | @retired t e ht =>
    exact h.setTask_of_written _ _ rfl (fun x hx => hx) (by simp [mem_hookTrace_iff])
      (idle rfl rfl)
  | dispatching ht => exact still (idle rfl rfl)
  | @flushed t e ht =>
    have spec := Epoch.flushes_flush w.settings (w.epoch e)
    exact h.setTask_of_written (fun _ => ((w.epoch e).flush w.settings).epoch) _ spec.closed
      (fun x hx => spec.perm.mem_iff.1 hx) (by simp) (idle rfl rfl)
  | @woken t e ht =>
    exact h.setTask_of_written (fun ep => { ep with freed := false }) [] rfl (fun x hx => hx)
      (by simp) (idle rfl rfl)
  | @tookIn t e x intake ht _ hi =>
    exact h.setTask_of_written (fun ep => { ep with intake, backlog := ep.backlog ++ [x] })
      [.buffered e x.ticket] rfl
      (fun y hy => (Epoch.perm_entries_take hi).mem_iff.1 hy) (by simp) (idle rfl rfl)
  | @shut t e state ht hs =>
    exact h.setTask_of_written (fun ep => { ep with intake := ep.intake.close }) [] rfl
      (fun x hx => hx) (by simp) (idle rfl rfl)
  | @collected t e _ x intake ht _ hi =>
    exact h.setTask_of_written (fun ep => { ep with intake, backlog := ep.backlog ++ [x] })
      [.buffered e x.ticket] rfl (fun y hy => (Epoch.perm_entries_take hi).mem_iff.1 hy)
      (by simp) (idle rfl rfl)
  | expecting ht => exact still (idle rfl rfl)
  | discarding ht => exact still (.of_idle rfl (by simp [Task.thread?, Wait.line?]))
  | @discarded t e x rest ht hb =>
    refine h.setTask_of_written (fun ep => { ep with backlog := rest }) [.abandoned e x.ticket] rfl
      (fun y hy => ?_) (by simp) (.of_idle rfl (by simp [Task.thread?, Wait.line?]))
    simp only [Epoch.entries, hb, List.mem_append, List.mem_cons] at hy ⊢
    exact hy.imp id .inr
  | dispersed ht => exact still (idle rfl rfl)

/-- In every state that a pool comes to all papers are there. -/
theorem Evolved.papers {settings : Settings} {hook : Option Hook} (h : Evolved settings hook w) :
    w.Papers := by
  induction h with
  | opened =>
    refine ⟨fun e x hx => ?_, fun t task ht => ?_, fun e k t hk => ?_⟩
    · rw [epoch_launch] at hx
      simp [epoch, Epoch.entries] at hx
    · obtain ⟨_, hm⟩ | ht := getElem?_launch_cases ht
      · obtain ⟨_, _, rfl⟩ | ⟨_, rfl⟩ := mem_crew.1 hm
        · exact .of_idle rfl (by simp [Task.thread?])
        · exact .of_idle rfl (by simp [Task.thread?])
      · simp at ht
    · rw [occurrences_launch] at hk
      simp [occurrences] at hk
  | next _ c ih => exact c.papers ih

end World

end WorkerPool
