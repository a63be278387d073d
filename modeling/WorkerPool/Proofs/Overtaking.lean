import WorkerPool.Proofs.Saturation
import WorkerPool.Proofs.Servings

/-!
# Who overtakes whom in the backlog

The front of the backlog is the next job to be sent, and the job at the back takes its place. So a
job that stands behind others is overtaken by jobs that came later, and by one of those that came
before. This lasts for as long as there come as many jobs as are sent: once more have been sent than
have come the job stands in front, and nobody overtakes it any more. A dispatcher that gets a job
for each one that it sends never comes to those in between.
-/

namespace WorkerPool

namespace Serving

variable {l : List Serving} {row row' later : List Nat} {front x k : Nat}

/-- Nobody is sent before the front is. -/
theorem sentIn_eq_nil_of_front (h : serves? l (x :: row) = some row') (hx : x ∉ sentIn l) :
    sentIn l = [] := by
  induction l generalizing row with
  | nil => rfl
  | cons s l ih =>
    cases s with
    | handed j => exact ih h hx
    | received j => exact ih h hx
    | sent j =>
      obtain ⟨rest, hrow, -⟩ := serves?_sent.1 h
      obtain rfl := (List.cons.inj hrow).1
      exact absurd List.mem_cons_self hx

/-- What happens while a job waits behind others, with these jobs behind it at first. -/
structure Passing (front : Nat) (later : List Nat) (l : List Serving) : Prop where
  /-- First the front is sent, and then jobs that stood or came behind. -/
  sent : sentIn l = [] ∨ ∃ passers, sentIn l = front :: passers ∧
    ∀ k ∈ passers, k ∈ later ++ receivedIn l
  /-- At most one more is sent than stood or came behind. -/
  pace : (sentIn l).length ≤ later.length + (receivedIn l).length + 1
  /-- Once this is reached nobody is sent any more. -/
  last : ∀ l₁, l₁ <+: l → later.length + (receivedIn l₁).length < (sentIn l₁).length →
    sentIn l = sentIn l₁

/-- Behind others a job waits until more have been sent than stood or came behind it. -/
theorem passing_of_behind (h : serves? l (front :: row ++ x :: later) = some row')
    (hx : x ∉ sentIn l) : Passing front later l := by
  induction l generalizing front later with
  | nil =>
    refine ⟨.inl rfl, Nat.zero_le _, fun l₁ hl hlt => ?_⟩
    rw [List.prefix_nil.1 hl]
  | cons s l ih =>
    cases s with
    | handed j =>
      have waits := ih h hx
      refine ⟨waits.sent, waits.pace, fun l₁ hl hlt => ?_⟩
      obtain rfl | ⟨l₂, rfl, hl₂⟩ := List.prefix_cons_iff.1 hl
      · cases hlt
      · exact waits.last l₂ hl₂ hlt
    | received j =>
      have hrow : front :: row ++ x :: later ++ [j] = front :: row ++ x :: (later ++ [j]) := by simp
      rw [serves?_received, hrow] at h
      have waits := ih h hx
      refine ⟨by simpa using waits.sent, ?_, fun l₁ hl hlt => ?_⟩
      · have := waits.pace
        simp only [List.length_append, List.length_singleton] at this
        simp only [sentIn_received, receivedIn_received, List.length_cons]
        omega
      · obtain rfl | ⟨l₂, rfl, hl₂⟩ := List.prefix_cons_iff.1 hl
        · cases hlt
        · refine waits.last l₂ hl₂ ?_
          simp only [sentIn_received, receivedIn_received, List.length_cons] at hlt
          simp only [List.length_append, List.length_singleton]
          omega
    | sent j =>
      obtain ⟨rest, hrow, hnext⟩ := serves?_sent.1 h
      rw [List.cons_append, List.cons.injEq] at hrow
      obtain ⟨rfl, rfl⟩ := hrow
      have hx' : x ∉ sentIn l := fun hin => hx (List.mem_cons_of_mem _ hin)
      obtain rfl | ⟨later, y, rfl⟩ := later.eq_nil_or_concat
      · -- The job is the last of the row, and comes to the front.
        rw [Backlog.closeGap_concat] at hnext
        have none := sentIn_eq_nil_of_front hnext hx'
        refine ⟨.inr ⟨[], by simp [none], by simp⟩, by simp [none], fun l₁ hl hlt => ?_⟩
        obtain rfl | ⟨l₂, rfl, hl₂⟩ := List.prefix_cons_iff.1 hl
        · cases hlt
        · have none₂ : sentIn l₂ = [] := List.prefix_nil.1 (none ▸ hl₂.filterMap sent?)
          rw [sentIn_sent, sentIn_sent, none, none₂]
      · -- The last of those behind the job comes to the front.
        have hrest : row ++ x :: later.concat y = (row ++ x :: later) ++ [y] := by simp
        rw [hrest, Backlog.closeGap_concat] at hnext
        have waits : Passing y later l := ih hnext hx'
        refine ⟨.inr ⟨sentIn l, rfl, fun k hk => ?_⟩, ?_, fun l₁ hl hlt => ?_⟩
        · obtain none | ⟨passers, hsent, hall⟩ := waits.sent
          · simp [none] at hk
          · rw [hsent, List.mem_cons] at hk
            obtain rfl | hk := hk
            · simp
            · have := hall k hk
              rw [List.mem_append] at this
              simp only [receivedIn_sent, List.concat_eq_append, List.append_assoc,
                List.mem_append]
              exact this.imp_right .inr
        · have := waits.pace
          simp only [sentIn_sent, receivedIn_sent, List.length_cons, List.length_concat]
          omega
        · obtain rfl | ⟨l₂, rfl, hl₂⟩ := List.prefix_cons_iff.1 hl
          · cases hlt
          · simp only [sentIn_sent, receivedIn_sent, List.length_cons, List.length_concat] at hlt
            rw [sentIn_sent, sentIn_sent, waits.last l₂ hl₂ (by omega)]

/-- Those who were received and sent. -/
def overtakers (l : List Serving) : List Nat := (sentIn l).filter (· ∈ receivedIn l)

/-- If each job is sent that is received, but for the last one, all of them overtake one who
waits. -/
theorem length_le_overtakers (h : sentIn l ++ [k] = front :: receivedIn l) :
    (receivedIn l).length ≤ (overtakers l).length + 1 := by
  cases hs : sentIn l with
  | nil =>
    rw [hs] at h
    simp [← (List.cons.inj h).2]
  | cons first passers =>
    have hreceived : passers ++ [k] = receivedIn l := by
      rw [hs] at h
      exact (List.cons.inj h).2
    have hall : passers.filter (· ∈ receivedIn l) = passers :=
      List.filter_eq_self.2 fun j hj => by simp [← hreceived, hj]
    have hsub := ((List.sublist_cons_self first passers).filter (· ∈ receivedIn l)).length_le
    rw [hall] at hsub
    rw [overtakers, hs, ← hreceived, List.length_append, List.length_singleton]
    rw [← hreceived] at hsub
    exact Nat.succ_le_succ hsub

/-- How a job is overtaken that came to the backlog behind these, if all of this happens before it
is sent. -/
structure Overtaking (ahead : List Nat) (l : List Serving) : Prop where
  /-- Nobody is sent before a job that came to an empty backlog. -/
  foremost : ahead = [] → sentIn l = []
  /-- Of those ahead of it only the front is sent, and before all others. -/
  first : ∀ k, (sentIn l).head? = some k → ahead.head? = some k
  /-- All the others have overtaken it. -/
  others : overtakers l = (sentIn l).tail
  /-- At most one more is sent than came. -/
  pace : (sentIn l).length ≤ (receivedIn l).length + 1
  /-- Once more have been sent than have come nobody is sent any more, so that no more have
  overtaken the job than had come until then. -/
  bound : ∀ l₁, l₁ <+: l → (receivedIn l₁).length < (sentIn l₁).length →
    sentIn l = sentIn l₁ ∧ (overtakers l).length ≤ (receivedIn l₁).length

/-- Whoever came behind others is overtaken while as many come as are sent. -/
theorem overtaking_of_serves? {ahead : List Nat} (h : serves? l (ahead ++ [x]) = some row')
    (hx : x ∉ sentIn l) (hnew : ∀ k ∈ ahead, k ∉ receivedIn l) : Overtaking ahead l := by
  cases ahead with
  | nil =>
    have none : sentIn l = [] := sentIn_eq_nil_of_front h hx
    refine ⟨fun _ => none, by simp [none], by simp [overtakers, none], by simp [none],
      fun l₁ hl hlt => ?_⟩
    have none₁ : sentIn l₁ = [] := List.prefix_nil.1 (none ▸ hl.filterMap sent?)
    rw [none₁] at hlt
    cases hlt
  | cons front rest =>
    have passing : Passing front [] l := passing_of_behind h hx
    have others : overtakers l = (sentIn l).tail := by
      obtain none | ⟨passers, hsent, hall⟩ := passing.sent
      · simp [overtakers, none]
      · have hfront : ¬ front ∈ receivedIn l := hnew front List.mem_cons_self
        rw [overtakers, hsent, List.filter_cons_of_neg (by simpa using hfront), List.tail_cons]
        exact List.filter_eq_self.2 fun k hk => by simpa using hall k hk
    refine ⟨fun hnil => absurd hnil (List.cons_ne_nil _ _), fun k hk => ?_, others,
      by simpa using passing.pace, fun l₁ hl hlt => ?_⟩
    · obtain none | ⟨passers, hsent, -⟩ := passing.sent
      · simp [none] at hk
      · simpa [hsent] using hk
    · have hlast := passing.last l₁ hl (by simpa using hlt)
      obtain ⟨l₂, rfl⟩ := hl
      obtain ⟨between, hbetween, -⟩ := exists_of_serves?_append h
      have hx₁ : x ∉ sentIn l₁ := fun hin => hx (by simp [hin])
      have pace : Passing front [] l₁ := passing_of_behind hbetween hx₁
      refine ⟨hlast, ?_⟩
      have := pace.pace
      rw [others, hlast, List.length_tail]
      simp only [List.length_nil] at this
      omega

end Serving

namespace World

variable {ν : Type} {w u v : World ν} {t : TaskId} {e : EpochId} {settings : Settings}
  {hook : Option Hook}

/-- No job starves in the backlog unless others keep coming. Let a dispatcher receive a job in any
state of a pool, and let anything happen then: as long as the job is not sent, of those who were in
the backlog before only the front is sent, and of those who came later no more than had come when
for the first time more had been sent than had come. From then on the job stands in front, and
nobody is sent before it. -/
theorem overtaking_of_received (h : Reachable settings hook w) (m : Move w u) {x : Nat}
    (hu : u.servings e = w.servings e ++ [.received x]) (r : Run u v) {l rest : List Serving}
    (hv : v.servings e = u.servings e ++ (l ++ rest)) (hx : x ∉ Serving.sentIn l) :
    Serving.Overtaking ((w.epoch e).backlog.map (·.ticket)) l := by
  have hw := h.evolved
  have later := (h.run ((Run.single m).trans r)).evolved
  have hall : v.servings e = w.servings e ++ ([.received x] ++ (l ++ rest)) := by
    rw [hv, hu, List.append_assoc]
  obtain ⟨-, row, hrow, -, hback⟩ := hw.tended e
  obtain ⟨-, last, hlast, -⟩ := later.tended e
  rw [hall, Serving.serves?_append, hrow, Option.bind_some] at hlast
  obtain rfl : row = (w.epoch e).backlog.map (·.ticket) := by
    refine hback.resolve_right fun spent => ?_
    have hsame := ((m.changes hw.sound).servings_of_spent hw spent).1
    simp [hsame] at hu
  obtain ⟨between, hbetween, -⟩ := Serving.exists_of_serves?_append (l := l) hlast
  refine Serving.overtaking_of_serves? hbetween hx fun k hk hin => ?_
  have nodup := later.nodup_received e
  rw [hall, Serving.receivedIn_append] at nodup
  have hreceived := (Serving.perm_of_serves? hrow).subset (List.mem_append_right _ hk)
  exact (List.nodup_append.1 nodup).2.2 k hreceived k (by simp [hin]) rfl

/-- A tight pool whose dispatcher holds a job and is about to receive another one. -/
def laden : World Nat :=
  [0, 1, 1, 2, 2, 2, 1, 1, 2].foldl step (({ settings := tight : World Nat }.launch).spawn
    (.client { body := submits 6 ⟨[], .ok ()⟩ }))

theorem laden_reachable : Reachable tight none laden :=
  (Reachable.launch none ⟨by decide, by decide, by decide, by decide⟩).call _ _

/-- The same pool once it has sent all its jobs, two of which came meanwhile. -/
def unladen : World Nat :=
  [1, 2, 1, 1, 0, 0, 1, 1, 2, 1, 1, 0, 0, 1, 1, 0, 0, 1, 1, 0, 0, 1, 1].foldl step (laden.step 1)

/-- The fourth job was overtaken by the fifth and the sixth, and then nobody else came. -/
theorem overtaking_of_received_unladen :
    Reachable tight none laden ∧
      (laden.step 1).servings 0 = laden.servings 0 ++ [.received 3] ∧
      Run (laden.step 1) unladen ∧
      unladen.servings 0 = (laden.step 1).servings 0 ++ ([.handed 4, .received 4, .sent 2,
        .handed 5, .received 5, .sent 4, .sent 5] ++ [.sent 3]) ∧
      (laden.epoch 0).backlog.map (·.ticket) = [2] ∧
      Serving.Overtaking [2] [.handed 4, .received 4, .sent 2, .handed 5, .received 5, .sent 4,
        .sent 5] := by
  have received : (laden.step 1).servings 0 = laden.servings 0 ++ [.received 3] := by
    decide +kernel
  have run : Run (laden.step 1) unladen := run_steps _ _
  have later : unladen.servings 0 = (laden.step 1).servings 0 ++ ([.handed 4, .received 4, .sent 2,
      .handed 5, .received 5, .sent 4, .sent 5] ++ [.sent 3]) := by
    decide +kernel
  have ahead : (laden.epoch 0).backlog.map (·.ticket) = [2] := by decide +kernel
  have overtakes := overtaking_of_received laden_reachable (.step laden 1) received run later
    (by decide)
  rw [ahead] at overtakes
  exact ⟨laden_reachable, received, run, later, ahead, overtakes⟩

/-- A dispatcher that can go on takes a turn. -/
theorem step_of_dispatcher {state : DispatcherState ν}
    (ht : w.tasks[t]? = some (.dispatcher e state)) (hr : w.ready t = true) :
    w.step t = w.stepDispatcher t e state := by
  simp only [step, hr, if_true, ht]

/-- A worker that can go on takes a turn. -/
theorem step_of_worker {kind : WorkerKind} {state : WorkerState ν}
    (ht : w.tasks[t]? = some (.worker e kind state)) (hr : w.ready t = true) :
    w.step t = w.stepWorker t e kind state := by
  simp only [step, hr, if_true, ht]

section Treadmill

/-- The job of those who submit nothing else. -/
def chore : Job Nat := ⟨⟨[], .ok ()⟩, ⟨[], .error .unprintable⟩⟩

/-- The epoch of a tight pool that has two jobs queued and two in the backlog. -/
def treadmill (a b front y : Nat) : Epoch Nat :=
  { primary := [⟨a, chore⟩], temp := [⟨b, chore⟩], backlog := [⟨front, chore⟩, ⟨y, chore⟩] }

/-- A tight pool in its first epoch: what the epoch, its worker and its dispatcher are like, and
what the dispatcher has done. -/
structure Shows (w : World Nat) (ep : Epoch Nat) (worker : WorkerState Nat)
    (dispatcher : DispatcherState Nat) (l : List Serving) : Prop where
  reachable : Reachable tight none w
  current : w.current = some 0
  worker : w.tasks[0]? = some (.worker 0 (.permanent 0) worker)
  dispatcher : w.tasks[1]? = some (.dispatcher 0 dispatcher)
  epoch : w.epoch 0 = ep
  servings : w.servings 0 = l

namespace Shows

variable {w v : World Nat} {ep ep' : Epoch Nat} {worker worker' : WorkerState Nat}
  {dispatcher dispatcher' : DispatcherState Nat} {l l' : List Serving} {x : Entry Nat}
  {a b front y : Nat}

/-- The dispatcher has taken a turn. -/
theorem of_dispatcher (h : Shows w ep worker dispatcher l)
    (hstep : w.step 1 = v.setTask 1 (.dispatcher 0 dispatcher')) (hc : v.current = w.current)
    (ht : v.tasks = w.tasks) (he : v.epoch 0 = ep') (hs : v.servings 0 = l') :
    Shows (w.step 1) ep' worker dispatcher' l' where
  reachable := h.reachable.move (.step w 1)
  current := by rw [hstep, current_setTask, hc, h.current]
  worker := by rw [hstep, getElem?_setTask_of_ne _ _ _ (by decide), ht, h.worker]
  dispatcher := by
    have hlt : 1 < w.tasks.size := (Array.getElem?_eq_some_iff.1 h.dispatcher).1
    rw [hstep, getElem?_setTask_self _ _ _ (by rwa [ht])]
  epoch := by rw [hstep, epoch_setTask, he]
  servings := by
    rw [hstep]
    exact hs

/-- The worker has taken a turn. -/
theorem of_worker (h : Shows w ep worker dispatcher l)
    (hstep : w.step 0 = v.setTask 0 (.worker 0 (.permanent 0) worker'))
    (hc : v.current = w.current) (ht : v.tasks = w.tasks) (he : v.epoch 0 = ep')
    (hs : v.servings 0 = l') : Shows (w.step 0) ep' worker' dispatcher l' where
  reachable := h.reachable.move (.step w 0)
  current := by rw [hstep, current_setTask, hc, h.current]
  worker := by
    have hlt : 0 < w.tasks.size := (Array.getElem?_eq_some_iff.1 h.worker).1
    rw [hstep, getElem?_setTask_self _ _ _ (by rwa [ht])]
  dispatcher := by rw [hstep, getElem?_setTask_of_ne _ _ _ (by decide), ht, h.dispatcher]
  epoch := by rw [hstep, epoch_setTask, he]
  servings := by
    rw [hstep]
    exact hs

/-- The epoch is there. -/
theorem modified (h : Shows w ep worker dispatcher l) (f : Epoch Nat → Epoch Nat) :
    (w.modifyEpoch 0 f).epoch 0 = f ep := by
  rw [epoch_modifyEpoch_self w 0 f (h.reachable.evolved.sound.current_lt 0 h.current), h.epoch]

/-- A parked dispatcher that nobody has told of room takes a job from its intake. -/
theorem takes (h : Shows w ep worker .parked l) (hc : ep.closed = false) (hf : ep.freed = false)
    {intake : Intake (Entry Nat)} (hi : ep.intake.take? = some (x, intake)) :
    Shows (w.step 1) { ep with intake, backlog := ep.backlog ++ [x] } worker .flushing
      (l ++ [.received x.ticket]) := by
  have hslot := (Intake.take?_eq_some.1 hi).1
  have hready : w.ready 1 = true := by simp [ready, h.dispatcher, h.epoch, hslot]
  have hstep := step_of_dispatcher h.dispatcher hready
  simp only [stepDispatcher, stepParked, h.epoch, hc, hf, hi, Bool.false_eq_true, if_false,
    Bool.false_and] at hstep
  exact h.of_dispatcher hstep rfl rfl (h.modified _)
    (by simp [takeIn, h.servings, Occurrence.serving?])

/-- A dispatcher offers its backlog to open queues. -/
theorem flushes (h : Shows w ep worker .flushing l) {moved : List (Tier × Entry Nat)}
    (hf : ep.flush tight = ⟨ep', moved, true⟩) : Shows (w.step 1) ep' worker .parked
      (l ++ moved.map fun o => .sent o.2.ticket) := by
  have hready : w.ready 1 = true := by simp [ready, h.dispatcher]
  have hstep := step_of_dispatcher h.dispatcher hready
  simp only [stepDispatcher, stepFlushing, h.reachable.evolved.same.1, h.epoch, hf, if_true]
    at hstep
  have hfold : moved.foldl (fun w o => w.record (.republished 0 o.2.ticket o.1))
      (w.modifyEpoch 0 fun _ => ep') = (w.modifyEpoch 0 fun _ => ep').recordAll
        (moved.map fun o => .republished 0 o.2.ticket o.1) := by
    rw [recordAll, List.foldl_map]
  rw [hfold] at hstep
  refine h.of_dispatcher hstep (by simp) (by simp) ?_ ?_
  · rw [epoch_recordAll]
    exact h.modified _
  · simp [h.servings, List.filterMap_map, Function.comp_def, Occurrence.serving?]

/-- A dispatcher with a job takes notice of room. -/
theorem wakes (h : Shows w ep worker .parked l) (hc : ep.closed = false) (hf : ep.freed = true)
    (hb : ep.backlog ≠ []) : Shows (w.step 1) { ep with freed := false } worker .flushing l := by
  have hback : ep.backlog.isEmpty = false := by simpa using hb
  have hready : w.ready 1 = true := by simp [ready, h.dispatcher, h.epoch, hf, hback]
  have hstep := step_of_dispatcher h.dispatcher hready
  simp only [stepDispatcher, stepParked, h.epoch, hc, hf, hback, Bool.false_eq_true, if_false,
    Bool.not_false, Bool.and_self, if_true] at hstep
  exact h.of_dispatcher hstep rfl rfl (h.modified _) h.servings

/-- An idle worker claims a job. -/
theorem claims (h : Shows w ep (.idle none) dispatcher l) (hc : ep.closed = false) {tier : Tier}
    (hq : ep.claim? true = some (tier, x, ep')) : Shows (w.step 0) ep'
      (.busy (.tier tier) x.ticket { body := x.job.run }) dispatcher l := by
  have hwork : ep.hasWork (WorkerKind.permanent 0 != .temporary) = true := by
    rw [← Epoch.isSome_claim?]
    exact congrArg Option.isSome hq
  have hready : w.ready 0 = true := by simp [ready, h.worker, h.epoch, hwork]
  have hstep := step_of_worker h.worker hready
  have hclaim : ep.claim? (WorkerKind.permanent 0 != .temporary) = some (tier, x, ep') := hq
  simp only [stepWorker, stepIdle, h.epoch, hc, hclaim, Bool.false_eq_true, if_false] at hstep
  exact h.of_worker (v := (w.modifyEpoch 0 fun _ => ep').record
    (.started 0 x.ticket 0 (.tier tier))) hstep rfl rfl (h.modified _)
    (by simp [h.servings, Occurrence.serving?])

/-- A worker whose job is over rests. -/
theorem finishes {source : Source} {k : Nat}
    (h : Shows w ep (.busy source k { body := ⟨[], .ok ()⟩ }) dispatcher l) :
    Shows (w.step 0) ep (.idle none) dispatcher l := by
  have hready : w.ready 0 = true := by simp [ready, h.worker, threadReady, bodyReady]
  have hstep := step_of_worker h.worker hready
  exact h.of_worker (v := w.record (.finished 0 k (.ok ()))) hstep rfl rfl h.epoch
    (by simp [h.servings, Occurrence.serving?])

/-- A client hands over a job for which there is no other place. -/
theorem hands (h : Shows w ep worker dispatcher l) (full : ep.Full tight)
    (hi : ep.intake.isFree = true) : ∃ v, Run w v ∧
      Shows v { ep with intake := ep.intake.put ⟨w.nextTicket, chore⟩ } worker dispatcher
        (l ++ [.handed w.nextTicket]) := by
  let t := w.tasks.size
  let v := w.spawn (.client submitsOne)
  have hw := h.reachable.evolved
  have hv : Reachable tight none v := h.reachable.move (.post w submitsOne.body)
  have calls : v.Submits t (.client submitsOne) submitsOne chore 0 1 2 :=
    ⟨by simp [v, t, spawn], rfl, rfl, rfl, hw.handles_ne_zero h.current⟩
  have old : ∀ {i : TaskId} {task : Task Nat}, w.tasks[i]? = some task → i < t := fun hi =>
    (Array.getElem?_eq_some_iff.1 hi).1
  have hepoch : (v.draw chore).epoch 0 = ep := h.epoch
  have hsettings : (v.draw chore).settings = tight := hw.same.1
  refine ⟨v.step t, (Run.single (.post w submitsOne.body)).tail (.step v t), ?_⟩
  obtain ⟨u, g, hstep⟩ | ⟨u, g, -⟩ := calls.step_goes hv.evolved.sound h.current
  · cases g with
    | primary room =>
      rw [hepoch, hsettings] at room
      exact absurd room (Nat.not_lt.2 full.1)
    | temp _ room =>
      rw [hepoch, hsettings] at room
      exact absurd room (Nat.not_lt.2 full.2)
    | hired _ room =>
      rw [hepoch, hsettings] at room
      exact absurd (room 0 rfl) (Nat.not_lt_zero _)
    | handedOver =>
      constructor
      case reachable => exact hv.move (.step v t)
      case current => rw [hstep]; exact h.current
      case worker =>
        rw [hstep, getElem?_setTask_of_ne _ _ _ (old h.worker).ne]
        exact (getElem?_spawn _ _ (old h.worker)).trans h.worker
      case dispatcher =>
        rw [hstep, getElem?_setTask_of_ne _ _ _ (old h.dispatcher).ne]
        exact (getElem?_spawn _ _ (old h.dispatcher)).trans h.dispatcher
      case epoch =>
        rw [hstep, epoch_setTask, epoch_record]
        exact h.modified fun ep => { ep with intake := ep.intake.put ⟨w.nextTicket, chore⟩ }
      case servings =>
        have hdrawn : (v.draw chore).servings 0 = l := by
          simp [v, h.servings, Occurrence.serving?]
        rw [hstep]
        simp [handOver, hdrawn, Occurrence.serving?]
        rfl
  · cases g with
    | waits _ _ _ taken =>
      rw [hepoch, hi] at taken
      cases taken

/-- A job comes, and the front goes: the one that came is in front then. -/
theorem round (h : Shows w (treadmill a b front y) (.idle none) .parked l) :
    ∃ v k, Run w v ∧ Shows v (treadmill front b k y) (.idle none) .parked
      (l ++ [.handed k, .received k, .sent front]) := by
  let k := w.nextTicket
  let swollen : Epoch Nat := { treadmill a b front y with
    backlog := [⟨front, chore⟩, ⟨y, chore⟩, ⟨k, chore⟩] }
  let told := l ++ [.handed k] ++ [.received k]
  obtain ⟨v, came, handed⟩ := h.hands ⟨Nat.le_refl _, Nat.le_refl _⟩ rfl
  have received : Shows (v.step 1) swollen (.idle none) .flushing told := handed.takes rfl rfl rfl
  have refused : Shows ((v.step 1).step 1) swollen (.idle none) .parked (told ++ []) :=
    received.flushes rfl
  have claimed : Shows (((v.step 1).step 1).step 0) { swollen with primary := [], freed := true }
      (.busy (.tier .primary) a { body := ⟨[], .ok ()⟩ }) .parked (told ++ []) :=
    refused.claims rfl rfl
  have woken := claimed.finishes.wakes rfl rfl (List.cons_ne_nil _ _)
  have flush : ({ swollen with primary := [], freed := false }).flush tight =
      ⟨treadmill front b k y, [(.primary, ⟨front, chore⟩)], true⟩ := rfl
  have went := woken.flushes flush
  refine ⟨_, k, came.trans (run_steps [1, 1, 0, 0, 1, 1] v), ?_⟩
  simpa [told] using went

/-- This goes on for as long as anybody likes. -/
theorem rounds (h : Shows w (treadmill a b front y) (.idle none) .parked l) (n : Nat) :
    ∃ v c k l', Run w v ∧ Shows v (treadmill c b k y) (.idle none) .parked (l ++ l') ∧
      (Serving.receivedIn l').length = n ∧
      Serving.sentIn l' ++ [k] = front :: Serving.receivedIn l' := by
  induction n with
  | zero => exact ⟨w, a, front, [], .refl w, by simpa using h, rfl, rfl⟩
  | succ n ih =>
    obtain ⟨v, c, k, l', run, shows', hlen, hsent⟩ := ih
    obtain ⟨u, j, later, after⟩ := shows'.round
    refine ⟨u, k, j, l' ++ [.handed j, .received j, .sent k], run.trans later, ?_, ?_, ?_⟩
    · simpa using after
    · simp [hlen]
    · have hreceived : Serving.receivedIn (l' ++ [.handed j, .received j, .sent k]) =
          Serving.receivedIn l' ++ [j] := by simp
      have hall : Serving.sentIn (l' ++ [.handed j, .received j, .sent k]) =
          Serving.sentIn l' ++ [k] := by simp
      rw [hall, hreceived, hsent, List.cons_append]

end Shows

/-- Neither the settings nor the jobs that it finds in the backlog bound the jobs that overtake one
that waits there. -/
theorem overtaking_unbounded : ¬ ∃ bound : Settings → Option Hook → Nat → Nat,
    ∀ (settings : Settings) (hook : Option Hook) (w u v : World Nat) (e : EpochId) (x : Nat)
      (l : List Serving), Reachable settings hook w → Move w u →
      u.servings e = w.servings e ++ [.received x] → Run u v →
      v.servings e = u.servings e ++ l → x ∈ (v.epoch e).backlog.map (·.ticket) →
      (Serving.overtakers l).length ≤ bound settings hook (w.epoch e).backlog.length := by
  rintro ⟨bound, hbound⟩
  have first : Shows ((laden.step 1).step 1) (treadmill 0 1 2 3) (.idle none) .parked
      ((laden.step 1).servings 0) := by
    exact ⟨(laden_reachable.move (.step _ 1)).move (.step _ 1), rfl, rfl, rfl, rfl,
      by decide +kernel⟩
  have hlen : (laden.epoch 0).backlog.length = 1 := rfl
  obtain ⟨v, c, k, l, run, shows', hcount, hsent⟩ := first.rounds (bound tight none 1 + 2)
  have hle := hbound tight none laden (laden.step 1) v 0 3 l laden_reachable (.step _ 1)
    (by decide +kernel)
    ((Run.single (.step _ 1)).trans run) shows'.servings (by simp [shows'.epoch, treadmill])
  rw [hlen] at hle
  have := Serving.length_le_overtakers hsent
  omega

end Treadmill

end World

end WorkerPool
