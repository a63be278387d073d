import WorkerPool.Proofs.Shutdown

/-!
# What the code of a job says

The reports and the log records that the code of a job leaves in the journal are in the order of the
code. A job speaks as its body does once it was begun, and as its abandonment does once it was
abandoned: what it has said so far comes of the beginning of that code, and the rest of the code is
what a task still has to do.
-/

namespace WorkerPool

variable {ν : Type}

/-- What a deed leaves in the journal. -/
def Deed.sayings : Deed ν → List (Deed ν)
  | note n => [.note n]
  | log notice => [.log notice]
  | _ => []

/-- What an act may leave in the journal: its deed, or one of its answers. -/
inductive Act.Says : Act ν → List (Deed ν) → Prop
  | deed (d : Deed ν) : Says (.deed d) d.sayings
  | pause {act : Act ν} (h : act.isPause = true) : Says act []
  | answer {act : Act ν} {n : ν} (h : n ∈ act.answers) : Says act [.note n]

/-- What acts may leave in the journal, one after the other. -/
inductive Act.SayAll : List (Act ν) → List (Deed ν) → Prop
  | nil : SayAll [] []
  | concat {acts : List (Act ν)} {act : Act ν} {said new : List (Deed ν)} (h : SayAll acts said)
      (hn : act.Says new) : SayAll (acts ++ [act]) (said ++ new)

/-- What the code of job `k` has left in the journal by this occurrence. -/
def Occurrence.saying? (k : Nat) : Occurrence ν → Option (Deed ν)
  | note author n => if author = some k then some (.note n) else none
  | log author notice => if author = some k then some (.log notice) else none
  | _ => none

/-- What is left of a callback of job `k`. -/
def Layer.left? (k : Nat) : Layer ν → Option (List (Act ν))
  | callback ticket code => if ticket = k then some (code.acts.map .deed) else none
  | drain _ _ => none

/-- What is left of the code of job `k` in a thread whose body belongs to this author. -/
def Thread.left (k : Nat) (author : Option Nat) (th : Thread ν) : List (List (Act ν)) :=
  th.layers.filterMap (Layer.left? k) ++ if author = some k then [th.body.acts] else []

/-- A thread without layers has nothing left to do but its body. -/
theorem Thread.left_of_layers {k : Nat} {author : Option Nat} {th : Thread ν}
    (h : th.layers = []) : th.left k author = if author = some k then [th.body.acts] else [] := by
  simp [Thread.left, h]

/-- A callback on top of a thread is left to do besides what is below. -/
theorem Thread.left_of_callback {k i : Nat} {author : Option Nat} {th : Thread ν}
    {code : Script (Deed ν) Unit} {rest : List (Layer ν)}
    (h : th.layers = .callback i code :: rest) : th.left k author =
      (if i = k then [code.acts.map .deed] else []) ++
        ({ th with layers := rest } : Thread ν).left k author := by
  by_cases hi : i = k <;> simp [Thread.left, h, Layer.left?, hi]

/-- A drain has nothing to say. -/
theorem Thread.left_of_drain {k : Nat} {author : Option Nat} {th : Thread ν} {e : EpochId} {n : Nat}
    {rest : List (Layer ν)} (h : th.layers = .drain e n :: rest) :
    th.left k author = ({ th with layers := rest } : Thread ν).left k author := by
  simp [Thread.left, h, List.filterMap_cons, Layer.left?]

/-- What is left of the code of job `k` in a task. -/
def Task.left (k : Nat) (task : Task ν) : List (List (Act ν)) :=
  match task.thread? with
  | none => []
  | some th => th.left k task.author?

/-- The code that a job begins with this booking. -/
def Booking.code? (k : Nat) (job : Job ν) : Booking → Option (List (Act ν))
  | started _ ticket => if ticket = k then some job.run.acts else none
  | abandoned _ ticket => if ticket = k then some (job.abandon.acts.map .deed) else none
  | _ => none

/-- The code of a job: what of it was begun, what it has said, and what is left of it. -/
structure Speech (ν : Type) where
  begun : List (List (Act ν))
  said : List (Deed ν)
  left : List (List (Act ν))

namespace Speech

/-- One thing that happens to the code of a job. -/
inductive Step (s s' : Speech ν) : Prop
  | still (h : s' = s)
  /-- An act is done. -/
  | speaks {A B : List (List (Act ν))} {act : Act ν} {rest : List (Act ν)} {new : List (Deed ν)}
      (hb : s'.begun = s.begun) (hn : act.Says new) (hs : s'.said = s.said ++ new)
      (hl : s.left = A ++ (act :: rest) :: B) (hl' : s'.left = A ++ rest :: B)
  /-- Code that is over is left behind. -/
  | ends {A B : List (List (Act ν))} (hb : s'.begun = s.begun) (hs : s'.said = s.said)
      (hl : s.left = A ++ [] :: B) (hl' : s'.left = A ++ B)
  /-- Code is begun. -/
  | begins {A B : List (List (Act ν))} {code : List (Act ν)} (hb : s'.begun = s.begun ++ [code])
      (hs : s'.said = s.said) (hl : s.left = A ++ B) (hl' : s'.left = A ++ code :: B)

/-- Nothing was begun and nothing was said; or one piece of code was begun, what was said comes of
the beginning of it, and the rest of it is what is left. -/
def InOrder (s : Speech ν) : Prop :=
  s = ⟨[], [], []⟩ ∨ ∃ done rest, s.begun = [done ++ rest] ∧ Act.SayAll done s.said ∧
    (s.left = [rest] ∨ s.left = [] ∧ rest = [])

/-- Code of which no more than one piece is ever begun speaks in order. -/
theorem InOrder.step {s s' : Speech ν} (h : s.InOrder) (st : Step s s')
    (hone : s'.begun.length ≤ 1) : s'.InOrder := by
  cases st with
  | still hs => rwa [hs]
  | @speaks A B act rest new hb hn hs hl hl' =>
    obtain rfl | ⟨done, left, hbegun, hsaid, hleft | ⟨hleft, -⟩⟩ := h
    · simp at hl
    · rw [hleft, eq_comm, List.append_eq_singleton_iff] at hl
      obtain ⟨rfl, hl⟩ | ⟨-, hl⟩ := hl
      · obtain ⟨rfl, rfl⟩ := List.cons.inj hl
        refine .inr ⟨done ++ [act], rest, ?_, hs ▸ hsaid.concat hn, .inl hl'⟩
        rw [hb, hbegun, List.append_assoc, List.singleton_append]
      · cases hl
    · simp [hleft] at hl
  | @ends A B hb hs hl hl' =>
    obtain rfl | ⟨done, left, hbegun, hsaid, hleft | ⟨hleft, -⟩⟩ := h
    · simp at hl
    · rw [hleft, eq_comm, List.append_eq_singleton_iff] at hl
      obtain ⟨rfl, hl⟩ | ⟨-, hl⟩ := hl
      · obtain ⟨rfl, rfl⟩ := List.cons.inj hl
        exact .inr ⟨done, [], hb.trans hbegun, hs ▸ hsaid, .inr ⟨hl', rfl⟩⟩
      · cases hl
    · simp [hleft] at hl
  | @begins A B code hb hs hl hl' =>
    obtain rfl | ⟨done, left, hbegun, -⟩ := h
    · obtain ⟨rfl, rfl⟩ := List.append_eq_nil_iff.1 hl.symm
      exact .inr ⟨[], code, hb, hs ▸ .nil, .inl hl'⟩
    · rw [hb, hbegun] at hone
      simp at hone

end Speech

namespace World

variable {w u : World ν} {e : EpochId} {t : TaskId} {k : Nat} {job : Job ν} {settings : Settings}
  {hook : Option Hook}

/-- What the code of job `k` has left in the journal, in order. -/
abbrev said (w : World ν) (k : Nat) : List (Deed ν) := w.picked (Occurrence.saying? k)

/-- What the tasks still have to do for job `k`. -/
def left (w : World ν) (k : Nat) : List (List (Act ν)) := w.tasks.toList.flatMap (Task.left k)

/-- What a job has begun and said, and what is left of it. -/
def speech (w : World ν) (k : Nat) (job : Job ν) : Speech ν :=
  ⟨w.books.filterMap (Booking.code? k job), w.said k, w.left k⟩

/-- A deed speaks for its author. -/
theorem filterMap_saying?_traces (k : Nat) (a : Option Nat) (d : Deed ν) :
    (d.traces a).filterMap (Occurrence.saying? k) = if a = some k then d.sayings else [] := by
  by_cases ha : a = some k <;> cases d <;> simp [Deed.traces, Deed.sayings, Occurrence.saying?, ha]

/-- What passes beside the jobs is said by none of them. -/
theorem Aside.said (h : Aside w u) : u.said k = w.said k :=
  h.picked (fun _ => rfl) fun _ _ => rfl

section Left

/-- What is drawn from a row of which one element is set. -/
theorem flatMap_set {α β : Type} (f : α → List β) {l : List α} {i : Nat} {old : α}
    (h : l[i]? = some old) : ∃ A B, l.flatMap f = A ++ f old ++ B ∧
      ∀ new, (l.set i new).flatMap f = A ++ f new ++ B := by
  obtain ⟨hi, rfl⟩ := List.getElem?_eq_some_iff.1 h
  refine ⟨(l.take i).flatMap f, (l.drop (i + 1)).flatMap f, ?_, fun new => ?_⟩
  · have hsplit : l = l.take i ++ l[i] :: l.drop (i + 1) := by
      rw [← List.drop_eq_getElem_cons hi, List.take_append_drop]
    calc l.flatMap f = (l.take i ++ l[i] :: l.drop (i + 1)).flatMap f := congrArg _ hsplit
      _ = _ := by rw [List.flatMap_append, List.flatMap_cons, List.append_assoc]
  · rw [List.set_eq_take_append_cons_drop, if_pos hi]
    simp

/-- What is left changes with the task that changes, if those that are new have nothing to say. -/
theorem left_setTask {v : World ν} {more : List (Task ν)} {old : Task ν}
    (ht : w.tasks[t]? = some old) (hv : v.tasks.toList = w.tasks.toList ++ more)
    (hmore : ∀ task ∈ more, task.thread? = none) (k : Nat) :
    ∃ A B, w.left k = A ++ old.left k ++ B ∧
      ∀ task, (v.setTask t task).left k = A ++ task.left k ++ B := by
  have hlt : t < w.tasks.toList.length := by simpa using (Array.getElem?_eq_some_iff.1 ht).1
  have hl : w.tasks.toList[t]? = some old := by rwa [Array.getElem?_toList]
  obtain ⟨A, B, hA, hset⟩ := flatMap_set (Task.left k) hl
  have hnil : more.flatMap (Task.left k) = [] := by
    rw [List.flatMap_eq_nil_iff]
    intro task hm
    simp [Task.left, hmore task hm]
  refine ⟨A, B, hA, fun task => ?_⟩
  rw [left, setTask, Array.toList_setIfInBounds, hv, List.set_append_left _ _ hlt,
    List.flatMap_append, hset, hnil, List.append_nil]

/-- What happens to the code of a job in one task happens to it wherever the task stands among the
others. -/
theorem speech_setTask {v : World ν} {more : List (Task ν)} {old task : Task ν}
    (ht : w.tasks[t]? = some old) (hv : v.tasks.toList = w.tasks.toList ++ more)
    (hmore : ∀ task ∈ more, task.thread? = none)
    (hs : ∀ A B, Speech.Step
      ⟨w.books.filterMap (Booking.code? k job), w.said k, A ++ old.left k ++ B⟩
      ⟨v.books.filterMap (Booking.code? k job), v.said k, A ++ task.left k ++ B⟩) :
    Speech.Step (w.speech k job) ((v.setTask t task).speech k job) := by
  obtain ⟨A, B, hA, hset⟩ := left_setTask ht hv hmore k
  have step := hs A B
  rw [← hA, ← hset] at step
  exact step

/-- The same if no task is new. -/
theorem speech_setTask_of_eq {v : World ν} {old task : Task ν} (ht : w.tasks[t]? = some old)
    (hv : v.tasks = w.tasks) (hs : ∀ A B, Speech.Step
      ⟨w.books.filterMap (Booking.code? k job), w.said k, A ++ old.left k ++ B⟩
      ⟨v.books.filterMap (Booking.code? k job), v.said k, A ++ task.left k ++ B⟩) :
    Speech.Step (w.speech k job) ((v.setTask t task).speech k job) :=
  speech_setTask ht (by rw [hv, List.append_nil]) (fun _ hm => absurd hm List.not_mem_nil) hs

/-- A task that begins nothing and says nothing changes nothing if it leaves the same to do. -/
theorem speech_setTask_of_same {v : World ν} {old task : Task ν} (ht : w.tasks[t]? = some old)
    (hv : v.tasks = w.tasks) (hl : task.left k = old.left k)
    (hb : v.books.filterMap (Booking.code? k job) = w.books.filterMap (Booking.code? k job))
    (hs : v.said k = w.said k) :
    Speech.Step (w.speech k job) ((v.setTask t task).speech k job) :=
  speech_setTask_of_eq ht hv fun A B => .still (by rw [hb, hs, hl])

/-- A task that has nothing left to do takes up a piece of code, which may be of job `k` or not. -/
theorem speech_takeUp {v : World ν} {old task : Task ν} {c : List (Act ν)} {p : Prop}
    [Decidable p] (ht : w.tasks[t]? = some old) (hv : v.tasks = w.tasks) (hold : old.left k = [])
    (hnew : task.left k = if p then [c] else [])
    (hb : v.books.filterMap (Booking.code? k job) =
      w.books.filterMap (Booking.code? k job) ++ if p then [c] else [])
    (hs : v.said k = w.said k) :
    Speech.Step (w.speech k job) ((v.setTask t task).speech k job) := by
  refine speech_setTask_of_eq ht hv fun A B => ?_
  rw [hold, hnew, hb, hs]
  by_cases hp : p
  · simp only [hp, if_true, List.append_nil, List.append_assoc, List.singleton_append]
    exact .begins rfl rfl rfl rfl
  · simp only [hp, if_false, List.append_nil]
    exact .still rfl

/-- A worker that begins a job has the body of the job to do. -/
theorem speech_assign {v : World ν} {kind : WorkerKind} {old : WorkerState ν} {source : Source}
    {x : Entry ν} (ht : w.tasks[t]? = some (.worker e kind old)) (hv : v.tasks = w.tasks)
    (hl : (Task.worker e kind old).left k = []) (hb : v.books = w.books)
    (hs : v.said k = w.said k) (hjob : x.ticket = k → x.job = job) :
    Speech.Step (w.speech k job) ((v.assign t e kind source x).speech k job) := by
  refine speech_takeUp (v := v.record (.started e x.ticket t source)) (p := x.ticket = k)
    (c := job.run.acts) ht hv hl ?_ ?_ ?_
  · by_cases hk : x.ticket = k
    · simp [Task.left, Task.thread?, Task.author?, Thread.left, hk, hjob hk]
    · simp [Task.left, Task.thread?, Task.author?, Thread.left, hk]
  · by_cases hk : x.ticket = k <;> simp [Occurrence.booking?, Booking.code?, hb, hk]
  · simp [Occurrence.saying?, hs]

/-- A dispatcher that abandons a job has the abandonment of the job to do. -/
theorem speech_discard {x : Entry ν} {rest : List (Entry ν)}
    (ht : w.tasks[t]? = some (.dispatcher e (.discarding []))) (hjob : x.ticket = k → x.job = job) :
    Speech.Step (w.speech k job) ((((w.modifyEpoch e fun ep => { ep with backlog := rest }).record
      (.abandoned e x.ticket)).setTask t
        (.dispatcher e (.discarding [.callback x.ticket x.job.abandon]))).speech k job) := by
  refine speech_takeUp (p := x.ticket = k) (c := job.abandon.acts.map .deed) ht rfl rfl ?_ ?_ ?_
  · by_cases hk : x.ticket = k
    · simp [Task.left, Task.thread?, Task.author?, Thread.left, Layer.left?, hk, hjob hk]
    · simp [Task.left, Task.thread?, Task.author?, Thread.left, Layer.left?, hk]
  · by_cases hk : x.ticket = k <;> simp [Occurrence.booking?, Booking.code?, hk]
  · simp [Occurrence.saying?]

/-- A worker whose job is over has nothing left to do for it. -/
theorem speech_finish {kind : WorkerKind} {state : WorkerState ν} {source : Source} {i : Nat}
    {th : Thread ν} {os : List (Occurrence ν)}
    (ht : w.tasks[t]? = some (.worker e kind (.busy source i th))) (hover : th.isOver = true)
    (hb : os.filterMap Occurrence.booking? = [.finished e i])
    (hs : os.filterMap (Occurrence.saying? k) = [])
    (hnew : (Task.worker e kind state).left k = []) : Speech.Step (w.speech k job)
      (((w.recordAll os).setTask t (.worker e kind state)).speech k job) := by
  refine speech_setTask_of_eq ht (tasks_recordAll _ _) fun A B => ?_
  simp only [Thread.isOver, Bool.and_eq_true, List.isEmpty_iff] at hover
  have hold : (Task.worker e kind (.busy source i th)).left k = if i = k then [[]] else [] := by
    simp [Task.left, Task.thread?, Task.author?, Thread.left, hover]
  have hbegun : (w.recordAll os).books.filterMap (Booking.code? k job) =
      w.books.filterMap (Booking.code? k job) := by
    simp [hb, Booking.code?]
  have hsaid : (w.recordAll os).said k = w.said k := by simp [hs]
  rw [hold, hnew, hbegun, hsaid]
  by_cases hi : i = k
  · simp only [hi, if_true, List.append_nil, List.append_assoc, List.singleton_append]
    exact .ends rfl rfl rfl rfl
  · simp only [hi, if_false, List.append_nil]
    exact .still rfl

end Left

/-- A thread that does the next act of its body speaks if the body is that of job `k`. -/
theorem speech_next {v : World ν} {a : Option Nat} {th : Thread ν} {act : Act ν}
    {rest : List (Act ν)} {new : List (Deed ν)} (hl : th.layers = [])
    (ha : th.body.acts = act :: rest) (hb : v.books = w.books)
    (hs : v.said k = w.said k ++ if a = some k then new else []) (hn : act.Says new)
    (A B : List (List (Act ν))) :
    Speech.Step ⟨w.books.filterMap (Booking.code? k job), w.said k, A ++ th.left k a ++ B⟩
      ⟨v.books.filterMap (Booking.code? k job), v.said k, A ++ th.next.left k a ++ B⟩ := by
  have hnext : th.next.layers = [] := hl
  rw [th.left_of_layers hl, th.next.left_of_layers hnext, hb, hs, ha]
  by_cases hk : a = some k
  · simp only [hk, if_true, Thread.next, ha, List.tail_cons, List.append_assoc,
      List.singleton_append]
    exact .speaks rfl hn rfl rfl rfl
  · simp only [hk, if_false, List.append_nil]
    exact .still rfl

/-- What code does to the code of a job, wherever the task stands among the others. -/
theorem Shift.speech {a : Option Nat} {th th' : Thread ν} {w' : World ν}
    (h : Shift t a th w th' w') (hp : w.Papers)
    (hu : ∀ job', .submitted k job' ∈ w'.occurrences → job' = job) (A B : List (List (Act ν))) :
    Speech.Step ⟨w.books.filterMap (Booking.code? k job), w.said k, A ++ th.left k a ++ B⟩
      ⟨w'.books.filterMap (Booking.code? k job), w'.said k, A ++ th'.left k a ++ B⟩ := by
  have grows := h.grows
  have still : ∀ {v : World ν} {tv : Thread ν},
      v.books.filterMap (Booking.code? k job) = w.books.filterMap (Booking.code? k job) →
      v.said k = w.said k → tv.left k a = th.left k a →
      Speech.Step ⟨w.books.filterMap (Booking.code? k job), w.said k, A ++ th.left k a ++ B⟩
        ⟨v.books.filterMap (Booking.code? k job), v.said k, A ++ tv.left k a ++ B⟩ := by
    intro v tv hb hs hl
    rw [hb, hs, hl]
    exact .still rfl
  cases h with
  | @deed d rest hl ha =>
    exact speech_next hl ha (by simp [Occurrence.booking?])
      (by rw [said, picked_recordAll, filterMap_saying?_traces]) (.deed d) A B
  | @paused act rest hl ha hpause => exact speech_next hl ha rfl (by simp) (.pause hpause) A B
  | @answered act rest n hl ha hn =>
    refine speech_next hl ha (by simp [Occurrence.booking?]) ?_ (.answer hn) A B
    rw [said, picked_record]
    by_cases hk : a = some k <;> simp [Occurrence.saying?, hk]
  | @callbackDeed i d ds ending rest hl =>
    have hs : (w.recordAll (d.traces (some i))).said k =
        w.said k ++ if i = k then d.sayings else [] := by
      simp only [picked_recordAll, filterMap_saying?_traces, Option.some.injEq]
    have hl' : th.left k a = _ := Thread.left_of_callback hl
    have hnext : ({ th with layers := .callback i ⟨ds, ending⟩ :: rest } : Thread ν).left k a = _ :=
      Thread.left_of_callback rfl
    have hb : (w.recordAll (d.traces (some i))).books = w.books := by simp [Occurrence.booking?]
    rw [hl', hnext, hs, hb]
    by_cases hi : i = k
    · simp only [hi, if_true, List.append_assoc, List.singleton_append, List.map_cons]
      exact .speaks rfl (.deed d) rfl rfl rfl
    · simp only [hi, if_false, List.append_nil, List.nil_append]
      exact .still (by simp)
  | @returned i ending rest hl =>
    rw [Thread.left_of_callback hl]
    by_cases hi : i = k
    · simp only [hi, if_true, List.append_assoc, List.singleton_append, List.map_nil]
      exact .ends rfl rfl rfl rfl
    · simp only [hi, if_false, List.nil_append]
      exact .still rfl
  | @abandoned e n rest x ep hl hdrain =>
    have hx : x ∈ (w.epoch e).entries :=
      (Epoch.perm_entries_of_drain hdrain).mem_iff.2 List.mem_cons_self
    have hnext : ({ th with
        layers := .callback x.ticket x.job.abandon :: .drain e (n + 1) :: rest } :
          Thread ν).left k a = _ := Thread.left_of_callback rfl
    have hbelow : ({ th with layers := .drain e (n + 1) :: rest } : Thread ν).left k a = _ :=
      Thread.left_of_drain rfl
    rw [Thread.left_of_drain hl, hnext, hbelow]
    by_cases hi : x.ticket = k
    · have hjob : x.job = job := hu x.job (hi ▸ grows.mem (hp.stock e x hx))
      simp only [hi, hjob, if_true, List.append_assoc, List.singleton_append]
      exact .begins (by simp [Occurrence.booking?, Booking.code?])
        (by simp [Occurrence.saying?]) rfl rfl
    · simp only [hi, if_false, List.nil_append]
      exact .still (by simp [Occurrence.booking?, Booking.code?, Occurrence.saying?, hi])
  | @drained e n rest hl => exact still rfl rfl (Thread.left_of_drain hl).symm
  | @halted e wait =>
    exact still (by simp) (by simp [Occurrence.saying?]) (Thread.left_of_drain rfl)
  | asleep => exact .still rfl
  | awaiting => exact .still rfl
  | launched => exact still (by simp) (by simp [Occurrence.saying?]) rfl
  | aside hs => exact still (by rw [hs.books]) hs.said rfl
  | hired =>
    refine still ?_ ?_ rfl
    · simp [hire, Occurrence.booking?, Booking.code?]
    · simp [hire, Occurrence.saying?]
  | _ =>
    refine still ?_ ?_ rfl
    · simp [handOver, giveUp, Occurrence.booking?, Booking.code?]
    · simp [handOver, giveUp, Occurrence.saying?]

/-- Code puts no task that already speaks behind those that are there. -/
theorem Shift.exists_more {a : Option Nat} {th th' : Thread ν} {w' : World ν}
    (h : Shift t a th w th' w') : ∃ more, w'.tasks.toList = w.tasks.toList ++ more ∧
      ∀ task ∈ more, task.thread? = none := by
  cases h with
  | launched =>
    refine ⟨crew w.settings w.epochs.size, by simp, fun task hm => ?_⟩
    obtain ⟨_, _, rfl⟩ | ⟨_, rfl⟩ := mem_crew.1 hm <;> rfl
  | hired => exact ⟨_, by simp [hire, World.spawn]; rfl, by simp [Task.thread?]⟩
  | aside ha => exact ⟨[], by rw [ha.tasks, List.append_nil], by simp⟩
  | _ => exact ⟨[], by simp [handOver, giveUp], by simp⟩

/-- What an elementary change does to the code of a job. -/
theorem Change.speech (c : Change w u) (hp : w.Papers)
    (hu : ∀ job', .submitted k job' ∈ u.occurrences → job' = job) :
    Speech.Step (w.speech k job) (u.speech k job) := by
  have known : ∀ {x : Entry ν}, .submitted x.ticket x.job ∈ w.occurrences →
      x.ticket = k → x.job = job := fun hx hk => hu _ (hk ▸ c.grows.mem hx)
  cases c with
  | aside ha =>
    refine .still ?_
    rw [World.speech, ha.books, ha.said, World.left, ha.tasks]
    rfl
  | posted code =>
    have hleft : (w.spawn (.client { body := code })).left k = w.left k := by
      simp [World.left, World.spawn, Task.left, Task.thread?, Task.author?, Thread.left]
    exact .still (by rw [World.speech, World.speech, hleft]; rfl)
  | @code w' i task th th' hi hth h =>
    obtain ⟨more, hmore, hsilent⟩ := h.exists_more
    have hold : task.left k = th.left k task.author? := by rw [Task.left, hth]
    have hnew : (task.withThread th').left k = th'.left k task.author? := by
      rw [Task.left, h.thread?_withThread hth, author?_withThread]
    refine speech_setTask hi hmore hsilent fun A B => ?_
    rw [hold, hnew]
    exact h.speech hp hu A B
  | brokenOff hi hl =>
    refine speech_setTask_of_same hi rfl ?_ rfl rfl
    simp [Task.left, Task.thread?, Task.author?, Thread.left, hl]
  | welcomed hi =>
    exact speech_assign hi (by simp) rfl (by simp [Occurrence.booking?])
      (by simp [Occurrence.saying?]) (known ((hp.tasks _ _ hi).seed _ _ _ _ rfl).1)
  | lost hi =>
    exact speech_setTask_of_same hi (by simp) rfl (by simp [Occurrence.booking?, Booking.code?])
      (by simp [Occurrence.saying?])
  | claimed hi _ hc =>
    exact speech_assign hi rfl rfl rfl rfl (known (hp.stock _ _
      ((Epoch.perm_entries_of_claim hc).mem_iff.2 List.mem_cons_self)))
  | @finished i home kind source n th os state hi ho hos hs =>
    have hsilent : os.filterMap Occurrence.booking? = [] ∧
        os.filterMap (Occurrence.saying? k) = [] := by
      obtain ⟨-, rfl⟩ | ⟨p, -, rfl⟩ := hos <;>
        simp [List.filterMap_cons, Occurrence.booking?, Occurrence.saying?]
    refine speech_finish hi ho ?_ ?_ ?_
    · simp [Occurrence.booking?, hsilent.1]
    · simp [List.filterMap_cons, Occurrence.saying?, hsilent.2]
    · obtain ⟨rfl, -⟩ | ⟨_, rfl, -⟩ | ⟨rfl, -⟩ := hs <;> rfl
  | quit hi hq =>
    refine speech_setTask_of_same hi rfl ?_ rfl rfl
    obtain ⟨_, rfl, -⟩ | ⟨rfl, -⟩ := hq <;> rfl
  | shut hi hs =>
    refine speech_setTask_of_same hi rfl ?_ rfl rfl
    obtain rfl | rfl := hs <;> rfl
  | @discarded i home x rest hi hb =>
    exact speech_discard hi (known (hp.stock home x (by simp [Epoch.entries, hb])))
  | flushed hi =>
    exact speech_setTask_of_same hi (by simp) rfl
      (by simp [Occurrence.booking?, List.filterMap_map, Function.comp_def])
      (by simp [Occurrence.saying?, List.filterMap_map, Function.comp_def])
  | collected hi hs =>
    obtain rfl | rfl := hs <;> exact speech_setTask_of_same hi (by simp [takeIn]) rfl
      (by simp [takeIn, Occurrence.booking?]) (by simp [takeIn, Occurrence.saying?])
  | tookIn hi =>
    exact speech_setTask_of_same hi (by simp [takeIn]) rfl (by simp [takeIn, Occurrence.booking?])
      (by simp [takeIn, Occurrence.saying?])
  | discarding hi => exact speech_setTask_of_same hi rfl rfl rfl rfl
  | _ hi =>
    exact speech_setTask_of_same hi (by simp) rfl (by simp [Occurrence.booking?])
      (by simp [Occurrence.saying?])

/-- No more than one piece of code is ever begun for a job. -/
theorem Ledger.length_begun_le (h : w.Ledger) (k : Nat) (job : Job ν) :
    (w.speech k job).begun.length ≤ 1 := by
  have hle := h.calls_le_one k
  have hlength : ∀ bs : List Booking,
      (bs.filterMap (Booking.code? k job)).length = bs.countP (·.begins k) := by
    intro bs
    induction bs with
    | nil => rfl
    | cons b bs ih =>
      rw [List.filterMap_cons, List.countP_cons, ← ih]
      cases b <;> simp only [Booking.code?, Booking.begins] <;> split_ifs <;> simp_all
  rw [calls_eq] at hle
  exact (hlength _).trans_le hle

/-- The code of every job speaks in order. -/
theorem Evolved.inOrder (h : Evolved settings hook w)
    (hu : ∀ job', .submitted k job' ∈ w.occurrences → job' = job) : (w.speech k job).InOrder := by
  induction h with
  | opened =>
    have hleft : ({ settings, hook : World ν }.launch).left k = [] := by
      rw [World.left, tasks_launch, List.flatMap_eq_nil_iff]
      intro task hm
      obtain ⟨_, _, rfl⟩ | ⟨_, rfl⟩ := mem_crew.1 (by simpa using hm) <;> rfl
    refine .inl ?_
    rw [World.speech, hleft, said, picked_launch, books_launch]
    rfl
  | @next w u h c ih =>
    have before := ih fun job' hj => hu job' (c.grows.mem hj)
    exact before.step (c.speech h.papers hu) ((h.next c).ledger.length_begun_le k job)

/-- Nothing is left to do for a job whose code does nothing any more. -/
theorem left_eq_nil (h : ¬ w.Speaks k) : w.left k = [] := by
  rw [World.left, List.flatMap_eq_nil_iff]
  intro task hm
  obtain ⟨t, ht⟩ := List.mem_iff_getElem?.1 hm
  rw [Array.getElem?_toList] at ht
  unfold Task.left
  cases hth : task.thread? with
  | none => rfl
  | some th =>
    have hbody : task.author? ≠ some k := by
      intro hauthor
      obtain ⟨home, kind, source, th', rfl⟩ := Task.author?_eq_some hauthor
      exact h (.job ht rfl)
    have hlayers : th.layers.filterMap (Layer.left? k) = [] := by
      rw [List.filterMap_eq_nil_iff]
      intro layer hlayer
      cases layer with
      | drain => rfl
      | callback ticket code =>
        have hne : ticket ≠ k := by
          rintro rfl
          exact h (.callback ht hth hlayer)
        simp [Layer.left?, hne]
    simp [Thread.left, hlayers, hbody]

section Said

variable (h : Evolved settings hook w) (hs : .submitted k job ∈ w.occurrences)

include h hs

/-- What a job has said comes of the beginning of the code that was begun for it, and of all of that
once nothing of it is left to do. -/
theorem Evolved.said_of_code {b : Booking} {code : List (Act ν)} (hb : b ∈ w.books)
    (hc : b.code? k job = some code) : ∃ done rest, code = done ++ rest ∧
      Act.SayAll done (w.said k) ∧ (¬ w.Speaks k → rest = []) := by
  have hm : code ∈ (w.speech k job).begun := List.mem_filterMap.2 ⟨b, hb, hc⟩
  obtain hnone | ⟨done, rest, hbegun, hsaid, hleft⟩ :=
    h.inOrder fun job' hj => h.ledger.job_unique hs hj
  · rw [hnone] at hm
    cases hm
  · rw [hbegun, List.mem_singleton] at hm
    refine ⟨done, rest, hm, hsaid, fun hsilent => ?_⟩
    obtain hleft | ⟨-, hrest⟩ := hleft
    · cases (left_eq_nil hsilent).symm.trans hleft
    · exact hrest

/-- A job that was begun speaks as its body does. -/
theorem Evolved.said_of_started {source : Source} (hb : .started e k t source ∈ w.occurrences) :
    ∃ done rest, job.run.acts = done ++ rest ∧ Act.SayAll done (w.said k) ∧
      (¬ w.Speaks k → rest = []) :=
  h.said_of_code hs (mem_books hb rfl) (by simp [Booking.code?])

/-- A job that was abandoned speaks as its abandonment does. -/
theorem Evolved.said_of_abandoned (hb : .abandoned e k ∈ w.occurrences) :
    ∃ done rest, job.abandon.acts.map .deed = done ++ rest ∧ Act.SayAll done (w.said k) ∧
      (¬ w.Speaks k → rest = []) :=
  h.said_of_code hs (mem_books hb rfl) (by simp [Booking.code?])

/-- A job that was neither begun nor abandoned has said nothing. -/
theorem Evolved.said_eq_nil (hb : ∀ b ∈ w.books, b.code? k job = none) : w.said k = [] := by
  obtain hnone | ⟨done, rest, hbegun, -⟩ :=
    h.inOrder fun job' hj => h.ledger.job_unique hs hj
  · exact congrArg Speech.said hnone
  · have hnil : (w.speech k job).begun = [] := List.filterMap_eq_nil_iff.2 hb
    rw [hnil] at hbegun
    cases hbegun

end Said

end World

end WorkerPool
