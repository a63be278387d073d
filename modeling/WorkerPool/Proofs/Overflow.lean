import WorkerPool.Proofs.Stillness
import WorkerPool.Proofs.Stops

/-!
# The way out of the dispatcher

Once an epoch is closed, whoever waits at its intake is turned away by its next step, and nobody is
accepted there any more. Its dispatcher takes what is still under way, abandons all that it holds,
and is over; it waits for no one but those who have been granted the place and have not yet been
turned away. For these it waits in vain: they leave without a job, and only a job would wake it.
-/

namespace WorkerPool.World

variable {ν : Type} {w u v : World ν} {e : EpochId} {t : TaskId} {k : Nat} {settings : Settings}
  {hook : Option Hook}

section Line

/-- Task `t` waits at the intake of epoch `e` with the job `k`, which it submits for this author as
the next act of this body. -/
def InLineAt (w : World ν) (t : TaskId) (e : EpochId) (k : Nat) (author : Option Nat)
    (body : Script (Act ν) Unit) : Prop :=
  ∃ task th, w.tasks[t]? = some task ∧ task.thread? = some th ∧ task.author? = author ∧
    th.wait = .inLine e k ∧ th.body = body

/-- Whoever stands in line is about to submit a job. -/
theorem exists_inLineAt (hw : w.Sound) (h : w.line? t = some (e, k)) :
    ∃ author body run abandon accepted refused gone rest, w.InLineAt t e k author body ∧
      body.acts = .submit run abandon accepted refused gone :: rest := by
  obtain ⟨task, ht, hline⟩ := Option.bind_eq_some_iff.1 h
  obtain ⟨th, hth, hwait⟩ := Option.bind_eq_some_iff.1 hline
  have hwait : th.wait = .inLine e k := by
    cases hw : th.wait <;> simp_all [Wait.line?]
  have hfits := ((hw.tasks t task ht).thread th hth).fits
  rw [Thread.Fits, hwait] at hfits
  obtain ⟨job, accepted, refused, gone, rest, ha⟩ := hfits
  exact ⟨_, _, _, _, accepted, refused, gone, rest, ⟨task, th, ht, hth, rfl, hwait, rfl⟩, ha⟩

/-- Whoever waits there stands in line. -/
theorem InLineAt.line? {author : Option Nat} {body : Script (Act ν) Unit}
    (h : w.InLineAt t e k author body) : w.line? t = some (e, k) := by
  obtain ⟨task, th, ht, hth, _, hwait, _⟩ := h
  simp [World.line?, ht, Task.line?, hth, hwait, Wait.line?]

/-- A task whose body can go on does the next act of it, if no drain or callback comes first. -/
theorem step_of_body {task : Task ν} {th : Thread ν} {act : Act ν} {rest : List (Act ν)}
    (ht : w.tasks[t]? = some task) (hth : task.thread? = some th) (hl : th.layers = [])
    (ha : th.body.acts = act :: rest) (hr : w.bodyReady t th = true) :
    w.step t = (w.stepAct t task.author? th act).2.setTask t
      (task.withThread (w.stepAct t task.author? th act).1) := by
  have hstep : w.stepThread t task.author? th = w.stepAct t task.author? th act := by
    simp only [stepThread, hl, ha]
  rw [← hstep]
  exact (step_of_thread ht hth (by simp [threadReady, hr]) (by simp [Thread.isOver, ha])).2

/-- Letting go of a handle makes a world grow. -/
theorem grows_letGo (hw : w.Sound) : Grows w w.letGo.2 :=
  (shifts_letGo (t := 0) (a := none) ⟨[], ⟨[], .ok ()⟩, .nothing⟩ hw).grows

/-- In a state `a` on the way from `u` to `v` task `t` was refused: it reports that for its author,
and goes on with the rest of its body. -/
structure TurnedAway (u a v : World ν) (t : TaskId) (k : Nat) (author : Option Nat) (refused : ν)
    (rest : List (Act ν)) : Prop where
  before : Run u a
  after : Run (a.step t) v
  reported : a.occurrences ++ [.refused k, .note author refused] <+: (a.step t).occurrences
  goesOn : ∃ th, (a.step t).thread? t = some th ∧ th.wait = .nothing ∧ th.body.acts = rest

/-- In a state `a` on the way from `u` to `v` the client that waited gave up. -/
structure BrokenOff (u a v : World ν) (t : TaskId) (e : EpochId) (k : Nat) : Prop where
  before : Run u a
  after : Run (a.withdraw t) v
  waiting : a.line? t = some (e, k)
  refused : .refused k ∈ (a.withdraw t).occurrences

/-- The next step of a body that waits at a closed epoch refuses its job. -/
theorem step_of_inLine (hw : w.Sound) (hc : (w.epoch e).closed = true) {task : Task ν}
    {th : Thread ν} {run : Script (Act ν) Unit} {abandon : Script (Deed ν) Unit}
    {accepted refused gone : ν} {rest : List (Act ν)} (ht : w.tasks[t]? = some task)
    (hth : task.thread? = some th) (hl : th.layers = []) (hwait : th.wait = .inLine e k)
    (ha : th.body.acts = .submit run abandon accepted refused gone :: rest) :
    w.occurrences ++ [.refused k, .note task.author? refused] <+: (w.step t).occurrences ∧
      ∃ th', (w.step t).thread? t = some th' ∧ th'.wait = .nothing ∧ th'.body.acts = rest := by
  have hr : w.bodyReady t th = true := by simp [bodyReady, hwait, hc]
  have hact : w.stepAct t task.author? th (.submit run abandon accepted refused gone) =
      (w.giveUp t e k).conclude task.author? th refused := by
    simp only [stepAct, hwait, submitGranted, hc, Bool.true_or, if_true]
  have hlt : t < w.tasks.size := (Array.getElem?_eq_some_iff.1 ht).1
  have hgave : (w.giveUp t e k).Sound := (hw.modifyEpoch e rfl).record _
  have grows := grows_letGo (hgave.record (.note task.author? refused))
  change Grows _ ((w.giveUp t e k).conclude task.author? th refused).2 at grows
  rw [step_of_body ht hth hl ha hr, hact]
  refine ⟨?_, ((w.giveUp t e k).conclude task.author? th refused).1, thread?_eq_some.2 ⟨_,
    getElem?_setTask_self _ _ _ (Nat.lt_of_lt_of_le hlt grows.tasks), ?_⟩, rfl, ?_⟩
  · simpa [giveUp] using grows.occurrences
  · obtain ⟨_, _, _, _, rfl⟩ | ⟨_, _, rfl, rfl⟩ | rfl := Task.thread?_eq_some hth
    · rfl
    · cases ha
    · rfl
  · change th.body.acts.tail = rest
    rw [ha, List.tail_cons]

/-- Whoever waits at a closed epoch waits on, is refused by its own next step, or is a client that
gives up. -/
theorem Move.inLineAt (m : Move w u) (hw : w.Sound) (hc : (w.epoch e).closed = true)
    {author : Option Nat} {body : Script (Act ν) Unit} {run : Script (Act ν) Unit}
    {abandon : Script (Deed ν) Unit} {accepted refused gone : ν} {rest : List (Act ν)}
    (ha : body.acts = .submit run abandon accepted refused gone :: rest)
    (h : w.InLineAt t e k author body) : u.InLineAt t e k author body ∨
      TurnedAway w w u t k author refused rest ∨ BrokenOff w w u t e k := by
  have hline := h.line?
  obtain ⟨task, th, ht, hth, rfl, hwait, rfl⟩ := h
  have hlt : t < w.tasks.size := (Array.getElem?_eq_some_iff.1 ht).1
  obtain hsame | rfl | rfl := m.getElem?_tasks hw hlt
  · exact .inl ⟨task, th, hsame.trans ht, hth, rfl, hwait, rfl⟩
  · by_cases hl : th.layers = []
    · obtain ⟨hreported, hgoes⟩ := step_of_inLine hw hc ht hth hl hwait ha
      exact .inr (.inl ⟨.refl _, .refl _, hreported, hgoes⟩)
    · have shifts := shifts_stepLayers (t := t) (a := task.author?) th hw
      rw [(step_of_layers ht hth hl).2]
      exact .inl ⟨_, _, getElem?_setTask_self _ _ _ (Nat.lt_of_lt_of_le hlt shifts.grows.tasks),
        shifts.thread?_withThread hth, by simp, hwait, rfl⟩
  · by_cases hclient : ∃ body wait, w.tasks[t]? = some (.client ⟨[], body, wait⟩)
    · obtain ⟨body, wait, hi⟩ := hclient
      obtain rfl := Option.some.inj (ht.symm.trans hi)
      obtain rfl : ⟨[], body, wait⟩ = th := by simpa [Task.thread?] using hth
      obtain rfl : wait = .inLine e k := hwait
      refine .inr (.inr ⟨.refl _, .refl _, hline, ?_⟩)
      have hgave : (w.giveUp t e k).Sound := (hw.modifyEpoch e rfl).record _
      simp only [World.withdraw, hi, occurrences_setTask]
      exact (grows_letGo hgave).mem (by simp [giveUp])
    · have hsame : w.withdraw t = w := by
        unfold World.withdraw
        split
        · rename_i body wait hi
          exact absurd ⟨body, wait, hi⟩ hclient
        · rfl
      rw [hsame]
      exact .inl ⟨task, th, ht, hth, rfl, hwait, rfl⟩

/-- In every state after an epoch was closed, whoever waited there waits on, was turned away, or was
a client that gave up. -/
theorem Evolved.inLineAt (hu : Evolved settings hook u) (hc : (u.epoch e).closed = true)
    {author : Option Nat} {body : Script (Act ν) Unit} {run : Script (Act ν) Unit}
    {abandon : Script (Deed ν) Unit} {accepted refused gone : ν} {rest : List (Act ν)}
    (ha : body.acts = .submit run abandon accepted refused gone :: rest)
    (h : u.InLineAt t e k author body) (r : Run u v) : v.InLineAt t e k author body ∨
      (∃ a, TurnedAway u a v t k author refused rest) ∨ ∃ a, BrokenOff u a v t e k := by
  induction r with
  | refl => exact .inl h
  | @tail a v r m ih =>
    obtain hin | ⟨b, hb⟩ | ⟨b, hb⟩ := ih
    · have before : Changes u a := hu.changes_of_run r
      have ha' := before.grows.closed e (lt_of_closed hc) hc
      obtain hin | ht | hb := m.inLineAt (hu.changes before).sound ha' ha hin
      · exact .inl hin
      · exact .inr (.inl ⟨a, { ht with before := r }⟩)
      · exact .inr (.inr ⟨a, { hb with before := r }⟩)
    · exact .inr (.inl ⟨b, { hb with after := hb.after.tail m }⟩)
    · exact .inr (.inr ⟨b, { hb with after := hb.after.tail m }⟩)

end Line

/-- Nobody can take a step who works for an epoch, except for workers inside of jobs, or who waits
at its intake. -/
def StillOutside (w : World ν) (e : EpochId) : Prop :=
  ∀ (t : TaskId) (task : Task ν), w.tasks[t]? = some task →
    task.home? = some e ∧ task.running? = none ∨ w.WaitsFor e t → w.ready t = false

namespace StillOutside

variable (h : w.StillOutside e) (hc : (w.epoch e).closed = true)

include h hc

/-- Nobody waits at the intake of a closed epoch that stands still. -/
theorem not_waitsFor (hw : w.Sound) (t : TaskId) : ¬ w.WaitsFor e t := by
  rintro ⟨k, hk⟩
  have hready := ready_of_line? hw hk (.inl hc)
  obtain ⟨task, ht, _⟩ := Option.bind_eq_some_iff.1 hk
  rw [h t task ht (.inr ⟨k, hk⟩)] at hready
  cases hready

/-- A dispatcher of a closed epoch that stands still is over, or it expects a job. -/
theorem dispatcher {state : DispatcherState ν} (ht : w.tasks[t]? = some (.dispatcher e state)) :
    state = .gone ∨ state = .expecting := by
  have hready := h t _ ht (.inl ⟨rfl, rfl⟩)
  simp only [ready, ht] at hready
  cases state with
  | parked => simp [hc] at hready
  | expecting => exact .inr rfl
  | gone => exact .inl rfl
  | _ => cases hready

variable (hw : Evolved settings hook w) (hm : settings.maxTemps.isSome)

include hw hm

/-- The dispatcher of a closed epoch that stands still has left nothing, or it expects a job. -/
theorem gone_or_expects : (∃ t : TaskId, w.tasks[t]? = some (.dispatcher e .gone)) ∧
    (w.epoch e).backlog = [] ∨ ∃ t : TaskId, w.tasks[t]? = some (.dispatcher e .expecting) := by
  obtain ⟨t, state, ht⟩ := hw.manned.exists_dispatcher (lt_of_closed hc) (by rwa [hw.same.1])
  obtain rfl | rfl := h.dispatcher hc ht
  · exact .inl ⟨⟨t, ht⟩, (hw.dispatched.fits t e _ ht).2.2.2⟩
  · exact .inr ⟨t, ht⟩

/-- Nothing is left in the intake of a closed epoch that stands still. -/
theorem intake : (w.epoch e).intake.slot = none ∧ (w.epoch e).intake.granted = none ∧
    (w.epoch e).intake.line = [] := by
  have hslot : (w.epoch e).intake.slot = none := by
    obtain ⟨⟨t, ht⟩, _⟩ | ⟨t, ht⟩ := h.gone_or_expects hc hw hm
    · exact (Intake.isFree_iff.1 (hw.dispatched.fits t e _ ht).2.2.1).1
    · exact (hw.dispatched.fits t e _ ht).2.2.2
  have hgranted : (w.epoch e).intake.granted = none := by
    by_contra hne
    obtain ⟨s, hs⟩ := Option.ne_none_iff_exists'.1 hne
    exact h.not_waitsFor hc hw.sound s ((hw.orderly e).waiting s (.inr hs))
  exact ⟨hslot, hgranted, (hw.orderly e).line_eq hslot hgranted⟩

end StillOutside

section Sleep

/-- A dispatcher stays the dispatcher of its epoch. -/
theorem Changes.exists_dispatcher (h : Changes w v) {state : DispatcherState ν}
    (ht : w.tasks[t]? = some (.dispatcher e state)) :
    ∃ state', v.tasks[t]? = some (.dispatcher e state') := by
  induction h with
  | refl => exact ⟨state, ht⟩
  | tail _ c ih =>
    obtain ⟨_, ha⟩ := ih
    obtain ⟨state', hv, _⟩ := c.next_of_dispatcher ha
    exact ⟨state', hv⟩

/-- A dispatcher that expects a job does so for ever. -/
theorem Evolved.expecting (hw : Evolved settings hook w) (h : Changes w v)
    (ht : w.tasks[t]? = some (.dispatcher e .expecting)) :
    v.tasks[t]? = some (.dispatcher e .expecting) := by
  induction h with
  | refl => exact ht
  | tail before c ih => exact c.expecting_of_expecting (hw.changes before).dispatched ih

/-- What the dispatcher of a closed epoch holds stays until it begins to abandon it. -/
theorem Evolved.held_eq (hw : Evolved settings hook w) (h : Changes w v)
    (hc : (w.epoch e).closed = true) {before after : DispatcherState ν}
    (ht : w.tasks[t]? = some (.dispatcher e before))
    (hv : v.tasks[t]? = some (.dispatcher e after)) (hs : after.isAbandoning = false) :
    (v.epoch e).held = (w.epoch e).held := by
  induction h generalizing after with
  | refl => rfl
  | @tail a v first c ih =>
    obtain ⟨state, ha⟩ := Changes.exists_dispatcher first ht
    obtain ⟨_, hv', hnext⟩ := c.next_of_dispatcher ha
    obtain rfl : _ = after := by simpa using hv'.symm.trans hv
    have hstate : state.isAbandoning = false := by
      by_contra habandoning
      rw [Bool.not_eq_false] at habandoning
      obtain rfl | hnext := hnext
      · simp [habandoning] at hs
      · simp [hnext.isAbandoning habandoning] at hs
    rw [← ih ha hstate]
    cases c.fading ((Changes.grows first).closed e (lt_of_closed hc) hc) with
    | still _ _ hh => exact hh
    | drained _ _ _ _ _ hh => exact hh
    | discarded hi =>
      obtain rfl := (hw.changes first).manned.unique hi ha rfl rfl
      obtain rfl : .discarding [] = state := by simpa using hi.symm.trans ha
      cases hstate

/-- The place at the intake of a closed epoch is not granted again once it is kept for nobody. -/
theorem Evolved.granted_eq_none (hw : Evolved settings hook w) (h : Changes w v)
    (hc : (w.epoch e).closed = true) (hg : (w.epoch e).intake.granted = none) :
    (v.epoch e).intake.granted = none := by
  induction h with
  | refl => exact hg
  | tail before c ih =>
    have ha := hw.changes before
    exact c.granted_eq_none ha.sound ha.dispatched
      ((Changes.grows before).closed e (lt_of_closed hc) hc) ih

/-- A dispatcher that expects a job after its step did so before, or it has just looked for one. -/
theorem expecting_of_stepDispatcher {state : DispatcherState ν}
    (ht : w.tasks[t]? = some (.dispatcher e state))
    (hu : (w.stepDispatcher t e state).tasks[t]? = some (.dispatcher e .expecting)) :
    state = .expecting ∨ state = .collecting ∧ (w.epoch e).intake.slot = none ∧
      (w.epoch e).intake.isFree = false := by
  have other : ∀ {v : World ν} {new : DispatcherState ν},
      (v.setTask t (.dispatcher e new)).tasks[t]? = some (.dispatcher e .expecting) →
        .expecting = new := by
    intro v new hnew
    obtain ⟨_, hself⟩ | ⟨hne, _⟩ := getElem?_setTask_cases hnew
    · simpa using hself
    · exact absurd rfl hne
  rcases state with _ | _ | _ | _ | _ | (_ | ⟨layer, layers⟩) | _
  · cases other hu
  · simp only [stepDispatcher, stepFlushing, shutIntake] at hu
    split at hu <;> cases other hu
  · simp only [stepDispatcher, stepParked, shutIntake] at hu
    split at hu
    · cases other hu
    · split at hu
      · cases other hu
      · split at hu
        · cases other hu
        · simp [ht] at hu
  · refine .inr ⟨rfl, ?_⟩
    simp only [stepDispatcher, stepCollecting] at hu
    split at hu
    · cases other hu
    · rename_i hnone
      split at hu
      · split at hu <;> cases other hu
      · rename_i hf
        exact ⟨by simpa [Intake.take?] using hnone, Bool.eq_false_iff.2 hf⟩
  · exact .inl rfl
  · simp only [stepDispatcher] at hu
    split at hu
    · cases other hu
    · cases other hu
  · cases other hu
  · simp [stepDispatcher, ht] at hu

/-- A dispatcher that expects a job after a move did so before, or it has just looked for one. -/
theorem Move.expecting_cases (m : Move w u) (hw : w.Sound) {state : DispatcherState ν}
    (ht : w.tasks[t]? = some (.dispatcher e state))
    (hu : u.tasks[t]? = some (.dispatcher e .expecting)) : state = .expecting ∨
      u = w.step t ∧ state = .collecting ∧ (w.epoch e).intake.slot = none ∧
        (w.epoch e).intake.isFree = false := by
  obtain hsame | rfl | rfl := m.getElem?_tasks hw
    (Array.getElem?_eq_some_iff.1 ht).1
  · exact .inl (by simpa using ht.symm.trans (hsame.symm.trans hu))
  · cases hr : w.ready t with
    | true =>
      have hstep : w.step t = w.stepDispatcher t e state := by simp [World.step, hr, ht]
      rw [hstep] at hu
      exact (expecting_of_stepDispatcher ht hu).imp id fun looked => ⟨rfl, looked⟩
    | false =>
      rw [w.step_of_not_ready t hr] at hu
      exact .inl (by simpa using ht.symm.trans hu)
  · have hsame : w.withdraw t = w := by simp only [World.withdraw, ht]
    rw [hsame] at hu
    exact .inl (by simpa using ht.symm.trans hu)

/-- Whenever a dispatcher has come to expect a job, it had looked for one while the place was kept
for a submitter, who waited and was about to be turned away. -/
theorem Evolved.looked (hu : Evolved settings hook u) {state : DispatcherState ν}
    (ht : u.tasks[t]? = some (.dispatcher e state)) (hs : state ≠ .expecting) (r : Run u v)
    (hv : v.tasks[t]? = some (.dispatcher e .expecting)) : ∃ a s, Run u a ∧ Run (a.step t) v ∧
      a.tasks[t]? = some (.dispatcher e .collecting) ∧ (a.epoch e).intake.slot = none ∧
        (a.epoch e).intake.granted = some s ∧ a.WaitsFor e s := by
  induction r with
  | refl =>
    rw [ht] at hv
    exact absurd (by simpa using hv) hs
  | @tail a v before m ih =>
    have first := hu.changes_of_run before
    have ha := hu.changes first
    obtain ⟨state', hstate⟩ := Changes.exists_dispatcher first ht
    obtain rfl | ⟨rfl, rfl, hslot, hfree⟩ := m.expecting_cases ha.sound hstate hv
    · obtain ⟨b, s, hb, hlater, hlook⟩ := ih hstate
      exact ⟨b, s, hb, hlater.tail m, hlook⟩
    · have hgranted : (a.epoch e).intake.granted ≠ none := fun hg => by
        simp [Intake.isFree, hslot, hg] at hfree
      obtain ⟨s, hg⟩ := Option.ne_none_iff_exists'.1 hgranted
      exact ⟨a, s, before, .refl _, hstate, hslot, hg, (ha.orderly e).waiting s (.inr hg)⟩

end Sleep

/-- What has become of the intake of an epoch that was closed at `u`. -/
structure Cleared (u v : World ν) (e : EpochId) : Prop where
  /-- Nothing is left in the intake, and nobody waits. -/
  empty : (v.epoch e).intake.slot = none ∧ (v.epoch e).intake.granted = none ∧
    (v.epoch e).intake.line = [] ∧ ∀ t, ¬ v.WaitsFor e t
  /-- Every submission that waited was refused, its job neither run nor abandoned; the submitter was
  told so, or was a client that gave up before. -/
  refused : ∀ (t : TaskId) (k : Nat), u.line? t = some (e, k) →
    .refused k ∈ v.occurrences ∧ v.calls k = 0 ∧
      ∃ author body run abandon accepted refused gone rest,
        u.InLineAt t e k author body ∧
        body.acts = .submit run abandon accepted refused gone :: rest ∧
        ((∃ a, TurnedAway u a v t k author refused rest) ∨ ∃ a, BrokenOff u a v t e k)

/-- The dispatcher of an epoch that was closed at `u` has abandoned all that it held. -/
structure Dispersed (u v : World ν) (e : EpochId) : Prop where
  /-- The dispatcher is over. -/
  dispatcher : (∃ t : TaskId, v.tasks[t]? = some (.dispatcher e .gone)) ∧
    ∀ (t : TaskId) (state : DispatcherState ν),
      v.tasks[t]? = some (.dispatcher e state) → state = .gone
  /-- Nothing is left in the backlog. -/
  backlog : (v.epoch e).backlog = []
  /-- Every job that was in the intake or in the backlog was abandoned once, in order, and was not
  run. -/
  abandoned : ((u.epoch e).held.map (·.ticket)).Sublist (v.abandonedIn e) ∧
    ∀ x ∈ (u.epoch e).held, (v.abandonedIn e).count x.ticket = 1 ∧ v.calls x.ticket = 1

/-- The dispatcher of an epoch that was closed at `u` sleeps and will not wake. -/
structure Overslept (u v : World ν) (e : EpochId) : Prop where
  /-- The place at the intake was kept for a submitter when the epoch was closed. -/
  granted : (u.epoch e).intake.granted ≠ none
  /-- The dispatcher found no job, and the place kept for a submitter who had not been turned away
  yet; the turning away did not wake it. -/
  looked : ∃ a t s, Run u a ∧ Run (a.step t) v ∧ a.tasks[t]? = some (.dispatcher e .collecting) ∧
    (a.epoch e).intake.slot = none ∧ (a.epoch e).intake.granted = some s ∧ a.WaitsFor e s
  /-- Whatever follows, it expects a job, and holds all that was in the intake and in the backlog,
  which is neither run nor abandoned. -/
  forever : ∀ x, Run v x → (∃ t : TaskId, x.tasks[t]? = some (.dispatcher e .expecting)) ∧
    (x.epoch e).backlog = (u.epoch e).held ∧ ∀ y ∈ (u.epoch e).held, x.calls y.ticket = 0

/-- A job that its epoch has abandoned was abandoned once and not run. -/
theorem Ledger.abandoned_once (h : w.Ledger) (hk : k ∈ w.abandonedIn e) :
    (w.abandonedIn e).count k = 1 ∧ w.calls k = 1 := by
  have habandoned := mem_books (mem_abandonedIn.1 hk) rfl
  have hbegins : 0 < w.books.countP (·.begins k) :=
    List.countP_pos_iff.2 ⟨_, habandoned, by simp [Booking.begins]⟩
  have hle := h.calls_le_one k
  rw [← calls_eq] at hbegins
  exact ⟨List.count_eq_one_of_mem (h.nodup_abandonedIn e) hk, by omega⟩

/-- What grows in a move grows until any state after that. -/
theorem Evolved.grows_of_move {a b : World ν} (hu : Evolved settings hook u) (before : Run u a)
    (m : Move a b) (after : Run b v) : Grows b v := by
  have ha := hu.changes (hu.changes_of_run before)
  have hb := ha.changes (m.changes ha.sound)
  exact (hb.changes_of_run after).grows

/-- Whoever closes an epoch finds its dispatcher at work, or parked. -/
theorem Closes.exists_dispatcher {th : Thread ν} {below : List (Layer ν)}
    (h : Closes w u e t th below) (hu : Evolved settings hook u) (hm : settings.maxTemps.isSome)
    (hd : w.Dispatched) (ho : (w.epoch e).closed = false) (hc : (u.epoch e).closed = true) :
    ∃ (i : TaskId) (state : DispatcherState ν), u.tasks[i]? = some (.dispatcher e state) ∧
      state ≠ .expecting := by
  obtain ⟨i, state, hi⟩ := hu.manned.exists_dispatcher (lt_of_closed hc) (by rwa [hu.same.1])
  refine ⟨i, state, hi, ?_⟩
  rintro rfl
  have hne : i ≠ t := by
    rintro rfl
    obtain ⟨task, ht, hth⟩ := thread?_eq_some.1 h.thread
    obtain rfl := Option.some.inj (ht.symm.trans hi)
    cases hth
  have hclosed := (hd.fits i e _ ((h.tasks i hne).symm.trans hi)).2.1
  exact absurd (ho.symm.trans hclosed) (by decide)

/-- A dispatcher that has come to expect a job since its epoch was closed looked for one while the
place was kept for a submitter; so the place was kept for one when the epoch was closed. -/
theorem Closes.looked {th : Thread ν} {below : List (Layer ν)} {i : TaskId}
    (h : Closes w u e t th below) (hu : Evolved settings hook u) (hd : w.Dispatched)
    (ho : (w.epoch e).closed = false) (hc : (u.epoch e).closed = true) (r : Run u v)
    (hv : v.tasks[i]? = some (.dispatcher e .expecting)) :
    (u.epoch e).intake.granted ≠ none ∧ ∃ a s, Run u a ∧ Run (a.step i) v ∧
      a.tasks[i]? = some (.dispatcher e .collecting) ∧ (a.epoch e).intake.slot = none ∧
        (a.epoch e).intake.granted = some s ∧ a.WaitsFor e s := by
  have later := hu.changes_of_run r
  have hv' := hu.changes later
  have hm := hv'.manned.isSome_maxTemps hv
  rw [hv'.same.1] at hm
  obtain ⟨j, state, hj, hstate⟩ := h.exists_dispatcher hu hm hd ho hc
  obtain ⟨_, hsame⟩ := Changes.exists_dispatcher later hj
  obtain rfl := hv'.manned.unique hsame hv rfl rfl
  obtain ⟨a, s, before, after, hlooks, hslot, hgranted, hwaits⟩ := hu.looked hj hstate r hv
  refine ⟨fun hnone => ?_, a, s, before, after, hlooks, hslot, hgranted, hwaits⟩
  have := hu.granted_eq_none (hu.changes_of_run before) hc hnone
  rw [hgranted] at this
  cases this

/-- Nobody waits any more at the intake of a closed epoch that stands still, and whoever did was
refused. -/
theorem StillOutside.cleared (still : v.StillOutside e) (hu : Evolved settings hook u)
    (hm : settings.maxTemps.isSome) (hc : (u.epoch e).closed = true) (r : Run u v) :
    Cleared u v e := by
  have later := hu.changes_of_run r
  have hv := hu.changes later
  have hclosed := later.grows.closed e (lt_of_closed hc) hc
  have waits := still.not_waitsFor hclosed hv.sound
  obtain ⟨hslot, hgranted, hline⟩ := still.intake hclosed hv hm
  refine ⟨⟨hslot, hgranted, hline, waits⟩, fun t k hk => ?_⟩
  obtain ⟨author, body, run, abandon, accepted, refused, gone, rest, hin, ha⟩ :=
    exists_inLineAt hu.sound hk
  have fate := hu.inLineAt hc ha hin r
  have hrefused : .refused k ∈ v.occurrences := by
    obtain hin | ⟨a, ha⟩ | ⟨a, ha⟩ := fate
    · exact absurd ⟨k, hin.line?⟩ (waits t)
    · exact (hu.grows_of_move ha.before (.step a t) ha.after).mem
        (ha.reported.subset (by simp))
    · exact (hu.grows_of_move ha.before (.withdraw a t) ha.after).mem ha.refused
  refine ⟨hrefused, hv.ledger.calls_of_refused (mem_books hrefused rfl), author, body, run,
    abandon, accepted, refused, gone, rest, hin, ha, fate.resolve_left fun hin => ?_⟩
  exact waits t ⟨k, hin.line?⟩

/-- A dispatcher that expects a job holds for ever all that was there when its epoch was closed. -/
theorem Evolved.keeps_held (hu : Evolved settings hook u) (hc : (u.epoch e).closed = true)
    {state : DispatcherState ν} (hi : u.tasks[t]? = some (.dispatcher e state)) (r : Run u v)
    (hv : v.tasks[t]? = some (.dispatcher e .expecting)) :
    (v.epoch e).backlog = (u.epoch e).held ∧ ∀ y ∈ (u.epoch e).held, v.calls y.ticket = 0 := by
  have later := hu.changes_of_run r
  have hv' := hu.changes later
  have hheld := hu.held_eq later hc hi hv rfl
  have hslot := (hv'.dispatched.fits t e _ hv).2.2.2
  refine ⟨?_, fun y hy => hv'.ledger.calls_of_unclaimed (e := e) (Nat.add_pos_left ?_ _)⟩
  · rw [← hheld, Epoch.held, hslot, Option.toList_none, List.append_nil]
  · rw [← hheld] at hy
    refine List.countP_pos_iff.2 ⟨y, ?_, by simp⟩
    rw [Epoch.entries]
    rw [Epoch.held] at hy
    simp only [List.mem_append] at hy ⊢
    tauto

/-- A narrow pool without temporary workers. -/
def tight : Settings := { narrow with maxTemps := some 0 }

/-- Submits jobs of this code, which panic when they are abandoned. -/
def submits (n : Nat) (run : Script (Act Nat) Unit) : Script (Act Nat) Unit :=
  ⟨List.replicate n (.submit run ⟨[], .error .unprintable⟩ 0 1 2), .ok ()⟩

/-- A tight pool whose worker is inside of a job. Two jobs are queued and two are in the backlog; of
two more clients the first has been granted the place at the intake. -/
def crowd : World Nat :=
  let fresh := { settings := tight : World Nat }.launch
  let begun := [0, 1, 1, 2, 0, 2, 2, 2, 1, 1, 2].foldl step
    (fresh.spawn (.client { body := submits 5 ⟨[.pass 0], .ok ()⟩ }))
  let first := [3].foldl step (begun.spawn (.client { body := submits 1 ⟨[], .ok ()⟩ }))
  [4, 1, 1, 1].foldl step (first.spawn (.client { body := submits 1 ⟨[], .ok ()⟩ }))

/-- The same pool; a third client is about to make this call. -/
def crowdedBy (code : Script (Act Nat) Unit) : World Nat := crowd.spawn (.client { body := code })

theorem crowdedBy_reachable (code : Script (Act Nat) Unit) :
    Reachable tight none (crowdedBy code) :=
  ((((Reachable.launch none ⟨by decide, by decide, by decide, by decide⟩).call _ _).call _ _).call
    _ _).call code []

/-- The pool is about to be stopped. -/
def crowded : World Nat := crowdedBy ⟨[.deed .stop], .ok ()⟩

/-- The same pool once nobody can go on: the client that had been granted the place was turned away
before the dispatcher looked for its job. -/
def vacated : World Nat :=
  (List.replicate 7 5 ++ [3, 4] ++ List.replicate 10 1).foldl step (crowded.step 5)

/-- The same pool once nobody can go on: the dispatcher looked first. -/
def overslept : World Nat :=
  ([1, 1] ++ List.replicate 7 5 ++ [3, 4] ++ List.replicate 8 1).foldl step (crowded.step 5)

end WorkerPool.World
