import WorkerPool.Event
import WorkerPool.Proofs.Replies

/-!
# The phases of events

An event is watched through reports: each of its phases reports that it begins, and the callback
reports the call and its outcome before it does anything else. Whatever the phases and the callback
do besides, the phases that begin are the first ones up to the first that does not succeed, and the
one call tells how they ended, or that none of them began.
-/

namespace WorkerPool

open Text

variable {ν μ ρ ε α β : Type}

/-- The three phases of an event; the one in the middle is its action, or handles it. -/
inductive Stage where
  | before
  | main
  | after
  deriving DecidableEq, Repr

/-- What is reported in a pool of events: that a phase begins, the call of the callback, or anything
else. -/
inductive EventReport (ν ρ ε : Type) where
  | begun (stage : Stage)
  | called (name : String) (outcome : Outcome ρ ε)
  | other (n : ν)

/-- A phase that begins, or a call of the callback with the name of the event. -/
abbrev Mark (ρ ε : Type) := Stage ⊕ (String × Outcome ρ ε)

/-- The mark that a deed reports. -/
def Deed.mark? : Deed (EventReport ν ρ ε) → Option (Mark ρ ε)
  | note (.begun stage) => some (.inl stage)
  | note (.called name outcome) => some (.inr (name, outcome))
  | _ => none

/-- What a deed does besides reporting marks. -/
def Deed.plain? : Deed (EventReport ν ρ ε) → Option (Deed ν)
  | note (.other n) => some (.note n)
  | note _ => none
  | log notice => some (.log notice)
  | start => some .start
  | stop => some .stop
  | hold => some .hold
  | drop => some .drop

namespace Deed

@[simp] theorem plain?_rename (d : Deed ν) :
    (d.rename (EventReport.other : ν → EventReport ν ρ ε)).plain? = some d := by
  cases d <;> rfl

end Deed

/-- The marks that code leaves. -/
def marks (acts : List (Deed (EventReport ν ρ ε))) : List (Mark ρ ε) :=
  acts.flatMap (Deed.picks Deed.mark?)

section Marks

variable (d : Deed (EventReport ν ρ ε)) (acts acts' : List (Deed (EventReport ν ρ ε)))

@[simp] theorem marks_cons : marks (d :: acts) = d.picks Deed.mark? ++ marks acts :=
  List.flatMap_cons

@[simp] theorem marks_append : marks (acts ++ acts') = marks acts ++ marks acts' :=
  List.flatMap_append

/-- Code that has no word for marks leaves none. -/
@[simp] theorem marks_rename (acts : List (Deed ν)) :
    marks (acts.map (Deed.rename (EventReport.other : ν → EventReport ν ρ ε))) = [] := by
  rw [marks, List.flatMap_map, List.flatMap_eq_nil_iff]
  intro d _
  cases d <;> rfl

end Marks

namespace Phase

/-- How a phase ends. -/
def outcome (p : Phase ν ε α) : Outcome α ε := outcomeOf p.run.ending

/-- The phase with a report of its beginning, and other words for its own reports. -/
def watched (stage : Stage) (p : Phase ν ε α) : Phase (EventReport ν ρ ε) ε α :=
  ExceptT.mk ⟨.note (.begun stage) :: p.run.acts.map (Deed.rename .other), p.run.ending⟩

/-- The phase without its marks. -/
def plain (p : Phase (EventReport ν ρ ε) ε α) : Phase ν ε α :=
  ExceptT.mk ⟨p.run.acts.filterMap Deed.plain?, p.run.ending⟩

/-- A phase that is watched is the same but for its marks. -/
@[simp] theorem plain_watched (stage : Stage) (p : Phase ν ε α) :
    (p.watched stage : Phase (EventReport ν ρ ε) ε α).plain = p := by
  have acts : (p.run.acts.map (Deed.rename .other)).filterMap
      (Deed.plain? : Deed (EventReport ν ρ ε) → _) = p.run.acts := by
    simp [List.filterMap_map]
  apply ExceptT.ext
  show (⟨_, _⟩ : Script _ _) = p.run
  rw [watched, ExceptT.run_mk, List.filterMap_cons_none rfl, acts]

@[simp] theorem outcome_watched (stage : Stage) (p : Phase ν ε α) :
    (p.watched stage : Phase (EventReport ν ρ ε) ε α).outcome = p.outcome := rfl

@[simp] theorem marks_watched (stage : Stage) (p : Phase ν ε α) :
    marks (p.watched stage : Phase (EventReport ν ρ ε) ε α).run.acts = [.inl stage] := by
  rw [watched, ExceptT.run_mk, marks_cons, marks_rename, List.append_nil]
  rfl

/-- Two phases, one after the other: the later one begins if the first one succeeds. -/
theorem run_bind (p : Phase ν ε α) (f : α → Phase ν ε β) :
    (p >>= f).run = match p.run.ending with
      | .ok (.ok a) => ⟨p.run.acts ++ (f a).run.acts, (f a).run.ending⟩
      | .ok (.error error) => ⟨p.run.acts, .ok (.error error)⟩
      | .error panic => ⟨p.run.acts, .error panic⟩ := by
  rcases p with ⟨acts, panic | (error | a)⟩
  · rfl
  · show (⟨acts ++ [], _⟩ : Script _ _) = _
    rw [List.append_nil]
    rfl
  · rfl

/-- A phase without a value does the same if it is given none. -/
theorem bind_unit (p : Phase ν ε Unit) (value : Unit) : (p >>= fun _ => pure value) = p := by
  apply ExceptT.ext
  rw [run_bind]
  rcases p with ⟨acts, panic | (error | ⟨⟩)⟩
  · rfl
  · rfl
  · show (⟨acts ++ [], _⟩ : Script _ _) = _
    rw [List.append_nil]
    rfl

/-- A phase with another value does the same. -/
theorem run_map (f : α → β) (p : Phase ν ε α) :
    (f <$> p).run = ⟨p.run.acts, p.run.ending.map (Except.map f)⟩ := by
  rcases p with ⟨acts, panic | (error | a)⟩
  · rfl
  · show (⟨acts ++ [], _⟩ : Script _ _) = _
    rw [List.append_nil]
    rfl
  · show (⟨acts ++ [], _⟩ : Script _ _) = _
    rw [List.append_nil]
    rfl

/-- What comes after a phase leaves marks if that succeeds. -/
theorem marks_bind (p : Phase (EventReport ν ρ ε) ε α) (f : α → Phase (EventReport ν ρ ε) ε β) :
    marks (p >>= f).run.acts = marks p.run.acts ++ match p.outcome with
      | .ok a => marks (f a).run.acts
      | .error _ => [] := by
  rw [run_bind, outcome]
  rcases p.run.ending with panic | (error | a)
  · exact (List.append_nil _).symm
  · exact (List.append_nil _).symm
  · exact marks_append _ _

/-- Three phases in a row, with the value of the one in the middle. -/
def chain (before : Phase ν ε Unit) (main : Phase ν ε α) (after : Phase ν ε Unit) :
    Phase ν ε α := do
  before
  let value ← main
  after
  pure value

end Phase

/-- The phases that begin: the first ones up to the first that does not succeed. -/
def course (before : Outcome Unit ε) (main : Outcome ρ ε) : List Stage :=
  match before, main with
  | .error _, _ => [.before]
  | .ok (), .error _ => [.before, .main]
  | .ok (), .ok _ => [.before, .main, .after]

/-- The phases that begin are the first ones of these three. -/
theorem course_initial (before : Outcome Unit ε) (main : Outcome ρ ε) :
    course before main <+: [.before, .main, .after] := by
  rcases before with _ | ⟨⟩
  · exact ⟨[.main, .after], rfl⟩
  rcases main with _ | _
  · exact ⟨[.after], rfl⟩
  · exact List.prefix_rfl

theorem course_ne_nil (before : Outcome Unit ε) (main : Outcome ρ ε) : course before main ≠ [] := by
  rcases before with _ | ⟨⟩ <;> rcases main with _ | _ <;> simp [course]

/-- How three phases in a row end: as the first that does not succeed, else with the value of the
one in the middle. -/
def verdict (before : Outcome Unit ε) (main : Outcome ρ ε) (after : Outcome Unit ε) : Outcome ρ ε :=
  match before, main, after with
  | .error error, _, _ => .error error
  | .ok (), .error error, _ => .error error
  | .ok (), .ok _, .error error => .error error
  | .ok (), .ok value, .ok () => .ok value

/-- A verdict has a value if all phases succeed and the one in the middle has it. -/
theorem verdict_eq_ok {before after : Outcome Unit ε} {main : Outcome ρ ε} {value : ρ} :
    verdict before main after = .ok value ↔
      before = .ok () ∧ main = .ok value ∧ after = .ok () := by
  rcases before with _ | ⟨⟩ <;> rcases main with _ | _ <;> rcases after with _ | ⟨⟩ <;>
    simp [verdict]

namespace Phase

/-- Another value of the phase in the middle is another value of the whole. -/
theorem chain_map (f : α → β) (before : Phase ν ε Unit) (main : Phase ν ε α)
    (after : Phase ν ε Unit) : chain before (f <$> main) after = f <$> chain before main after := by
  apply ExceptT.ext
  rw [run_map]
  simp only [chain, run_bind, run_map]
  rcases before.run.ending with _ | (_ | ⟨⟩) <;> rcases main.run.ending with _ | (_ | _) <;>
    rcases after.run.ending with _ | (_ | ⟨⟩) <;> rfl

/-- Three phases in a row end as the first that does not succeed. -/
theorem outcome_chain (before : Phase ν ε Unit) (main : Phase ν ε α) (after : Phase ν ε Unit) :
    (chain before main after).outcome = verdict before.outcome main.outcome after.outcome := by
  rcases before with ⟨acts, panic | (error | ⟨⟩)⟩
  · rfl
  · rfl
  rcases main with ⟨acts', panic | (error | value)⟩
  · rfl
  · rfl
  rcases after with ⟨acts', panic | (error | ⟨⟩)⟩ <;> rfl

/-- The marks of three phases in a row are those that begin. -/
theorem marks_chain (before : Phase ν ε Unit) (main : Phase ν ε α) (after : Phase ν ε Unit) :
    marks (chain (before.watched .before) (main.watched .main)
      (after.watched .after) : Phase (EventReport ν ρ ε) ε α).run.acts =
        (course before.outcome main.outcome).map .inl := by
  simp only [chain, marks_bind, marks_watched, outcome_watched]
  rcases before.outcome with _ | ⟨⟩
  · rfl
  rcases main.outcome with _ | value
  · rfl
  rcases after.outcome with _ | ⟨⟩ <;> rfl

end Phase

/-- A callback that reports the call and its outcome before it does anything else, which it does as
if the event were not watched. -/
def Callback.watched {σ τ : Type} (name : σ → String) (plain : σ → τ) (respond : Callback ν τ ρ ε) :
    Callback (EventReport ν ρ ε) σ ρ ε :=
  fun event outcome => do
    .act (.note (.called (name event) outcome))
    (respond (plain event) outcome).mapActs (Deed.rename .other)

theorem Callback.marks_watched {σ τ : Type} (name : σ → String) (plain : σ → τ)
    (respond : Callback ν τ ρ ε) (event : σ) (outcome : Outcome ρ ε) :
    marks (respond.watched name plain event outcome).acts = [.inr (name event, outcome)] := by
  have hacts : (respond.watched name plain event outcome).acts =
      .note (.called (name event) outcome) ::
        (respond (plain event) outcome).acts.map (Deed.rename .other) := rfl
  rw [hacts, marks_cons, marks_rename]
  rfl

/-- The marks of a job are those of an event with this name and these outcomes of its phases: while
it runs, the phases that begin and then the call, and the call alone if it is abandoned. -/
structure Job.Marked (job : Job (EventReport ν ρ ε)) (name : String) (before : Outcome Unit ε)
    (main : Outcome ρ ε) (after : Outcome Unit ε) : Prop where
  body : job.run.acts.flatMap (Act.picks Deed.mark?) =
    (course before main).map .inl ++ [.inr (name, verdict before main after)]
  abandonment : marks job.abandon.acts = [.inr (name, .error .dropped)]
  unanswered : ∀ act ∈ job.run.acts, act.answers = []
  told : verdict before main after ≠ .error .dropped

/-- The job of an event that a handler runs through its phases is marked by it. -/
theorem marked_requestJob {σ τ : Type} {handler : Handler (EventReport ν ρ ε) σ ρ ε}
    {name : σ → String} {plain : σ → τ} (respond : Callback ν τ ρ ε) {event : σ}
    {before after : Phase ν ε Unit} {main : Phase ν ε ρ} (hc : handler.copy event = .ok event)
    (hh : handler.handle event = (Phase.chain (before.watched .before) (main.watched .main)
      (after.watched .after)).run.lift) :
    (requestJob handler event (some (respond.watched name plain))).Marked (name event)
      before.outcome main.outcome after.outcome := by
  have hacts := acts_run_of_copy (some (respond.watched name plain)) hc
    (handler.relapse?_none event)
  have houtcome : handler.outcome event =
      verdict before.outcome main.outcome after.outcome := by
    rw [Handler.outcome, hh]
    exact Phase.outcome_chain _ _ _
  rw [hh, Script.lift, Script.mapActs, ← List.map_append, houtcome] at hacts
  constructor
  case body =>
    rw [hacts, flatMap_picks_map, List.flatMap_append]
    exact congrArg₂ _ (Phase.marks_chain before main after)
      (respond.marks_watched name plain event _)
  case abandonment => exact respond.marks_watched name plain event _
  case unanswered =>
    intro act hact
    rw [hacts] at hact
    obtain ⟨d, -, rfl⟩ := List.mem_map.1 hact
    rfl
  case told => exact houtcome ▸ Handler.outcome_ne_dropped

namespace Event

/-- The event with its phases watched. -/
def watched (e : Event ν ε) : Event (EventReport ν Unit ε) ε where
  name := e.name
  before := e.before.watched .before
  action := e.action.watched .main
  after := e.after.watched .after

/-- The event without its marks. -/
def plain (e : Event (EventReport ν Unit ε) ε) : Event ν ε where
  name := e.name
  before := e.before.plain
  action := e.action.plain
  after := e.after.plain

/-- The callback is called with the event itself. -/
@[simp] theorem plain_watched (e : Event ν ε) : e.watched.plain = e := by
  simp [plain, watched]

/-- The phases of an event in a row. -/
theorem phases_eq (e : Event ν ε) : e.phases = .chain e.before e.action e.after := by
  simp only [phases, Phase.chain, Phase.bind_unit]

end Event

namespace ResultEvent

/-- The event with its phases watched. -/
def watched (e : ResultEvent ν ρ ε) : ResultEvent (EventReport ν ρ ε) ρ ε where
  name := e.name
  before := e.before.watched .before
  handle := e.handle.watched .main
  after := e.after.watched .after

/-- The event without its marks. -/
def plain (e : ResultEvent (EventReport ν ρ ε) ρ ε) : ResultEvent ν ρ ε where
  name := e.name
  before := e.before.plain
  handle := e.handle.plain
  after := e.after.plain

/-- The callback is called with the event itself. -/
@[simp] theorem plain_watched (e : ResultEvent ν ρ ε) : e.watched.plain = e := by
  simp [plain, watched]

/-- An event that does the same and has no result. -/
def erase (e : ResultEvent ν ρ ε) : Event ν ε where
  name := e.name
  before := e.before
  action := (fun _ => ()) <$> e.handle
  after := e.after

/-- It goes through the same phases. -/
theorem phases_erase (e : ResultEvent ν ρ ε) : e.erase.phases = (fun _ => ()) <$> e.phases := by
  rw [Event.phases_eq]
  exact Phase.chain_map _ e.before e.handle e.after

end ResultEvent

/-- The job of an event is marked by its phases. -/
theorem marked_eventJob (describe : ε → Shape) (respond : Callback ν (Event ν ε) Unit ε)
    (e : Event ν ε) : (eventJob describe (respond.watched Event.name Event.plain) e.watched).Marked
      e.name e.before.outcome e.action.outcome e.after.outcome := by
  apply marked_requestJob respond rfl
  show e.watched.phases.run.lift = _
  rw [Event.phases_eq]
  rfl

/-- So is that of an event with a result. -/
theorem marked_resultEventJob (describe : ε → Shape)
    (respond : Callback ν (ResultEvent ν ρ ε) ρ ε) (e : ResultEvent ν ρ ε) :
    (resultEventJob describe (respond.watched ResultEvent.name ResultEvent.plain)
      e.watched).Marked e.name e.before.outcome e.handle.outcome e.after.outcome :=
  marked_requestJob respond rfl rfl

section Agreement

/-- The outcome of code with another value. -/
theorem outcomeOf_map (f : α → β) (ending : Except Panic (Except ε α)) :
    (outcomeOf (ending.map (Except.map f)) : Outcome β ε) = (outcomeOf ending).map f := by
  rcases ending with _ | (_ | _) <;> rfl

/-- What begins does not depend on a value. -/
theorem course_map (f : α → β) (before : Outcome Unit ε) (main : Outcome α ε) :
    course before (main.map f) = course before main := by
  rcases before with _ | ⟨⟩ <;> rcases main with _ | _ <;> rfl

/-- Another value is another value of the verdict. -/
theorem verdict_map (f : α → β) (before : Outcome Unit ε) (main : Outcome α ε)
    (after : Outcome Unit ε) :
    verdict before (main.map f) after = (verdict before main after).map f := by
  rcases before with _ | ⟨⟩ <;> rcases main with _ | _ <;> rcases after with _ | ⟨⟩ <;> rfl

namespace ResultEvent

/-- A manager of events with results agrees with one of events that have none, up to the value: if
its callback ignores that then the jobs are the same, and in any case the same phases begin, with
the same verdict but for its value. -/
structure Agrees (e : ResultEvent ν ρ ε) : Prop where
  job : ∀ (describe : ε → Shape) (respond : Callback ν (Event ν ε) Unit ε),
    eventJob describe respond e.erase = resultEventJob describe
      (fun event outcome => respond event.erase (outcome.map fun _ => ())) e
  phases : course e.erase.before.outcome e.erase.action.outcome =
    course e.before.outcome e.handle.outcome
  verdict : verdict e.erase.before.outcome e.erase.action.outcome e.erase.after.outcome =
    (WorkerPool.verdict e.before.outcome e.handle.outcome e.after.outcome).map fun _ => ()

theorem agrees (e : ResultEvent ν ρ ε) : e.Agrees := by
  have action : e.erase.action.outcome = e.handle.outcome.map fun _ => () := by
    rw [erase, Phase.outcome, Phase.run_map, outcomeOf_map, Phase.outcome]
  constructor
  case job =>
    intro describe respond
    have run : e.erase.phases.run =
        ⟨e.phases.run.acts, e.phases.run.ending.map (Except.map fun _ => ())⟩ := by
      rw [phases_erase, Phase.run_map]
    have body : e.erase.phases.run.lift.caught >>= (fun ending =>
        (respond e.erase (outcomeOf ending)).lift) = e.phases.run.lift.caught >>= (fun ending =>
          (respond e.erase ((outcomeOf ending).map fun _ => ())).lift) := by
      rw [run]
      show (⟨_ ++ (respond e.erase (outcomeOf (Except.map _ _))).lift.acts,
        (respond e.erase (outcomeOf (Except.map _ _))).lift.ending⟩ : Script _ _) = _
      rw [outcomeOf_map]
      rfl
    exact congrArg (Job.mk · _) body
  case phases =>
    rw [action]
    exact course_map _ _ _
  case verdict =>
    rw [action]
    exact verdict_map _ _ _ _

end ResultEvent

end Agreement

namespace World

variable {settings : Settings} {hook : Option Hook}

section Deserted

variable {ν : Type} {w : World ν} {e : EpochId} {k : Nat}

/-- If the hook never panics, all tasks of an epoch are over only after it was closed. -/
theorem Evolved.closed_of_deserted (h : Evolved settings hook w) (calm : Calm hook)
    (ha : w.AcceptedBy e k) (hd : w.deserted e = true) : (w.epoch e).closed = true := by
  have pos : 0 < w.settings.minWorkers := by
    rw [h.same.1]
    exact h.valid.minWorkers_pos
  obtain ⟨t, state, ht⟩ := h.manned.exists_permanent (h.lt_of_acceptedBy ha) pos
  have gone := isOver_of_deserted hd ht rfl
  have stays := h.staffed calm t e 0 state ht
  cases state with
  | gone crashed => exact stays
  | _ => cases gone

/-- No epoch is drained while no thread is inside of a stop. -/
theorem not_draining_of_idle (h : ∀ task ∈ w.tasks.toList, ∀ th ∈ task.thread?, th.layers = []) :
    ¬ w.Draining e := by
  rintro ⟨t, task, th, n, ht, hth, hn⟩
  rw [h task (Array.mem_toList_iff.2 (Array.mem_of_getElem? ht)) th hth] at hn
  cases hn

end Deserted

variable {w : World (EventReport ν ρ ε)} {e : EpochId} {k : Nat}
  {job : Job (EventReport ν ρ ε)} {name : String} {before after : Outcome Unit ε}
  {main : Outcome ρ ε}

section Marks

variable (w k)

/-- The marks of job `k`, in order. -/
def marks : List (Mark ρ ε) := (w.said k).filterMap Deed.mark?

/-- The phases of event `k` that have begun, in order. -/
def phases : List Stage := (w.marks k).filterMap Sum.getLeft?

/-- What the callback was called with for event `k`, in order. -/
def verdicts : List (String × Outcome ρ ε) := (w.marks k).filterMap Sum.getRight?

end Marks

/-- What has become of event `k` so far: nothing, some of its phases, all that begin and the call of
the callback, or that it was dropped. -/
inductive Stages (w : World (EventReport ν ρ ε)) (k : Nat) (name : String)
    (before : Outcome Unit ε) (main : Outcome ρ ε) (after : Outcome Unit ε) : Prop
  | quiet (hp : w.phases k <+: course before main) (hn : ¬ w.Called k → w.phases k = [])
      (hv : w.verdicts k = []) (hs : w.Called k ∨ w.Dropped k → w.Speaks k)
  | told (hc : w.Called k) (hp : w.phases k = course before main)
      (hv : w.verdicts k = [(name, verdict before main after)])
  | dropped (hd : w.Dropped k) (hp : w.phases k = [])
    (hv : w.verdicts k = [(name, .error .dropped)])

/-- The marks tell which phases have begun and what the callback was called with after that. -/
theorem phases_verdicts_of_marks (begun : List Stage) (calls : List (String × Outcome ρ ε))
    (h : w.marks k = begun.map .inl ++ calls.map .inr) :
    w.phases k = begun ∧ w.verdicts k = calls := by
  simp [phases, verdicts, h, List.filterMap_map, Function.comp_def]

/-- An event without marks is quiet. -/
theorem Stages.of_nothing (h : w.marks k = []) (hs : w.Called k ∨ w.Dropped k → w.Speaks k) :
    w.Stages k name before main after := by
  obtain ⟨hp, hv⟩ := phases_verdicts_of_marks [] [] h
  exact .quiet (hp ▸ List.nil_prefix) (fun _ => hp) hv hs

/-- An event that has begun goes through the phases that its job is marked with. -/
theorem stages_of_called (h : Evolved settings hook w) (hs : .submitted k job ∈ w.occurrences)
    (hm : job.Marked name before main after) (hc : w.Called k) :
    w.Stages k name before main after := by
  obtain ⟨begins, all⟩ := h.picked_of_called Deed.mark? hs
    (fun act hact n hn => by rw [hm.unanswered act hact] at hn; cases hn) hc
  rw [hm.body, ← marks] at begins all
  obtain heq | hlt := List.prefix_concat_iff.1 begins
  · obtain ⟨hp, hv⟩ := phases_verdicts_of_marks _ [_] heq
    exact .told hc hp hv
  · obtain ⟨begun, hbegun, heq⟩ := List.prefix_map_iff.1 hlt
    obtain ⟨hp, hv⟩ := phases_verdicts_of_marks _ [] (by simpa using heq)
    apply Stages.quiet (hp ▸ hbegun) (fun hnc => absurd hc hnc) hv
    intro _
    by_contra silent
    rw [all silent] at hlt
    simpa using hlt.length_le

/-- An event that is abandoned has no other mark than the call. -/
theorem stages_of_dropped (h : Evolved settings hook w) (hs : .submitted k job ∈ w.occurrences)
    (hm : job.Marked name before main after) (hd : w.Dropped k) :
    w.Stages k name before main after := by
  obtain ⟨begins, all⟩ := h.picked_of_dropped Deed.mark? hs hd
  rw [← WorkerPool.marks, hm.abandonment, ← marks] at begins all
  rw [← List.nil_append [_], List.prefix_concat_iff] at begins
  obtain heq | hlt := begins
  · obtain ⟨hp, hv⟩ := phases_verdicts_of_marks [] [_] heq
    exact .dropped hd hp hv
  · have nothing : w.marks k = [] := List.prefix_nil.1 hlt
    apply Stages.of_nothing nothing
    intro _
    by_contra silent
    rw [all silent] at nothing
    cases nothing

/-- An event of a job with these marks goes through its stages. -/
theorem stages_of_marked (h : Evolved settings hook w) (hs : .submitted k job ∈ w.occurrences)
    (hm : job.Marked name before main after) : w.Stages k name before main after := by
  by_cases hc : w.Called k
  · exact stages_of_called h hs hm hc
  by_cases hd : w.Dropped k
  · exact stages_of_dropped h hs hm hd
  have nothing : w.marks k = [] := by
    rw [marks, h.said_of_untouched hs hc hd, List.filterMap_nil]
  exact .of_nothing nothing fun touched => absurd touched (by simp [hc, hd])

/-- What has become of event `k` with this name, of which the phases end so. -/
structure Phased (w : World (EventReport ν ρ ε)) (k : Nat) (name : String)
    (before : Outcome Unit ε) (main : Outcome ρ ε) (after : Outcome Unit ε) : Prop where
  /-- The phases that have begun are the first ones of these three, in order. -/
  order : w.phases k <+: [.before, .main, .after]
  /-- None begins after one that did not succeed. -/
  course : w.phases k <+: course before main
  /-- The callback is called at most once. -/
  once : (w.verdicts k).length ≤ 1
  /-- It is told which event this is. -/
  own : ∀ v ∈ w.verdicts k, v.1 = name
  /-- It is told that the event was dropped if no phase has begun. -/
  dropped : ∀ v ∈ w.verdicts k, v.2 = .error .dropped ↔ w.phases k = []
  /-- Else it is told of the first phase that did not succeed, and after that. -/
  told : ∀ v ∈ w.verdicts k, w.phases k ≠ [] →
    w.phases k = WorkerPool.course before main ∧ v.2 = verdict before main after
  /-- It is told of success if all phases succeeded, with the value of the one in the middle. -/
  ok : ∀ v ∈ w.verdicts k, ∀ value, v.2 = .ok value ↔
    w.phases k ≠ [] ∧ before = .ok () ∧ main = .ok value ∧ after = .ok ()
  /-- Once all tasks of the epoch that accepted the event are over it has been called, unless the
  stop that closed the epoch is still at it and has not come to this event. -/
  answered : ∀ e, w.AcceptedBy e k → w.deserted e = true →
    (∃ outcome, w.verdicts k = [(name, outcome)]) ∨
      w.Draining e ∧ w.phases k = [] ∧ w.verdicts k = []
  /-- So it has been called for sure once no thread is inside of a stop either. -/
  idle : ∀ e, w.AcceptedBy e k → w.deserted e = true →
    (∀ task ∈ w.tasks.toList, ∀ th ∈ task.thread?, th.layers = []) →
      ∃ outcome, w.verdicts k = [(name, outcome)]

/-- An event whose call is not made although all tasks of its epoch are over has not begun, and a
stop is draining the epoch. -/
theorem draining_of_quiet (h : Evolved settings hook w) (calm : Calm hook) (ha : w.AcceptedBy e k)
    (hd : w.deserted e = true) (hn : ¬ w.Called k → w.phases k = [])
    (hs : w.Called k ∨ w.Dropped k → w.Speaks k) : w.Draining e ∧ w.phases k = [] := by
  have uncalled : ¬ w.Called k := by
    intro hc
    obtain ⟨ending, hf⟩ := h.ledger.finished_of_deserted ha hd hc
    exact (h.not_speaks_of_finished hf).2 (hs (.inl hc))
  refine ⟨?_, hn uncalled⟩
  by_contra hdrained
  have spent : w.Spent e := ⟨h.closed_of_deserted calm ha hd, hd, hdrained⟩
  have once := spent.started_add_abandoned h calm ha
  have touched : w.Called k ∨ w.Dropped k := by
    obtain hpos | hpos : 0 < w.books.count (.started e k) ∨ 0 < w.books.count (.abandoned e k) := by
      omega
    · exact .inl (called_of_mem_books (List.count_pos_iff.1 hpos))
    · exact .inr (dropped_of_mem_books (List.count_pos_iff.1 hpos))
  exact spent.not_speaks h ha (hs touched)

/-- The phases and the call of an event are right. -/
theorem phased_of_marked (h : Evolved settings hook w) (calm : Calm hook)
    (hs : .submitted k job ∈ w.occurrences) (hm : job.Marked name before main after) :
    w.Phased k name before main after := by
  obtain ⟨hp, hn, hv, hspeaks⟩ | ⟨hc, hp, hv⟩ | ⟨hd, hp, hv⟩ := stages_of_marked h hs hm
  case quiet =>
    constructor
    case answered =>
      intro e ha hd
      obtain ⟨hdrain, hnone⟩ := draining_of_quiet h calm ha hd hn hspeaks
      exact .inr ⟨hdrain, hnone, hv⟩
    case idle =>
      intro e ha hd hidle
      exact absurd (draining_of_quiet h calm ha hd hn hspeaks).1 (not_draining_of_idle hidle)
    case course => exact hp
    case order => exact hp.trans (course_initial before main)
    all_goals simp [hv]
  case told =>
    constructor
    case answered => exact fun e ha hd => .inl ⟨_, hv⟩
    case idle => exact fun e ha hd hidle => ⟨_, hv⟩
    case course => exact hp ▸ List.prefix_rfl
    case order => exact hp ▸ course_initial before main
    case dropped => simp [hp, hv, course_ne_nil, hm.told]
    case ok => simp [hp, hv, course_ne_nil, verdict_eq_ok]
    all_goals simp [hp, hv]
  case dropped =>
    constructor
    case answered => exact fun e ha hd => .inl ⟨_, hv⟩
    case idle => exact fun e ha hd hidle => ⟨_, hv⟩
    all_goals simp [hp, hv]

/-- **The phases of events.** In every reachable world of a pool of events and of one of events with
results, under hooks that never panic: the phases of an event that have begun are the first ones up
to the first that did not succeed, and the shared callback is told, at most once and for this event,
how they ended, or that it was dropped if none has begun. Once the tasks of its epoch are over the
callback has been called, but for an event in the hands of a stop that has not returned, and without
exception if no thread is inside of a stop. Events may start and stop the pool, and so may the
callback, which may also panic. An event with a result has the phases and, but for the value, the
verdict of one without. -/
theorem phased_of_reachable {settings₁ settings₂ : Settings} {hook₁ hook₂ : Option Hook}
    {w₁ : World (EventReport ν Unit ε)} {w₂ : World (EventReport ν ρ ε)}
    (h₁ : Reachable settings₁ hook₁ w₁) (calm₁ : Calm hook₁)
    (h₂ : Reachable settings₂ hook₂ w₂) (calm₂ : Calm hook₂) (describe : ε → Shape) :
    (∀ (respond : Callback ν (Event ν ε) Unit ε) (event : Event ν ε) (k : Nat),
      .submitted k (eventJob describe (respond.watched Event.name Event.plain) event.watched) ∈
        w₁.occurrences →
      w₁.Phased k event.name event.before.outcome event.action.outcome event.after.outcome) ∧
    (∀ (respond : Callback ν (ResultEvent ν ρ ε) ρ ε) (event : ResultEvent ν ρ ε) (k : Nat),
      .submitted k (resultEventJob describe
        (respond.watched ResultEvent.name ResultEvent.plain) event.watched) ∈ w₂.occurrences →
      w₂.Phased k event.name event.before.outcome event.handle.outcome event.after.outcome) ∧
    ∀ event : ResultEvent ν ρ ε, event.Agrees := by
  refine ⟨?_, ?_, ResultEvent.agrees⟩
  · intro respond event k hs
    exact phased_of_marked h₁.evolved calm₁ hs (marked_eventJob describe respond event)
  · intro respond event k hs
    exact phased_of_marked h₂.evolved calm₂ hs (marked_resultEventJob describe respond event)

section Halted

/-- A callback that panics over every event. -/
def aghast {τ : Type} : Callback Unit τ ρ ε := fun _ _ => .panic (.text "slam")

/-- An event that stops the pool before its action, which then panics. -/
def halting : Event Unit Nat where
  name := "halting"
  before := ExceptT.lift (.act .stop)
  action := ExceptT.lift (.panic (.text "boom"))

/-- An event that does nothing. -/
def idling : Event Unit Nat where
  name := "idling"
  action := .skip

/-- An event that stops the pool, has a value, and fails after that. -/
def discarding : ResultEvent Unit Nat Nat where
  name := "discarding"
  before := ExceptT.lift (.act .stop)
  handle := pure 42
  after := throw 7

/-- The job of an event in a pool whose callback panics over every event. -/
def haltingJob (event : Event Unit Nat) : Job (EventReport Unit Unit Nat) :=
  eventJob (fun _ => .word "e") (aghast.watched Event.name Event.plain) event.watched

/-- The job of an event with a result in such a pool. -/
def discardingJob (event : ResultEvent Unit Nat Nat) : Job (EventReport Unit Nat Nat) :=
  resultEventJob (fun _ => .word "e") (aghast.watched ResultEvent.name ResultEvent.plain)
    event.watched

/-- A narrow pool to which a client submitted two events. The first one stopped it, panicked, and
was told so. -/
def halted : World (EventReport Unit Unit Nat) :=
  [1, 1, 0, 0, 0, 0, 0, 0, 0, 0, 0, 0, 0, 0, 0].foldl step
    (({ settings := narrow : World (EventReport Unit Unit Nat) }.launch).spawn (.client { body :=
      ⟨[.ofJob (haltingJob halting) (.other ()) (.other ()) (.other ()),
        .ofJob (haltingJob idling) (.other ()) (.other ()) (.other ())], .ok ()⟩ }))

/-- A narrow pool to which a client submitted an event with a result that stopped it and failed. -/
def discarded : World (EventReport Unit Nat Nat) :=
  [1, 0, 0, 0, 0, 0, 0, 0, 0, 0, 0, 0].foldl step
    (({ settings := narrow : World (EventReport Unit Nat Nat) }.launch).spawn (.client { body :=
      ⟨[.ofJob (discardingJob discarding) (.other ()) (.other ()) (.other ())], .ok ()⟩ }))

set_option maxRecDepth 1000 in
/-- The first event was told of its panic and the second one that it was dropped; the value of the
event with a result was discarded. -/
theorem phased_of_reachable_halted :
    Reachable narrow none halted ∧ Reachable narrow none discarded ∧
    halted.phases 0 = [.before, .main] ∧
    halted.verdicts 0 = [("halting", .error (.panicked "boom"))] ∧
    halted.verdicts 1 = [("idling", .error .dropped)] ∧
    discarded.phases 0 = [.before, .main, .after] ∧
    discarded.verdicts 0 = [("discarding", .error (.failed 7))] := by
  have reachable : Reachable narrow none halted :=
    (Reachable.launch none narrow_valid).call _ _
  have reachable' : Reachable narrow none discarded :=
    (Reachable.launch none narrow_valid).call _ _
  have first : .submitted 0 (haltingJob halting) ∈ halted.occurrences :=
    List.mem_of_getElem? (i := 2) rfl
  have second : .submitted 1 (haltingJob idling) ∈ halted.occurrences :=
    List.mem_of_getElem? (i := 5) rfl
  have only : .submitted 0 (discardingJob discarding) ∈ discarded.occurrences :=
    List.mem_of_getElem? (i := 2) rfl
  have calm : Calm none := by simp [Calm]
  obtain ⟨events, results, -⟩ :=
    phased_of_reachable reachable calm reachable' calm fun _ => .word "e"
  have panicked := events _ _ 0 first
  have dropped := events _ _ 1 second
  have failed := results _ _ 0 only
  have begun : halted.phases 0 = [.before, .main] := by rfl
  have nothing : halted.phases 1 = [] := by rfl
  have all : discarded.phases 0 = [.before, .main, .after] := by rfl
  have deserted : halted.deserted 0 = true := by
    rw [World.deserted, ← Array.all_toList]
    decide
  have deserted' : discarded.deserted 0 = true := by
    rw [World.deserted, ← Array.all_toList]
    decide
  obtain ⟨outcome, hv⟩ := panicked.idle 0 (by decide) deserted (by decide)
  obtain ⟨outcome', hv'⟩ := dropped.idle 0 (by decide) deserted (by decide)
  obtain ⟨outcome'', hv''⟩ := failed.idle 0 (by decide) deserted' (by decide)
  have message : outcome = .error (.panicked "boom") :=
    (panicked.told _ (hv ▸ List.mem_singleton_self _) (by simp [begun])).2
  have unheard : outcome' = .error .dropped :=
    (dropped.dropped _ (hv' ▸ List.mem_singleton_self _)).2 nothing
  have error : outcome'' = .error (.failed 7) :=
    (failed.told _ (hv'' ▸ List.mem_singleton_self _) (by simp [all])).2
  subst message unheard error
  exact ⟨reachable, reachable', begun, hv, hv', all, hv''⟩

end Halted

end World

end WorkerPool
