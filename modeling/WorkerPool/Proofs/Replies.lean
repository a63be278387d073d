import WorkerPool.Proofs.Outcomes
import WorkerPool.Proofs.Panics
import WorkerPool.Proofs.Speech
import WorkerPool.Proofs.Submissions

/-!
# What is said of a request

The one reply to a request is the right one. A request that a worker has begun is answered as its
handler ended, whether that took one step or many, and one that was abandoned with the news that it
was dropped; what the callback does, and whether it panics, changes nothing about that. A request
without a callback is answered by a record in the log, unless it has a result. A request that was
lost with the worker hired for it is not answered, nor one whose handler was left for good because
disposing of its panic panicked.
-/

namespace WorkerPool

variable {ν τ ρ ε : Type}

/-- The call of a callback that a deed reports. -/
def Deed.call? : Deed (Report ν τ ρ ε) → Option (τ × Outcome ρ ε)
  | note n => n.call?
  | _ => none

section Picks

variable {α : Type} (f : Deed ν → Option α)

/-- What is picked from what a deed leaves in the journal. -/
def Deed.picks (d : Deed ν) : List α := d.sayings.filterMap f

/-- What is picked from what an act leaves in the journal, its answers aside. -/
def Act.picks : Act ν → List α
  | deed d => d.picks f
  | _ => []

@[simp] theorem flatMap_picks_map (ds : List (Deed ν)) :
    (ds.map Act.deed).flatMap (Act.picks f) = ds.flatMap (Deed.picks f) := by
  rw [List.flatMap_map]
  rfl

/-- What is picked from what acts have said is what is picked from the acts, if no answer is. -/
theorem Act.SayAll.filterMap {acts : List (Act ν)} {said : List (Deed ν)} (h : SayAll acts said)
    (hf : ∀ act ∈ acts, ∀ n ∈ act.answers, f (.note n) = none) :
    said.filterMap f = acts.flatMap (Act.picks f) := by
  induction h with
  | nil => rfl
  | @concat acts act said new h hn ih =>
    have hlast : new.filterMap f = act.picks f := by
      cases hn with
      | deed d => rfl
      | pause hp => cases act <;> first | rfl | cases hp
      | answer hn =>
        rw [List.filterMap_cons, hf act (by simp) _ hn]
        cases act <;> first | rfl | cases hn
    rw [List.filterMap_append, ih fun a ha => hf a (List.mem_append_left _ ha), hlast]
    simp

end Picks

section Request

variable {handler : Handler ν τ ρ ε} {request input : τ}

/-- The body of a request that can be copied: the handler on the copy, then the answer. -/
theorem acts_run_of_copy (respond : Option (Callback ν τ ρ ε)) {disposal : Option Panic}
    (hc : handler.copy request = .ok input) (hd : handler.relapse? input disposal = none) :
    (requestJob handler request respond disposal).run.acts = (handler.handle input).acts ++
      (answer handler request respond (handler.outcome input)).acts.map .deed := by
  rw [run_requestJob, hc]
  simp only [hd]
  rfl

/-- It ends with the handler if that is left for good. -/
theorem acts_run_of_relapse (respond : Option (Callback ν τ ρ ε)) {disposal : Option Panic}
    {p : Panic} (hc : handler.copy request = .ok input)
    (hd : handler.relapse? input disposal = some p) :
    (requestJob handler request respond disposal).run.acts = (handler.handle input).acts := by
  rw [run_requestJob, hc]
  simp only [hd]

/-- What the answer to a detached request logs. -/
theorem picks_notice_answer (outcome : Outcome ρ ε) :
    (answer handler request none outcome).acts.flatMap (Deed.picks Deed.notice?) =
      (detachedNotice? handler.describe outcome).toList := by
  unfold answer
  cases detachedNotice? handler.describe outcome <;> rfl

/-- An outcome is logged unless it is a result: a panic as an error, a failure as a warning. -/
theorem level_detachedNotice? (describe : ε → Text.Shape) (outcome : Outcome ρ ε) :
    (detachedNotice? describe outcome).map (·.record.level) = match outcome with
      | .ok _ => none
      | .error (.panicked _) => some .error
      | .error _ => some .warn := by
  rcases outcome with (_ | _ | _) | _ <;> rfl

section Outcome

variable (handler input)

/-- The outcome of a handler that is done is its result, its error, or the message of its panic, and
never that it was dropped. -/
theorem Handler.outcome_cases :
    (∃ value, (handler.handle input).ending = .ok (.ok value) ∧
      handler.outcome input = .ok value) ∨
    (∃ error, (handler.handle input).ending = .ok (.error error) ∧
      handler.outcome input = .error (.failed error)) ∨
    ∃ p, (handler.handle input).ending = .error p ∧
      handler.outcome input = .error (.panicked p.message) := by
  unfold Handler.outcome
  rcases (handler.handle input).ending with p | (error | value)
  · exact .inr (.inr ⟨p, rfl, rfl⟩)
  · exact .inr (.inl ⟨error, rfl, rfl⟩)
  · exact .inl ⟨value, rfl, rfl⟩

variable {handler input}

theorem Handler.outcome_eq_ok {value : ρ} : handler.outcome input = .ok value ↔
    (handler.handle input).ending = .ok (.ok value) := by
  obtain ⟨_, h, ho⟩ | ⟨_, h, ho⟩ | ⟨_, h, ho⟩ := handler.outcome_cases input <;> simp [h, ho]

theorem Handler.outcome_eq_failed {error : ε} : handler.outcome input = .error (.failed error) ↔
    (handler.handle input).ending = .ok (.error error) := by
  obtain ⟨_, h, ho⟩ | ⟨_, h, ho⟩ | ⟨_, h, ho⟩ := handler.outcome_cases input <;> simp [h, ho]

/-- The message of a panic is its text, or a stand-in. -/
theorem Handler.outcome_eq_panicked {message : String} :
    handler.outcome input = .error (.panicked message) ↔
      (handler.handle input).ending = .error (.text message) ∨
        (handler.handle input).ending = .error .unprintable ∧
          message = "non-string panic payload" := by
  obtain ⟨_, h, ho⟩ | ⟨_, h, ho⟩ | ⟨p, h, ho⟩ := handler.outcome_cases input
  · simp [h, ho]
  · simp [h, ho]
  · cases p <;> simp [h, ho, Panic.message, eq_comm]

theorem Handler.outcome_ne_dropped : handler.outcome input ≠ .error .dropped := by
  obtain ⟨_, h, ho⟩ | ⟨_, h, ho⟩ | ⟨_, h, ho⟩ := handler.outcome_cases input <;> simp [ho]

end Outcome

end Request

section Announced

variable {handler : Handler (Report ν τ ρ ε) τ ρ ε}
  {respond : Callback (Report ν τ ρ ε) τ ρ ε} {request input : τ}

/-- A deed that reports no call is none. -/
theorem Deed.picks_call_eq_nil {d : Deed (Report ν τ ρ ε)} (h : d.reports Report.isCall = 0) :
    d.picks Deed.call? = [] := by
  cases d with
  | note n =>
    cases n with
    | called => simp [Deed.reports, Report.isCall] at h
    | other => rfl
  | _ => rfl

/-- A callback that announces itself makes one call, whatever it does then. -/
theorem picks_call_announced (hr : Callback.Discreet respond) (request : τ)
    (outcome : Outcome ρ ε) :
    (announced respond request outcome).acts.flatMap (Deed.picks Deed.call?) =
      [(request, outcome)] := by
  have hacts : (announced respond request outcome).acts =
      .note (.called request outcome) :: (respond request outcome).acts := rfl
  have hnil : (respond request outcome).acts.flatMap (Deed.picks Deed.call?) = [] :=
    List.flatMap_eq_nil_iff.2 fun d hd => Deed.picks_call_eq_nil (hr request outcome d hd)
  rw [hacts, List.flatMap_cons, hnil, List.append_nil]
  rfl

/-- A handler that is discreet makes no call, and is answered none. -/
theorem Handler.Discreet.picks_call (hh : handler.Discreet) (input : τ) :
    (handler.handle input).acts.flatMap (Act.picks Deed.call?) = [] := by
  refine List.flatMap_eq_nil_iff.2 fun act hact => ?_
  cases act with
  | deed d => exact Deed.picks_call_eq_nil (hh input _ hact).1
  | _ => rfl

end Announced

namespace World

variable {ν : Type} {w : World ν} {e : EpochId} {k : Nat} {settings : Settings}
  {hook : Option Hook} {job : Job ν}

/-- A worker has begun this job; if it is that of a request that can be copied, the handler was
called for it. -/
def Called (w : World ν) (k : Nat) : Prop := ∃ e t source, .started e k t source ∈ w.occurrences

/-- This job was abandoned. -/
def Dropped (w : World ν) (k : Nat) : Prop := ∃ e, .abandoned e k ∈ w.occurrences

section Picked

variable {α : Type} (f : Deed ν → Option α) (h : Evolved settings hook w)
  (hs : .submitted k job ∈ w.occurrences)

include h hs

/-- What is picked from what a job says while it runs is the beginning of what is picked from its
body, and all of that in the end. -/
theorem Evolved.picked_of_called (hf : ∀ act ∈ job.run.acts, ∀ n ∈ act.answers, f (.note n) = none)
    (hc : w.Called k) : (w.said k).filterMap f <+: job.run.acts.flatMap (Act.picks f) ∧
      (¬ w.Speaks k → (w.said k).filterMap f = job.run.acts.flatMap (Act.picks f)) := by
  obtain ⟨e, t, source, hb⟩ := hc
  obtain ⟨done, rest, hcode, hsaid, hrest⟩ := h.said_of_started hs hb
  have hpicked := hsaid.filterMap f fun act ha => hf act (by simp [hcode, ha])
  rw [hpicked, hcode, List.flatMap_append]
  exact ⟨List.prefix_append _ _, fun hsilent => by simp [hrest hsilent]⟩

/-- What is picked from what a job says as it is abandoned is the beginning of what is picked from
its abandonment, and all of that in the end. -/
theorem Evolved.picked_of_dropped (hd : w.Dropped k) :
    (w.said k).filterMap f <+: job.abandon.acts.flatMap (Deed.picks f) ∧
      (¬ w.Speaks k → (w.said k).filterMap f = job.abandon.acts.flatMap (Deed.picks f)) := by
  obtain ⟨e, hb⟩ := hd
  obtain ⟨done, rest, hcode, hsaid, hrest⟩ := h.said_of_abandoned hs hb
  have hpicked := hsaid.filterMap f fun act ha n hn => by
    have hm : act ∈ job.abandon.acts.map Act.deed := by simp [hcode, ha]
    obtain ⟨d, -, rfl⟩ := List.mem_map.1 hm
    cases hn
  rw [hpicked, ← flatMap_picks_map, hcode, List.flatMap_append]
  exact ⟨List.prefix_append _ _, fun hsilent => by simp [hrest hsilent]⟩

/-- A job that was neither begun nor abandoned has said nothing. -/
theorem Evolved.said_of_untouched (hc : ¬ w.Called k) (hd : ¬ w.Dropped k) : w.said k = [] := by
  refine h.said_eq_nil hs fun b hb => ?_
  obtain ⟨o, ho, hbook⟩ := mem_books_iff.1 hb
  cases o with
  | started i ticket t source =>
    obtain rfl := Option.some.inj hbook
    exact if_neg fun hk : ticket = k => hc ⟨i, t, source, hk ▸ ho⟩
  | abandoned i ticket =>
    obtain rfl := Option.some.inj hbook
    exact if_neg fun hk : ticket = k => hd ⟨i, hk ▸ ho⟩
  | _ => cases hbook <;> rfl

end Picked

/-- A job that is booked as begun was. -/
theorem called_of_mem_books (h : .started e k ∈ w.books) : w.Called k :=
  ⟨e, started_mem_books.1 h⟩

/-- A job that is booked as abandoned was. -/
theorem dropped_of_mem_books (h : .abandoned e k ∈ w.books) : w.Dropped k :=
  ⟨e, abandoned_mem_books.1 h⟩

/-- The code of a job that a worker has done has begun, and does nothing any more. -/
theorem Evolved.not_speaks_of_finished (h : Evolved settings hook w) {ending : Except Panic Unit}
    (hf : .finished e k ending ∈ w.occurrences) : w.Called k ∧ ¬ w.Speaks k := by
  have ledger := h.ledger
  have hfinished := List.count_pos_iff.2 (mem_books hf rfl)
  have hbegun := ledger.begun e k
  have hkept := ledger.kept e k
  have accepted : w.AcceptedBy e k := List.count_pos_iff.1 (by omega)
  have hone := ledger.count_accepted accepted e
  rw [if_pos rfl] at hone
  constructor
  · exact called_of_mem_books (e := e) (List.count_pos_iff.1 (by omega))
  · intro speaks
    obtain ⟨ht, hr⟩ | ⟨ht, hth, hm⟩ := speaks
    · obtain ⟨kind, source, th, rfl⟩ := Task.running?_eq_some hr
      have hpos := holders_pos ht rfl
      have hhome := ledger.accepted_unique accepted (ledger.acceptedBy_of_holders hpos)
      rw [hhome] at hpos
      omega
    · obtain ⟨i, hi, -⟩ := h.drained.callback ht hth hm
      exact ledger.not_abandoned_of_finished hf i hi

/-- Once all tasks of an epoch are over, a job of its that has begun is finished. -/
theorem Ledger.finished_of_deserted (h : w.Ledger) (ha : w.AcceptedBy e k)
    (hd : w.deserted e = true) (hc : w.Called k) :
    ∃ ending, .finished e k ending ∈ w.occurrences := by
  obtain ⟨i, t, source, hs⟩ := hc
  have starts : 0 < w.books.countP (·.starts k) :=
    List.countP_pos_iff.2 ⟨_, mem_books hs rfl, by simp [Booking.starts]⟩
  have begun := h.begun e k
  have runners := w.runners_le_holders e k
  rw [holders_of_deserted hd] at runners
  rw [h.starts_eq ha] at starts
  exact finished_mem_books.1 (List.count_pos_iff.1 (by omega))

/-- What has begun or was abandoned was called. -/
theorem calls_pos (h : w.Called k ∨ w.Dropped k) : 0 < w.calls k := by
  rw [calls, List.countP_pos_iff]
  obtain ⟨e, t, source, ho⟩ | ⟨e, ho⟩ := h
  · exact ⟨_, ho, by simp⟩
  · exact ⟨_, ho, by simp⟩

/-- A job that was lost is neither begun nor abandoned. -/
theorem Evolved.untouched_of_lostBy (h : Evolved settings hook w) (hl : w.LostBy e k) :
    ¬ w.Called k ∧ ¬ w.Dropped k := by
  have calls := h.ledger.calls_of_unclaimed
    (Nat.add_pos_right _ (h.papers.count_lost_pos_iff.2 hl))
  constructor
  · intro hc
    exact (calls_pos (.inl hc)).ne' calls
  · intro hd
    exact (calls_pos (.inr hd)).ne' calls

/-- A job that a spent epoch accepted is over or was abandoned, or it was lost. -/
theorem Spent.fate (h : w.Spent e) (hw : Evolved settings hook w) (ha : w.AcceptedBy e k) :
    (∃ ending, .finished e k ending ∈ w.occurrences) ∨ w.Dropped k ∨ w.LostBy e k := by
  have kept := hw.ledger.kept e k
  have once := hw.ledger.count_accepted ha e
  rw [if_pos rfl] at once
  rw [h.stock_eq_zero hw, holders_of_deserted h.deserted] at kept
  obtain hpos | hpos | hpos : 0 < w.books.count (.finished e k) ∨
      0 < w.books.count (.abandoned e k) ∨ 0 < w.books.count (.lost e k) := by omega
  · exact .inl (finished_mem_books.1 (List.count_pos_iff.1 hpos))
  · exact .inr (.inl (dropped_of_mem_books (List.count_pos_iff.1 hpos)))
  · exact .inr (.inr (hw.papers.count_lost_pos_iff.1 hpos))

/-- What the log has been told by the code of job `k`, in order. -/
def records (w : World ν) (k : Nat) : List Notice := (w.said k).filterMap Deed.notice?

variable {τ ρ ε : Type}

/-- What the callback of request `k` was called with, in order. -/
def replies (w : World (Report ν τ ρ ε)) (k : Nat) : List (τ × Outcome ρ ε) :=
  (w.said k).filterMap Deed.call?

/-- The replies to request `k`, with this callback, are right: there is at most one, with the
request itself, and it tells how the handler ended if it was called, and else that it was not. -/
structure Answered (w : World (Report ν τ ρ ε)) (handler : Handler (Report ν τ ρ ε) τ ρ ε)
    (respond : Callback (Report ν τ ρ ε) τ ρ ε) (request input : τ) (disposal : Option Panic)
    (k : Nat) : Prop where
  once : (w.replies k).length ≤ 1
  own : ∀ r ∈ w.replies k, r.1 = request
  result : ∀ r ∈ w.replies k, ∀ value, r.2 = .ok value ↔
    w.Called k ∧ (handler.handle input).ending = .ok (.ok value)
  failed : ∀ r ∈ w.replies k, ∀ error, r.2 = .error (.failed error) ↔
    w.Called k ∧ (handler.handle input).ending = .ok (.error error)
  panicked : ∀ r ∈ w.replies k, ∀ message, r.2 = .error (.panicked message) ↔
    w.Called k ∧ ((handler.handle input).ending = .error (.text message) ∨
      (handler.handle input).ending = .error .unprintable ∧ message = "non-string panic payload")
  dropped : ∀ r ∈ w.replies k, r.2 = .error .dropped ↔ ¬ w.Called k
  /-- Once the job is over it was answered, also if the callback panicked. -/
  finished : handler.relapse? input disposal = none →
    ∀ e ending, .finished e k ending ∈ w.occurrences →
      w.replies k = [(request, handler.outcome input)] ∧
        ending = (respond request (handler.outcome input)).ending
  /-- If disposing of the handler's panic panics then the job ends by that and is not answered. -/
  relapsed : ∀ p, handler.relapse? input disposal = some p → w.Called k → w.replies k = [] ∧
    ∀ e ending, .finished e k ending ∈ w.occurrences → ending = .error p
  /-- Once the job was abandoned and its callback is over it was answered. -/
  abandoned : w.Dropped k → ¬ w.Speaks k → w.replies k = [(request, .error .dropped)]
  /-- Once nothing may happen in its epoch any more there is a reply, unless the job was lost, or
  disposing of the handler's panic ended it. -/
  answered : ∀ e, w.AcceptedBy e k → w.Spent e → (w.replies k ≠ [] ↔
    ¬ w.LostBy e k ∧ ¬ (w.Called k ∧ (handler.relapse? input disposal).isSome))

/-- The log of request `k`, which has no callback, is right: beyond what the handler logs it gets
one record, as the job is over or abandoned, and none if there is a result. -/
structure Logged (w : World (Report ν τ ρ ε)) (handler : Handler (Report ν τ ρ ε) τ ρ ε)
    (input : τ) (disposal : Option Panic) (k : Nat) : Prop where
  uncalled : w.replies k = []
  called : handler.relapse? input disposal = none → w.Called k → w.records k <+:
    (handler.handle input).acts.flatMap (Act.picks Deed.notice?) ++
      (detachedNotice? handler.describe (handler.outcome input)).toList
  finished : handler.relapse? input disposal = none →
    ∀ e ending, .finished e k ending ∈ w.occurrences → w.records k =
      (handler.handle input).acts.flatMap (Act.picks Deed.notice?) ++
        (detachedNotice? handler.describe (handler.outcome input)).toList
  level : (detachedNotice? handler.describe (handler.outcome input)).map (·.record.level) =
    match (handler.handle input).ending with
    | .ok (.ok _) => none
    | .ok (.error _) => some .warn
    | .error _ => some .error
  /-- If disposing of the handler's panic panics then there is no record of how it ended. -/
  relapsed : ∀ p, handler.relapse? input disposal = some p → w.Called k →
    w.records k <+: (handler.handle input).acts.flatMap (Act.picks Deed.notice?) ∧
      ∀ e ending, .finished e k ending ∈ w.occurrences → ending = .error p ∧
        w.records k = (handler.handle input).acts.flatMap (Act.picks Deed.notice?)
  dropped : w.Dropped k → w.records k <+: [.detachedDropped] ∧
    (¬ w.Speaks k → w.records k = [.detachedDropped])
  warned : Notice.detachedDropped.record.level = .warn
  untouched : ¬ w.Called k → ¬ w.Dropped k → w.records k = []
  /-- Once nothing may happen in its epoch any more the job is over or was abandoned, unless it was
  lost. -/
  settled : ∀ e, w.AcceptedBy e k → w.Spent e →
    (∃ ending, .finished e k ending ∈ w.occurrences) ∨ w.Dropped k ∨ w.LostBy e k

variable {w : World (Report ν τ ρ ε)} {handler : Handler (Report ν τ ρ ε) τ ρ ε}
  {respond : Callback (Report ν τ ρ ε) τ ρ ε} {request input : τ} {disposal : Option Panic}

/-- A note that is no call is picked as none. -/
theorem call?_note_eq_none {n : Report ν τ ρ ε} (h : n.isCall = false) :
    Deed.call? (.note n) = none := by
  cases n with
  | called => cases h
  | other => rfl

/-- A request is not answered to by a call. -/
theorem unanswered_of_discreet {job : Job (Report ν τ ρ ε)} (h : job.Discreet Report.isCall) :
    ∀ act ∈ job.run.acts, ∀ n ∈ act.answers, Deed.call? (.note n) = none :=
  fun act hact n hn => call?_note_eq_none (h act hact n hn)

/-- The calls in the body of a request: the one with the outcome of the handler, unless the handler
was left for good. -/
theorem picks_call_run (hh : handler.Discreet) (hr : Callback.Discreet respond)
    (hc : handler.copy request = .ok input) :
    (requestJob handler request (some (announced respond)) disposal).run.acts.flatMap
      (Act.picks Deed.call?) = if (handler.relapse? input disposal).isSome then []
        else [(request, handler.outcome input)] := by
  cases hd : handler.relapse? input disposal with
  | some p => simpa [acts_run_of_relapse _ hc hd] using hh.picks_call input
  | none =>
    rw [acts_run_of_copy _ hc hd, List.flatMap_append, hh.picks_call, flatMap_picks_map]
    exact picks_call_announced hr request _

/-- The replies to a request: none yet, or the outcome of its handler, or that it was dropped. -/
theorem replies_cases (h : Evolved settings hook w) (hh : handler.Discreet)
    (hr : Callback.Discreet respond) (hc : handler.copy request = .ok input)
    (hs : .submitted k (requestJob handler request (some (announced respond)) disposal) ∈
      w.occurrences) :
    (w.Called k → w.replies k <+: (if (handler.relapse? input disposal).isSome then []
        else [(request, handler.outcome input)]) ∧
      (¬ w.Speaks k → w.replies k = if (handler.relapse? input disposal).isSome then []
        else [(request, handler.outcome input)])) ∧
    (w.Dropped k → w.replies k <+: [(request, .error .dropped)] ∧
      (¬ w.Speaks k → w.replies k = [(request, .error .dropped)])) ∧
    (¬ w.Called k → ¬ w.Dropped k → w.replies k = []) := by
  have discreet : (requestJob handler request (some (announced respond)) disposal).Discreet
      Report.isCall := discreet_requestJob (fun _ hn => hn) hh request _ _
  refine ⟨fun called => ?_, fun dropped => ?_, fun hno hnd => ?_⟩
  · rw [← picks_call_run hh hr hc]
    exact h.picked_of_called Deed.call? hs (unanswered_of_discreet discreet) called
  · rw [← picks_call_announced hr request (.error .dropped)]
    exact h.picked_of_dropped Deed.call? hs dropped
  · rw [replies, h.said_of_untouched hs hno hnd, List.filterMap_nil]

/-- A request with a callback is answered right. -/
theorem answered_of_submitted (h : Evolved settings hook w) (hh : handler.Discreet)
    (hr : Callback.Discreet respond) (hc : handler.copy request = .ok input)
    (hs : .submitted k (requestJob handler request (some (announced respond)) disposal) ∈
      w.occurrences) :
    Answered w handler respond request input disposal k := by
  obtain ⟨called, dropped, untouched⟩ := replies_cases h hh hr hc hs
  have cases : (w.replies k).length ≤ 1 ∧ ∀ r ∈ w.replies k, r.1 = request ∧
      (w.Called k ∧ r.2 = handler.outcome input ∨ ¬ w.Called k ∧ r.2 = .error .dropped) := by
    by_cases hcalled : w.Called k
    · obtain ⟨begins, -⟩ := called hcalled
      split_ifs at begins
      · simp [List.prefix_nil.1 begins]
      · refine ⟨begins.length_le, fun r hm => ?_⟩
        obtain rfl := List.mem_singleton.1 (begins.subset hm)
        exact ⟨rfl, .inl ⟨hcalled, rfl⟩⟩
    · by_cases hdropped : w.Dropped k
      · obtain ⟨begins, -⟩ := dropped hdropped
        refine ⟨begins.length_le, fun r hm => ?_⟩
        obtain rfl := List.mem_singleton.1 (begins.subset hm)
        exact ⟨rfl, .inr ⟨hcalled, rfl⟩⟩
      · simp [untouched hcalled hdropped]
  obtain ⟨once, reply⟩ := cases
  have ends : ∀ e ending, .finished e k ending ∈ w.occurrences →
      ending = (handler.relapse? input disposal).elim
        (respond request (handler.outcome input)).ending .error := by
    intro e ending hf
    rw [h.ending_of_finished hs hf, run_requestJob, hc]
    cases hd : handler.relapse? input disposal with
    | some p => simp only [hd, Option.elim_some]
    | none =>
      simp only [hd]
      rfl
  refine ⟨once, fun r hm => (reply r hm).1, fun r hm value => ?_, fun r hm error => ?_,
    fun r hm message => ?_, fun r hm => ?_, fun hd e ending hf => ?_, fun p hd hcalled => ?_,
    fun hd hsilent => (dropped hd).2 hsilent, fun e ha hspent => ?_⟩
  · obtain ⟨-, ⟨hcalled, hr⟩ | ⟨hcalled, hr⟩⟩ := reply r hm <;>
      simp [hr, hcalled, Handler.outcome_eq_ok]
  · obtain ⟨-, ⟨hcalled, hr⟩ | ⟨hcalled, hr⟩⟩ := reply r hm <;>
      simp [hr, hcalled, Handler.outcome_eq_failed]
  · obtain ⟨-, ⟨hcalled, hr⟩ | ⟨hcalled, hr⟩⟩ := reply r hm <;>
      simp [hr, hcalled, Handler.outcome_eq_panicked]
  · obtain ⟨-, ⟨hcalled, hr⟩ | ⟨hcalled, hr⟩⟩ := reply r hm <;>
      simp [hr, hcalled, Handler.outcome_ne_dropped]
  · obtain ⟨hcalled, hsilent⟩ := h.not_speaks_of_finished hf
    exact ⟨by simpa [hd] using (called hcalled).2 hsilent, by simpa [hd] using ends e ending hf⟩
  · obtain ⟨begins, -⟩ := called hcalled
    exact ⟨by simpa [hd] using begins, fun e ending hf => by simpa [hd] using ends e ending hf⟩
  · have silent := hspent.not_speaks h ha
    constructor
    · refine fun hne => ⟨fun hlost => hne ?_, fun ⟨hcalled, hd⟩ => hne ?_⟩
      · obtain ⟨hno, hnd⟩ := h.untouched_of_lostBy hlost
        exact untouched hno hnd
      · rw [(called hcalled).2 silent, if_pos hd]
    · rintro ⟨hkept, hstays⟩
      obtain ⟨_, hf⟩ | hdropped | hlost := hspent.fate h ha
      · obtain ⟨hcalled, -⟩ := h.not_speaks_of_finished hf
        rw [(called hcalled).2 silent, if_neg fun hd => hstays ⟨hcalled, hd⟩]
        exact List.cons_ne_nil _ _
      · rw [(dropped hdropped).2 silent]
        exact List.cons_ne_nil _ _
      · exact absurd hlost hkept

/-- What the body of a request without a callback does. -/
theorem flatMap_picks_run_detached {α : Type} (f : Deed (Report ν τ ρ ε) → Option α)
    (hc : handler.copy request = .ok input) :
    (requestJob handler request none disposal).run.acts.flatMap (Act.picks f) =
      (handler.handle input).acts.flatMap (Act.picks f) ++
        if (handler.relapse? input disposal).isSome then []
        else (WorkerPool.answer handler request none (handler.outcome input)).acts.flatMap
          (Deed.picks f) := by
  cases hd : handler.relapse? input disposal with
  | some p => simp [acts_run_of_relapse _ hc hd]
  | none => simp [acts_run_of_copy _ hc hd]

/-- A request without a callback calls none. -/
theorem replies_of_detached (h : Evolved settings hook w) (hh : handler.Discreet)
    (hc : handler.copy request = .ok input)
    (hs : .submitted k (requestJob handler request none disposal) ∈ w.occurrences) :
    w.replies k = [] := by
  have hlog : ∀ outcome : Outcome ρ ε,
      (WorkerPool.answer handler request none outcome).acts.flatMap (Deed.picks Deed.call?) =
        [] := by
    intro outcome
    unfold WorkerPool.answer
    cases detachedNotice? handler.describe outcome <;> rfl
  have hbody : (requestJob handler request none disposal).run.acts.flatMap
      (Act.picks Deed.call?) = [] := by
    rw [flatMap_picks_run_detached _ hc, hh.picks_call, hlog, ite_self, List.append_nil]
  have discreet : (requestJob handler request none disposal).Discreet Report.isCall :=
    discreet_requestJob (fun _ hn => hn) hh request _ _
  by_cases hcalled : w.Called k
  · obtain ⟨begins, -⟩ := h.picked_of_called Deed.call? hs (unanswered_of_discreet discreet) hcalled
    exact List.prefix_nil.1 (hbody ▸ begins)
  · by_cases hdropped : w.Dropped k
    · obtain ⟨begins, -⟩ := h.picked_of_dropped Deed.call? hs hdropped
      exact List.prefix_nil.1 begins
    · rw [replies, h.said_of_untouched hs hcalled hdropped, List.filterMap_nil]

/-- A request without a callback is logged right. -/
theorem logged_of_submitted (h : Evolved settings hook w) (hh : handler.Discreet)
    (hc : handler.copy request = .ok input)
    (hs : .submitted k (requestJob handler request none disposal) ∈ w.occurrences) :
    Logged w handler input disposal k := by
  have called := h.picked_of_called Deed.notice? hs fun _ _ _ _ => rfl
  rw [flatMap_picks_run_detached _ hc, picks_notice_answer, ← records] at called
  constructor
  case uncalled => exact replies_of_detached h hh hc hs
  case called =>
    intro hd hcalled
    simpa [hd] using (called hcalled).1
  case finished =>
    intro hd e ending hf
    obtain ⟨hcalled, hsilent⟩ := h.not_speaks_of_finished hf
    simpa [hd] using (called hcalled).2 hsilent
  case level =>
    rw [level_detachedNotice?]
    rcases hend : (handler.handle input).ending with p | (error | value) <;>
      simp [Handler.outcome, hend, outcomeOf]
  case relapsed =>
    intro p hd hcalled
    refine ⟨by simpa [hd] using (called hcalled).1, fun e ending hf => ⟨?_, ?_⟩⟩
    · rw [h.ending_of_finished hs hf, run_requestJob, hc]
      simp only [hd]
    · simpa [hd] using (called hcalled).2 (h.not_speaks_of_finished hf).2
  case dropped => exact h.picked_of_dropped Deed.notice? hs
  case warned => rfl
  case untouched =>
    intro hno hnd
    rw [records, h.said_of_untouched hs hno hnd, List.filterMap_nil]
  case settled => exact fun e ha hspent => hspent.fate h ha

/-- Every outcome delivered is the right one. Let a request that can be copied be submitted with a
callback: whatever the handler does, in one step or many, and whatever the callback does, there is
at most one reply, it carries the request, and it tells how the handler ended, or that the handler
was not called; and there is one once the job is over, and in the end, unless the request was lost
with the worker hired for it, or disposing of the handler's panic panicked in turn. If it is
submitted without a callback then a record in the log takes the place of the reply, an error for a
panic, a warning for a failure and for a request that was dropped, and none for a result. -/
theorem replies_right (h : Reachable settings hook w) (hh : handler.Discreet)
    (hc : handler.copy request = .ok input) :
    (∀ respond disposal, Callback.Discreet respond →
      .submitted k (requestJob handler request (some (announced respond)) disposal) ∈
          w.occurrences →
        Answered w handler respond request input disposal k) ∧
      ∀ disposal, .submitted k (requestJob handler request none disposal) ∈ w.occurrences →
        Logged w handler input disposal k :=
  ⟨fun _ _ hr hs => answered_of_submitted h.evolved hh hr hc hs,
    fun _ hs => logged_of_submitted h.evolved hh hc hs⟩

/-- A callback that panics. -/
def slamming : Callback (Report Unit Nat Nat Nat) Nat Nat Nat := fun _ _ => .panic (.text "slam")

/-- A request whose handler panics; what disposing of that does is given. -/
def slammingJob (disposal : Option Panic) : Job (Report Unit Nat Nat Nat) :=
  requestJob grading 2 (some (announced slamming)) disposal

/-- A pool whose worker has answered a request that its handler panicked over, by a callback that
panicked as well, has logged the failure of another one, and has left the handler of a third one for
good. -/
def slammed : World (Report Unit Nat Nat Nat) :=
  [1, 1, 0, 0, 0, 0, 0, 0, 0, 1, 0, 0, 0, 0].foldl step
    (({ settings := narrow : World (Report Unit Nat Nat Nat) }.launch).spawn (.client { body :=
      ⟨[.ofJob (slammingJob none) (.other ()) (.other ()) (.other ()),
        .ofJob (requestJob grading 1 none) (.other ()) (.other ()) (.other ()),
        .ofJob (slammingJob (some (.text "spill"))) (.other ()) (.other ()) (.other ())],
        .ok ()⟩ }))

/-- A narrow pool that three requests were submitted to and that was then stopped, after the hook
had ended the worker hired for the third one. -/
def missed : World (Report Unit Nat Nat Nat) :=
  [1, 1, 1, 2, 1, 1, 1, 1, 1, 1, 1, 1, 1, 1, 0, 0, 0].foldl step
    (({ settings := narrow, hook := some fun _ _ => some .unprintable :
      World (Report Unit Nat Nat Nat) }.launch).spawn (.client { body :=
        ⟨List.replicate 3 (.ofJob (slammingJob none) (.other ()) (.other ()) (.other ())) ++
          [.deed .stop], .ok ()⟩ }))

set_option maxRecDepth 1000 in
/-- Nothing may happen in the epoch of that pool any more. -/
theorem spent_missed : missed.Spent 0 := by
  refine ⟨by decide, ?_, ?_⟩
  · rw [World.deserted, ← Array.all_toList]
    decide
  · rintro ⟨t, task, th, n, ht, hth, hn⟩
    have idle : ∀ i < 3, ∀ task ∈ missed.tasks[i]?, ∀ th ∈ task.thread?,
        th.layers.isEmpty = true := by decide
    have hempty := idle t (Array.getElem?_eq_some_iff.1 ht).1 task ht th hth
    rw [List.isEmpty_iff.1 hempty] at hn
    cases hn

set_option maxRecDepth 1000 in
/-- The callback was called once, with the message of the panic, and the failure was logged once;
nothing was said of the request whose handler was left for good, nor of the one that was lost. -/
theorem replies_right_slammed :
    (Reachable narrow none slammed ∧ slammed.replies 0 = [(2, .error (.panicked "boom"))] ∧
      .finished 0 0 (.error (.text "slam")) ∈ slammed.occurrences ∧
      slammed.records 1 = [.detachedFailed "Task failed: 1"] ∧
      .finished 0 2 (.error (.text "spill")) ∈ slammed.occurrences ∧ slammed.replies 2 = []) ∧
    (∃ hook, Reachable narrow hook missed) ∧ missed.AcceptedBy 0 2 ∧ missed.Spent 0 ∧
      missed.LostBy 0 2 ∧ missed.replies 2 = [] := by
  have reachable : Reachable narrow none slammed :=
    (Reachable.launch none narrow_valid).call _ [1, 1, 0, 0, 0, 0, 0, 0, 0, 1, 0, 0, 0, 0]
  have reachable' : Reachable narrow (some fun _ _ => some .unprintable) missed :=
    (Reachable.launch _ narrow_valid).call _ [1, 1, 1, 2, 1, 1, 1, 1, 1, 1, 1, 1, 1, 1, 0, 0, 0]
  have discreet : grading.Discreet := by
    intro request act hact
    rcases request with _ | _ | _ <;> cases hact
  have plain : Callback.Discreet slamming := by simp [Callback.Discreet, slamming, Script.panic]
  have copied : grading.copy 2 = .ok 2 := rfl
  have first : .submitted 0 (slammingJob none) ∈ slammed.occurrences :=
    List.mem_of_getElem? (i := 2) rfl
  have second : .submitted 1 (requestJob grading 1 none) ∈ slammed.occurrences :=
    List.mem_of_getElem? (i := 5) rfl
  have third : .submitted 2 (slammingJob (some (.text "spill"))) ∈ slammed.occurrences :=
    List.mem_of_getElem? (i := 16) rfl
  have slams : .finished 0 0 (.error (.text "slam")) ∈ slammed.occurrences :=
    List.mem_of_getElem? (i := 11) rfl
  have logs : .finished 0 1 (.ok ()) ∈ slammed.occurrences := List.mem_of_getElem? (i := 15) rfl
  have spills : .finished 0 2 (.error (.text "spill")) ∈ slammed.occurrences :=
    List.mem_of_getElem? (i := 20) rfl
  have called : slammed.Called 2 := ⟨0, 0, _, List.mem_of_getElem? (i := 19) rfl⟩
  have seed : .submitted 2 (slammingJob none) ∈ missed.occurrences :=
    List.mem_of_getElem? (i := 8) rfl
  have accepted : missed.AcceptedBy 0 2 := by decide
  have lost : missed.LostBy 0 2 := reachable'.evolved.papers.lostBy (by decide)
  have answered := (replies_right reachable discreet copied).1 slamming none plain first
  have logged := (replies_right reachable discreet rfl).2 none second
  have relapsed := (replies_right reachable discreet copied).1 slamming _ plain third
  have unanswered := (replies_right reachable' discreet copied).1 slamming none plain seed
  have unheard : missed.replies 2 = [] := by
    by_contra hne
    exact ((unanswered.answered 0 accepted spent_missed).1 hne).1 lost
  exact ⟨⟨reachable, (answered.finished rfl 0 _ slams).1, slams, logged.finished rfl 0 _ logs,
    spills, (relapsed.relapsed _ rfl called).1⟩, ⟨_, reachable'⟩, accepted, spent_missed, lost,
    unheard⟩

end World

end WorkerPool
