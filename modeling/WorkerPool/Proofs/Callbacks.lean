import WorkerPool.Proofs.Drains
import WorkerPool.Proofs.Reports
import WorkerPool.Request

/-!
# Callbacks of requests

Callbacks are observed through a report that each of them makes first. A callback is called at most
once and never for a submission that was refused. In an epoch that all its tasks have left it is
called exactly once but for three ways in which the answer is missed: the hook ended the worker that
was hired for the request, the request panicked while it was copied, or the answer is still owed,
which takes a stop that is draining the epoch, or workers that were all ended by their hook before
the epoch was stopped.
-/

namespace WorkerPool

variable {ν τ ρ ε : Type}

/-- What is reported in a pool of requests: the call of a callback, or anything else. -/
inductive Report (ν τ ρ ε : Type) where
  | called (request : τ) (outcome : Outcome ρ ε)
  | other (n : ν)

/-- The report of a call. -/
def Report.isCall : Report ν τ ρ ε → Bool
  | called _ _ => true
  | other _ => false

/-- A callback that reports its call before it does anything else. -/
def announced (respond : Callback (Report ν τ ρ ε) τ ρ ε) : Callback (Report ν τ ρ ε) τ ρ ε :=
  fun request outcome => do
    .act (.note (.called request outcome))
    respond request outcome

/-- A handler whose code reports no calls of its own. -/
def Handler.Discreet (h : Handler (Report ν τ ρ ε) τ ρ ε) : Prop :=
  ∀ request, ∀ act ∈ (h.handle request).acts,
    act.reports Report.isCall = 0 ∧ ∀ n ∈ act.answers, n.isCall = false

/-- A callback that reports no calls beyond its own. -/
def Callback.Discreet (respond : Callback (Report ν τ ρ ε) τ ρ ε) : Prop :=
  ∀ request outcome, ∀ d ∈ (respond request outcome).acts, d.reports Report.isCall = 0

section Rename

variable {μ : Type} (f : ν → μ)

/-- The deed with another word for its report. -/
def Deed.rename : Deed ν → Deed μ
  | note n => .note (f n)
  | log notice => .log notice
  | start => .start
  | stop => .stop
  | hold => .hold
  | drop => .drop

mutual

/-- The act with other words for its reports. -/
def Act.rename : Act ν → Act μ
  | deed d => .deed (d.rename f)
  | pass gate => .pass gate
  | sleep time => .sleep time
  | submit ⟨acts, ending⟩ abandon accepted refused gone =>
    .submit ⟨Act.renameAll acts, ending⟩ (abandon.mapActs (Deed.rename f)) (f accepted) (f refused)
      (f gone)
  | shutdown timeout done late gone => .shutdown timeout (f done) (f late) (f gone)

/-- The acts with other words for their reports. -/
def Act.renameAll : List (Act ν) → List (Act μ)
  | [] => []
  | act :: acts => act.rename :: Act.renameAll acts

end

/-- The handler with other words for what its code reports. -/
def Handler.rename (h : Handler ν τ ρ ε) : Handler μ τ ρ ε where
  copy := h.copy
  handle request := ⟨Act.renameAll f (h.handle request).acts, (h.handle request).ending⟩
  describe := h.describe

/-- The callback with other words for what it reports. -/
def Callback.rename (respond : Callback ν τ ρ ε) : Callback μ τ ρ ε :=
  fun request outcome => (respond request outcome).mapActs (Deed.rename f)

variable {f}

/-- An act that was renamed is one of those before. -/
theorem Act.mem_renameAll {act : Act μ} {acts : List (Act ν)} (h : act ∈ Act.renameAll f acts) :
    ∃ a ∈ acts, a.rename f = act := by
  induction acts with
  | nil => cases h
  | cons a acts ih =>
    obtain rfl | h := List.mem_cons.1 h
    · exact ⟨a, List.mem_cons_self, rfl⟩
    · obtain ⟨b, hb, rfl⟩ := ih h
      exact ⟨b, List.mem_cons_of_mem _ hb, rfl⟩

/-- A handler that has no word for calls is discreet. -/
theorem Handler.discreet_rename (h : Handler ν τ ρ ε) :
    (h.rename (Report.other : ν → Report ν τ ρ ε)).Discreet := by
  intro request act hact
  obtain ⟨a, _, rfl⟩ := Act.mem_renameAll hact
  cases a with
  | deed d => cases d <;> simp [Act.rename, Deed.rename, Act.reports, Deed.reports, Act.answers,
      Report.isCall]
  | _ => simp [Act.rename, Act.reports, Act.answers, Report.isCall]

/-- A callback that has no word for calls is discreet. -/
theorem Callback.discreet_rename (respond : Callback ν τ ρ ε) :
    Callback.Discreet (Callback.rename (Report.other : ν → Report ν τ ρ ε) respond) := by
  intro request outcome d hd
  obtain ⟨d', _, rfl⟩ := List.mem_map.1 hd
  cases d' <;> simp [Deed.rename, Deed.reports, Report.isCall]

end Rename

section Run

variable (handler : Handler ν τ ρ ε)

/-- The panic that a handler is left for on this input, in place of an answer: the one that
disposing of its own panic ends with, if it panics. -/
def Handler.relapse? (input : τ) (disposal : Option Panic) : Option Panic :=
  match (handler.handle input).ending with
  | .ok _ => none
  | .error _ => disposal

/-- Nothing comes of disposing of a panic that is inert. -/
@[simp] theorem Handler.relapse?_none (input : τ) : handler.relapse? input none = none := by
  unfold Handler.relapse?
  split <;> rfl

/-- What the job of a request does: nothing if the request cannot be copied, else what the handler
does, and then the answer, unless disposing of the handler's panic has ended the job. -/
theorem run_requestJob (request : τ) (respond : Option (Callback ν τ ρ ε))
    (disposal : Option Panic) : (requestJob handler request respond disposal).run =
      match handler.copy request with
      | .error p => ⟨[], .error p⟩
      | .ok input => match handler.relapse? input disposal with
        | some p => ⟨(handler.handle input).acts, .error p⟩
        | none => ⟨(handler.handle input).acts ++
            (answer handler request respond (outcomeOf (handler.handle input).ending)).acts.map
              .deed,
            (answer handler request respond (outcomeOf (handler.handle input).ending)).ending⟩ := by
  unfold requestJob
  cases handler.copy request with
  | error p => rfl
  | ok input =>
    show (do
      let ending ← (handler.handle input).caught
      disposed ending disposal
      (answer handler request respond (outcomeOf ending)).lift : Script (Act ν) Unit) = _
    dsimp only [Handler.relapse?]
    rcases handler.handle input with ⟨acts, p | value⟩
    · cases disposal with
      | none => rfl
      | some q =>
        show (⟨acts ++ [], .error q⟩ : Script (Act ν) Unit) = ⟨acts, .error q⟩
        rw [List.append_nil]
    · cases disposal <;> rfl

variable {handler}

/-- What the body of a request does is done by the handler on the copy, or never waits. -/
theorem mem_acts_run_requestJob {request : τ} {respond : Option (Callback ν τ ρ ε)}
    {disposal : Option Panic} {act : Act ν}
    (h : act ∈ (requestJob handler request respond disposal).run.acts) :
    (∃ input, act ∈ (handler.handle input).acts) ∨ ∃ d, act = .deed d := by
  rw [run_requestJob] at h
  cases hc : handler.copy request with
  | error p => simp [hc] at h
  | ok input =>
    cases hd : handler.relapse? input disposal with
    | some p =>
      simp only [hc, hd] at h
      exact .inl ⟨input, h⟩
    | none =>
      simp only [hc, hd, List.mem_append, List.mem_map] at h
      obtain hact | ⟨d, -, rfl⟩ := h
      · exact .inl ⟨input, hact⟩
      · exact .inr ⟨d, rfl⟩

end Run

section Reports

variable {sel : Report ν τ ρ ε → Bool} (hsel : ∀ n, sel n = true → n.isCall = true)
  {handler : Handler (Report ν τ ρ ε) τ ρ ε} {respond : Callback (Report ν τ ρ ε) τ ρ ε}

include hsel

/-- A deed that reports no call makes none of the chosen reports of calls. -/
theorem Deed.reports_of_isCall {d : Deed (Report ν τ ρ ε)} (h : d.reports Report.isCall = 0) :
    d.reports sel = 0 := by
  cases d with
  | note n =>
    have hn : ¬ sel n = true := fun hs => by simp [Deed.reports, hsel n hs] at h
    simp [Deed.reports, hn]
  | _ => rfl

/-- A callback that is called reports its own call alone. -/
theorem reports_announced (hr : Callback.Discreet respond) (request : τ) (outcome : Outcome ρ ε) :
    ((announced respond request outcome).acts.map (Deed.reports sel)).sum =
      if sel (.called request outcome) = true then 1 else 0 := by
  have hz : ((respond request outcome).acts.map (Deed.reports sel)).sum = 0 := by
    apply List.sum_eq_zero
    intro n hn
    obtain ⟨d, hd, rfl⟩ := List.mem_map.1 hn
    exact Deed.reports_of_isCall hsel (hr request outcome d hd)
  have hacts : (announced respond request outcome).acts =
      .note (.called request outcome) :: (respond request outcome).acts := rfl
  rw [hacts, List.map_cons, List.sum_cons, hz]
  rfl

omit hsel in
/-- The body of a request: nothing if the request cannot be copied, else the handler on the copy,
then the callback. -/
theorem acts_run_requestJob (c : Callback (Report ν τ ρ ε) τ ρ ε) (request : τ) :
    (requestJob handler request (some c)).run.acts =
      match handler.copy request with
      | .ok input => (handler.handle input).acts ++
          (c request (outcomeOf (handler.handle input).ending)).acts.map .deed
      | .error _ => [] := by
  rw [run_requestJob]
  cases handler.copy request with
  | error p => rfl
  | ok input => simp only [Handler.relapse?_none]; rfl

/-- The body of a request reports one call, that of its callback with the outcome of the handler,
unless the request cannot be copied. -/
theorem reports_run_requestJob (hh : handler.Discreet) (hr : Callback.Discreet respond)
    (request : τ) :
    ((requestJob handler request (some (announced respond))).run.acts.map (Act.reports sel)).sum =
      match handler.copy request with
      | .ok input =>
        if sel (.called request (outcomeOf (handler.handle input).ending)) = true then 1 else 0
      | .error _ => 0 := by
  rw [acts_run_requestJob]
  cases handler.copy request with
  | error p => rfl
  | ok input =>
    have hz : ((handler.handle input).acts.map (Act.reports sel)).sum = 0 := by
      apply List.sum_eq_zero
      intro n hn
      obtain ⟨act, hact, rfl⟩ := List.mem_map.1 hn
      have hcall := (hh input act hact).1
      cases act with
      | deed d => exact Deed.reports_of_isCall hsel hcall
      | _ => rfl
    have hdeeds : (Act.reports sel ∘ Act.deed) = Deed.reports sel := rfl
    simp only [List.map_append, List.sum_append, hz, List.map_map, hdeeds, Nat.zero_add]
    exact reports_announced hsel hr request _

/-- A request that is abandoned reports the call of its callback with the news. -/
theorem reports_abandon_requestJob (hr : Callback.Discreet respond) (request : τ) :
    ((requestJob handler request (some (announced respond))).abandon.acts.map
      (Deed.reports sel)).sum = if sel (.called request (.error .dropped)) = true then 1 else 0 :=
  reports_announced hsel hr request _

/-- No answer that the body of a request gets is taken for a call. -/
theorem discreet_requestJob (hh : handler.Discreet) (request : τ)
    (answers : Option (Callback (Report ν τ ρ ε) τ ρ ε)) (disposal : Option Panic) :
    (requestJob handler request answers disposal).Discreet sel := by
  intro act hact n hn
  obtain ⟨input, hact⟩ | ⟨d, rfl⟩ := mem_acts_run_requestJob hact
  · have hcall := (hh input act hact).2 n hn
    by_contra hs
    rw [hsel n (by simpa using hs)] at hcall
    cases hcall
  · cases hn

end Reports

namespace World

section Deserted

variable {ν : Type} {w : World ν} {e : EpochId} {k : Nat}

/-- Only the epoch that accepted a job abandons it. -/
theorem Ledger.eq_of_abandoned (h : w.Ledger) (ha : w.AcceptedBy e k) {i : EpochId}
    (hi : .abandoned i k ∈ w.occurrences) : i = e := by
  have begins : (Booking.abandoned i k).begins k = true := by simp [Booking.begins]
  obtain ⟨j, hj, hb | hb⟩ := h.accepted_of_begins (mem_books hi rfl) begins
  · cases hb
  · obtain rfl : i = j := by simpa using hb
    exact h.accepted_unique ha hj

/-- Nothing is left to report for a job that no worker holds and whose callback is not under way. -/
theorem unheard_eq_zero (sel : ν → Bool) (hl : w.Ledger) (ha : w.AcceptedBy e k)
    (hh : w.holders e k = 0)
    (hc : ∀ (t : TaskId) (task : Task ν) (th : Thread ν) (code : Script (Deed ν) Unit),
      w.tasks[t]? = some task → task.thread? = some th → .callback k code ∉ th.layers) :
    w.unheard sel k = 0 := by
  apply w.total_eq_zero
  intro t task ht
  cases hth : task.thread? with
  | none => simp [Task.reports, hth]
  | some th =>
    rw [reports_of_thread? sel hth, Thread.reports]
    have hbody : task.author? ≠ some k := by
      intro hauthor
      obtain ⟨home, _, _, _, rfl⟩ := Task.author?_eq_some hauthor
      have hpos := holders_pos ht rfl
      have hkept := hl.kept home k
      have hhome : home = e :=
        hl.accepted_unique ha (List.count_pos_iff.1 (by omega))
      subst hhome
      omega
    have hlayers : (th.layers.map (Layer.reports sel k)).sum = 0 := by
      apply List.sum_eq_zero
      intro n hn
      obtain ⟨layer, hlayer, rfl⟩ := List.mem_map.1 hn
      cases layer with
      | drain => rfl
      | callback ticket code =>
        have hne : ticket ≠ k := by
          rintro rfl
          exact hc t task th code ht hth hlayer
        simp [Layer.reports, hne]
    rw [hlayers, if_neg hbody, Nat.add_zero]

/-- A callback that is under way is that of an abandoned job, and stands on the drain of its epoch
or belongs to the dispatcher of that. -/
theorem Drained.callback (hs : w.Drained) {t : TaskId} {task : Task ν} {th : Thread ν}
    {code : Script (Deed ν) Unit} (ht : w.tasks[t]? = some task) (hth : task.thread? = some th)
    (hm : .callback k code ∈ th.layers) : ∃ i, .abandoned i k ∈ w.occurrences ∧
      ((∃ n, .drain i n ∈ th.layers) ∨ ∃ state, task = .dispatcher i state) := by
  obtain ⟨above, rest, heq⟩ := List.append_of_mem hm
  obtain ⟨i, hi, ⟨n, rest', rfl⟩ | ⟨_, state, rfl⟩⟩ :=
    hs.stacked t task ht th k code rest hth ⟨above, heq.symm⟩
  · exact ⟨i, hi, .inl ⟨n, by simp [heq]⟩⟩
  · exact ⟨i, hi, .inr ⟨state, rfl⟩⟩

/-- No callback of an epoch is left once its tasks are over and no drain of it is under way. -/
theorem unheard_of_deserted (sel : ν → Bool) (hl : w.Ledger) (hs : w.Drained)
    (ha : w.AcceptedBy e k) (h : w.deserted e = true) (hd : ¬ w.Draining e) :
    w.unheard sel k = 0 := by
  refine unheard_eq_zero sel hl ha (holders_of_deserted h k) fun t task th code ht hth hm => ?_
  obtain ⟨i, hi, ⟨n, hn⟩ | ⟨state, rfl⟩⟩ := hs.callback ht hth hm
  · obtain rfl := hl.eq_of_abandoned ha hi
    exact hd ⟨t, task, th, n, ht, hth, hn⟩
  · obtain rfl := hl.eq_of_abandoned ha hi
    have hover := isOver_of_deserted h ht rfl
    cases state <;> simp [Task.isOver, Task.thread?] at hover hth

/-- A job that is left in an epoch whose tasks are over is queued there. -/
theorem stock_pos_iff_of_deserted (h : w.deserted e = true) (hm : w.Manned) (hp : w.Dispatched) :
    0 < w.stock e k ↔ ∃ x ∈ (w.epoch e).queue, x.ticket = k := by
  rw [stock, entries_of_deserted h hm hp, List.countP_pos_iff]
  simp only [decide_eq_true_eq]

/-- A job is booked as lost exactly if its worker was ended by the hook. -/
theorem Papers.count_lost_pos_iff (h : w.Papers) :
    0 < w.books.count (.lost e k) ↔ w.LostBy e k := by
  rw [List.count_pos_iff]
  constructor
  · exact h.lostBy
  · rintro ⟨t, live, p, _, _, hl⟩
    exact mem_books hl rfl

/-- What begins a job runs it or abandons it. -/
theorem calls_eq_add (w : World ν) (k : Nat) :
    w.calls k = w.books.countP (·.starts k) + w.books.countP (·.abandons k) := by
  rw [calls_eq]
  induction w.books with
  | nil => rfl
  | cons b bs ih =>
    simp only [List.countP_cons, ih]
    cases b <;> simp [Booking.begins, Booking.starts, Booking.abandons] <;> omega

/-- A job that was refused was neither run nor abandoned. -/
theorem Ledger.calls_of_refused (h : w.Ledger) (hr : .refused k ∈ w.books) : w.calls k = 0 := by
  rw [calls_eq, List.countP_eq_zero]
  intro b hb hk
  obtain ⟨e, ha, _⟩ := h.accepted_of_begins hb hk
  have hpos := List.count_pos_iff.2 hr
  have haccepts : 0 < w.books.countP (·.accepts k) :=
    List.countP_pos_iff.2 ⟨_, ha, by simp [Booking.accepts]⟩
  have hdrawn := h.drawn k
  split_ifs at hdrawn <;> omega

end Deserted

variable {w : World (Report ν τ ρ ε)} {e : EpochId} {k : Nat}

/-- How often the callback of the request with this ticket was called. -/
def callbacks (w : World (Report ν τ ρ ε)) (k : Nat) : Nat := w.heard Report.isCall k

variable {handler : Handler (Report ν τ ρ ε) τ ρ ε} {respond : Callback (Report ν τ ρ ε) τ ρ ε}
  {request : τ}

/-- How often a callback is called, and is still to be called, is how often the request was run, if
it can be copied, and abandoned. -/
theorem callbacks_add_unheard {settings : Settings} {hook : Option Hook}
    (h : Evolved settings hook w) (hh : handler.Discreet) (hr : Callback.Discreet respond)
    (hs : .submitted k (requestJob handler request (some (announced respond))) ∈ w.occurrences) :
    w.callbacks k + w.unheard Report.isCall k =
      w.books.countP (·.starts k) * (if (handler.copy request).isOk then 1 else 0) +
        w.books.countP (·.abandons k) := by
  have kept := h.kept Report.isCall k _ (fun job' hj => h.ledger.job_unique hs hj)
    (discreet_requestJob (fun _ hn => hn) hh request _ _)
  rw [callbacks, kept, promised, reports_run_requestJob (fun _ hn => hn) hh hr,
    reports_abandon_requestJob (fun _ hn => hn) hr]
  cases handler.copy request <;> simp [Report.isCall, Except.isOk, Except.toBool]

/-- The request with this ticket is still queued in the epoch, or its callback is under way. -/
def Owed (w : World (Report ν τ ρ ε)) (e : EpochId) (k : Nat) : Prop :=
  (∃ x ∈ (w.epoch e).queue, x.ticket = k) ∨ 0 < w.unheard Report.isCall k

/-- Once all tasks of an epoch are over, a callback is owed only while a stop of the epoch is still
draining it, or if the epoch was not stopped. -/
theorem Owed.draining_or_open (h : w.Owed e k) (hl : w.Ledger) (hs : w.Drained)
    (ha : w.AcceptedBy e k) (hd : w.deserted e = true) :
    w.Draining e ∨ (w.epoch e).closed = false := by
  by_contra hnone
  rw [not_or, Bool.not_eq_false] at hnone
  obtain ⟨hdrain, hclosed⟩ := hnone
  rcases h with ⟨x, hx, _⟩ | hpos
  · exact hdrain (hs.draining e hclosed (List.ne_nil_of_mem hx))
  · rw [unheard_of_deserted Report.isCall hl hs ha hd hdrain] at hpos
    omega

/-- The callback of a request is called at most once, and never if its submission was refused. Once
all tasks of the epoch that accepted it are over, it was called exactly once, unless the hook ended
the worker that was hired for the request, or a worker began the request and it panicked while it
was copied, or the callback is still owed; and it is owed only while a stop of the epoch is draining
it, or if the epoch was not stopped. -/
theorem callback_called_once_iff {settings : Settings} {hook : Option Hook}
    (h : Reachable settings hook w) (hh : handler.Discreet) (hr : Callback.Discreet respond)
    (hs : .submitted k (requestJob handler request (some (announced respond))) ∈ w.occurrences) :
    w.callbacks k ≤ 1 ∧ (.refused k ∈ w.books → w.callbacks k = 0) ∧
      ∀ e, w.AcceptedBy e k → w.deserted e = true →
        (w.callbacks k = 1 ↔ ¬ w.LostBy e k ∧
          ¬ (.started e k ∈ w.books ∧ ∃ p, handler.copy request = .error p) ∧ ¬ w.Owed e k) ∧
        (w.Owed e k → w.Draining e ∨ (w.epoch e).closed = false) := by
  have evolved := h.evolved
  have ledger := evolved.ledger
  have law := callbacks_add_unheard evolved hh hr hs
  have calls := w.calls_eq_add k
  have hle : w.books.countP (·.starts k) * (if (handler.copy request).isOk then 1 else 0) ≤
      w.books.countP (·.starts k) := by
    split_ifs <;> omega
  refine ⟨?_, fun hrefused => ?_, fun e ha hdeserted => ⟨?_, fun howed => ?_⟩⟩
  · have := ledger.calls_le_one k
    omega
  · have := ledger.calls_of_refused hrefused
    omega
  · have hholders := holders_of_deserted hdeserted k
    have hrunners := w.runners_le_holders e k
    have hkept := ledger.kept e k
    have hbegun := ledger.begun e k
    have haccepted := ledger.count_accepted ha e
    rw [if_pos rfl] at haccepted
    rw [ledger.starts_eq ha, ledger.abandons_eq ha] at law
    have queued := stock_pos_iff_of_deserted (k := k) hdeserted evolved.manned evolved.dispatched
    rw [Owed, ← evolved.papers.count_lost_pos_iff, ← queued,
      ← List.count_pos_iff (a := Booking.started e k)]
    cases hcopy : handler.copy request with
    | error p =>
      have hfail : (Except.error p : Except Panic τ).isOk = false := rfl
      simp only [hcopy, hfail, Except.error.injEq, exists_eq', and_true, Bool.false_eq_true,
        if_false, Nat.mul_zero] at law ⊢
      omega
    | ok input =>
      have hok : (Except.ok input : Except Panic τ).isOk = true := rfl
      simp only [hcopy, hok, reduceCtorEq, exists_false, and_false, not_false_eq_true, if_true,
        true_and, Nat.mul_one] at law ⊢
      omega
  · exact howed.draining_or_open ledger evolved.drained ha hdeserted

/-- A handler whose requests cannot be copied. -/
def uncopied : Handler (Report Unit Nat Unit Unit) Nat Unit Unit where
  copy _ := .error (.text "boom")
  handle _ := ⟨[], .ok (.ok ())⟩
  describe _ := .word "()"

/-- A callback that does nothing. -/
def silent : Callback (Report Unit Nat Unit Unit) Nat Unit Unit := fun _ _ => ⟨[], .ok ()⟩

/-- A narrow pool that ran a request that could not be copied and was then stopped. -/
def unanswered : World (Report Unit Nat Unit Unit) :=
  [0, 1, 0, 0, 1, 1, 0, 0].foldl step
    (({ settings := narrow : World (Report Unit Nat Unit Unit) }.launch).spawn
      (.client { body := ⟨[.ofJob (requestJob uncopied 0 (some (announced silent))) (.other ())
        (.other ()) (.other ()), .deed .stop], .ok ()⟩ }))

/-- The request was accepted and all tasks have left, but its callback was never called. -/
theorem callback_called_once_iff_unanswered :
    Reachable narrow none unanswered ∧ unanswered.AcceptedBy 0 0 ∧
      unanswered.deserted 0 = true ∧ ¬ unanswered.Draining 0 ∧ unanswered.callbacks 0 = 0 := by
  have reachable : Reachable narrow none unanswered :=
    (Reachable.launch none narrow_valid).call _ [0, 1, 0, 0, 1, 1, 0, 0]
  have submitted : .submitted 0 (requestJob uncopied 0 (some (announced silent))) ∈
      unanswered.occurrences := List.mem_of_getElem? (i := 3) rfl
  have accepted : unanswered.AcceptedBy 0 0 := by decide
  have deserted : unanswered.deserted 0 = true := by
    rw [World.deserted, ← Array.all_toList]
    decide
  have undrained : ¬ unanswered.Draining 0 := by
    rintro ⟨t, task, th, n, ht, hth, hn⟩
    have hidle : ∀ i < 2, ∀ task ∈ unanswered.tasks[i]?, ∀ th ∈ task.thread?,
        th.layers.isEmpty = true := by decide
    have hempty := hidle t (Array.getElem?_eq_some_iff.1 ht).1 task ht th hth
    rw [List.isEmpty_iff.1 hempty] at hn
    cases hn
  obtain ⟨hle, _, hiff⟩ := callback_called_once_iff reachable (by simp [Handler.Discreet, uncopied])
    (by simp [Callback.Discreet, silent]) submitted
  refine ⟨reachable, accepted, deserted, undrained, ?_⟩
  have hmissed : unanswered.callbacks 0 ≠ 1 := fun hone =>
    ((hiff 0 accepted deserted).1.1 hone).2.1 ⟨by decide, _, rfl⟩
  omega

end World

end WorkerPool
