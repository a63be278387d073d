import WorkerPool.Proofs.Callbacks
import WorkerPool.Proofs.Rest

/-!
# Outcomes

What a pool of requests delivers does not depend on its sizing or on the order of its moves. Once
all requests were accepted and the pool is at rest, each request was delivered with the outcome of
its handler, as often as it was submitted.
-/

namespace WorkerPool

variable {ν τ ρ ε : Type}

/-- The outcome of a request of which the handler gets this copy. -/
def Handler.outcome (h : Handler ν τ ρ ε) (input : τ) : Outcome ρ ε :=
  outcomeOf (h.handle input).ending

/-- The request and the outcome that the call of a callback delivers. -/
def Report.call? : Report ν τ ρ ε → Option (τ × Outcome ρ ε)
  | called request outcome => some (request, outcome)
  | other _ => none

/-- What is delivered by a report in the name of a job. -/
def Occurrence.delivery? : Occurrence (Report ν τ ρ ε) → Option (τ × Outcome ρ ε)
  | note (some _) n => n.call?
  | _ => none

/-- The ticket and the job of a submission. -/
def Occurrence.submission? : Occurrence ν → Option (Nat × Job ν)
  | submitted ticket job => some (ticket, job)
  | _ => none

namespace World

section Submissions

variable {ν : Type} (w : World ν)

/-- The tickets and the jobs of all submissions, in order. -/
def submissions : List (Nat × Job ν) := w.occurrences.filterMap Occurrence.submission?

variable {w}

theorem mem_submissions {s : Nat × Job ν} :
    s ∈ w.submissions ↔ .submitted s.1 s.2 ∈ w.occurrences := by
  rw [submissions, List.mem_filterMap]
  constructor
  · rintro ⟨o, ho, hs⟩
    cases o <;> simp only [Occurrence.submission?, reduceCtorEq, Option.some.injEq] at hs
    subst hs
    exact ho
  · exact fun h => ⟨_, h, rfl⟩

/-- The tickets of the submissions are those that were drawn. -/
theorem Ledger.perm_submissions (h : w.Ledger) :
    (w.submissions.map Prod.fst).Perm (List.range w.nextTicket) := by
  have count : ∀ os : List (Occurrence ν), ∀ k,
      ((os.filterMap Occurrence.submission?).map Prod.fst).count k =
        (os.filterMap Occurrence.booking?).count (.submitted k) := by
    intro os k
    induction os with
    | nil => rfl
    | cons o os ih =>
      cases o <;> simp [List.filterMap_cons, Occurrence.submission?, Occurrence.booking?,
        List.count_cons, ih]
  apply List.perm_iff_count.2
  intro k
  rw [submissions, count, ← books, h.submitted, List.nodup_range.count]
  simp only [List.mem_range]

variable (sel : ν → Bool) {k : Nat}

/-- Nothing is reported in the name of a ticket that was not drawn. -/
theorem heard_of_not_drawn {settings : Settings} {hook : Option Hook} (h : Evolved settings hook w)
    (hk : w.nextTicket ≤ k) : w.heard sel k = 0 := by
  have undrawn : ∀ job, .submitted k job ∉ w.occurrences := by
    intro job hs
    have hcount := List.count_pos_iff.2 (mem_books hs rfl)
    rw [h.ledger.submitted, if_neg (Nat.not_lt.2 hk)] at hcount
    omega
  have kept := h.kept sel k ⟨⟨[], .ok ()⟩, ⟨[], .ok ()⟩⟩ (fun job hs => absurd hs (undrawn job))
    (by simp [Job.Discreet])
  simp only [promised, List.map_nil, List.sum_nil, Nat.mul_zero, Nat.add_zero] at kept
  omega

end Submissions

variable (w : World (Report ν τ ρ ε))

/-- What was delivered to callbacks, in order. -/
def delivered : List (τ × Outcome ρ ε) := w.occurrences.filterMap Occurrence.delivery?

/-- All of these requests were submitted, each with a callback, and nothing besides; all were
accepted, and the pool is at rest. -/
structure Completed (handler : Handler (Report ν τ ρ ε) τ ρ ε) (requests : List τ) : Prop where
  submitted : ∃ calls : List (τ × Callback (Report ν τ ρ ε) τ ρ ε),
    (calls.map Prod.fst).Perm requests ∧ (∀ c ∈ calls, Callback.Discreet c.2) ∧
      w.submissions.map Prod.snd =
        calls.map fun c => requestJob handler c.1 (some (announced c.2))
  accepted : ∀ s ∈ w.submissions, ∃ e, w.AcceptedBy e s.1
  rest : w.AtRest

variable {w} {handler : Handler (Report ν τ ρ ε) τ ρ ε} {requests : List τ}

/-- The jobs of a pool that has completed its requests have reported what they had to. -/
theorem Completed.heard_eq {settings : Settings} {hook : Option Hook}
    (h : w.Completed handler requests) (hv : Evolved settings hook w) (calm : Calm hook)
    (hh : handler.Discreet) {sel : Report ν τ ρ ε → Bool}
    (hsel : ∀ n, sel n = true → n.isCall = true) {s : Nat × Job (Report ν τ ρ ε)}
    (hs : s ∈ w.submissions) :
    w.heard sel s.1 = (s.2.run.acts.map (Act.reports sel)).sum := by
  obtain ⟨calls, _, _, hjobs⟩ := h.submitted
  have hmem : s.2 ∈ w.submissions.map Prod.snd := List.mem_map_of_mem hs
  rw [hjobs, List.mem_map] at hmem
  obtain ⟨c, _, hjob⟩ := hmem
  have discreet : s.2.Discreet sel := by
    rw [← hjob]
    exact discreet_requestJob hsel hh c.1 _ _
  obtain ⟨e, ha⟩ := h.accepted s hs
  exact h.rest.heard_eq hv calm discreet (mem_submissions.1 hs) ha

/-- The report of a delivery of `v`. -/
def isDelivery [DecidableEq (τ × Outcome ρ ε)] (v : τ × Outcome ρ ε) (n : Report ν τ ρ ε) : Bool :=
  n.call? = some v

section Deliveries

variable [DecidableEq (τ × Outcome ρ ε)] (v : τ × Outcome ρ ε)

/-- Every delivery was reported in the name of one of the jobs. -/
theorem count_deliveries {os : List (Occurrence (Report ν τ ρ ε))} {n : Nat}
    (h : ∀ k, n ≤ k → os.countP (Occurrence.isReport (isDelivery v) k) = 0) :
    (os.filterMap Occurrence.delivery?).count v =
      ((List.range n).map fun k => os.countP (Occurrence.isReport (isDelivery v) k)).sum := by
  rw [← countP_isSpoken h, List.count, List.countP_filterMap]
  refine List.countP_congr fun o _ => ?_
  rcases o with ⟨_ | _, n⟩ | _
  case note.some =>
    cases hn : n.call? <;> simp [Occurrence.delivery?, Occurrence.isSpoken, isDelivery, hn]
  all_goals simp [Occurrence.delivery?, Occurrence.isSpoken]

end Deliveries

/-- The images under a function that are `v` count one by one. -/
theorem count_map {α β : Type} [DecidableEq β] (f : α → β) (l : List α) (v : β) :
    (l.map f).count v = (l.map fun a => if f a = v then 1 else 0).sum := by
  induction l with
  | nil => rfl
  | cons a l ih => simp [List.count_cons, ih, Nat.add_comm]

/-- A pool that has completed its requests has delivered each of them with the outcome of its
handler. -/
theorem Completed.perm_delivered {settings : Settings} {hook : Option Hook} {dup : τ → τ}
    (h : w.Completed handler requests) (hr : Reachable settings hook w) (calm : Calm hook)
    (hh : handler.Discreet) (hc : ∀ r ∈ requests, handler.copy r = .ok (dup r)) :
    w.delivered.Perm (requests.map fun r => (r, handler.outcome (dup r))) := by
  have : DecidableEq (τ × Outcome ρ ε) := Classical.decEq _
  obtain ⟨calls, hperm, hdiscreet, hjobs⟩ := h.submitted
  apply List.perm_iff_count.2
  intro v
  have hsel : ∀ n : Report ν τ ρ ε, isDelivery v n = true → n.isCall = true := by
    intro n hn
    cases n with
    | called => rfl
    | other => simp [isDelivery, Report.call?] at hn
  have copies : ∀ c ∈ calls, handler.copy c.1 = .ok (dup c.1) := fun c hc' =>
    hc c.1 (hperm.mem_iff.1 (List.mem_map_of_mem hc'))
  have called : ∀ c ∈ calls, ((requestJob handler c.1 (some (announced c.2))).run.acts.map
      (Act.reports (isDelivery v))).sum =
        if (c.1, handler.outcome (dup c.1)) = v then 1 else 0 := by
    intro c hcall
    rw [reports_run_requestJob hsel hh (hdiscreet c hcall), copies c hcall]
    exact if_congr (by simp [isDelivery, Report.call?, Handler.outcome]) rfl rfl
  calc w.delivered.count v
      = ((List.range w.nextTicket).map (w.heard (isDelivery v))).sum :=
        count_deliveries v fun k hk => heard_of_not_drawn _ hr.evolved hk
    _ = (w.submissions.map fun s => w.heard (isDelivery v) s.1).sum := by
        rw [← (hr.evolved.ledger.perm_submissions.map _).sum_eq, List.map_map]
        rfl
    _ = (w.submissions.map fun s => (s.2.run.acts.map (Act.reports (isDelivery v))).sum).sum := by
        rw [List.map_congr_left fun s hs => h.heard_eq hr.evolved calm hh hsel hs]
    _ = (calls.map fun c => if (c.1, handler.outcome (dup c.1)) = v then 1 else 0).sum := by
        have jobs := congrArg
          (List.map fun job => (job.run.acts.map (Act.reports (isDelivery v))).sum) hjobs
        rw [List.map_map, List.map_map] at jobs
        rw [← List.map_congr_left called]
        exact congrArg List.sum jobs
    _ = (calls.map fun c => (c.1, handler.outcome (dup c.1))).count v := (count_map _ calls v).symm
    _ = ((calls.map Prod.fst).map fun r => (r, handler.outcome (dup r))).count v := by
        rw [List.map_map]
        rfl
    _ = (requests.map fun r => (r, handler.outcome (dup r))).count v :=
        (hperm.map _).count_eq v

/-- Sizing and scheduling do not show in what is delivered. Two pools that have completed the same
requests have delivered the same but for the order, whatever their settings, their hooks that never
panic, and the order of their moves: each request with the outcome of the handler on its copy. -/
theorem perm_delivered_of_completed {settings₁ settings₂ : Settings} {hook₁ hook₂ : Option Hook}
    {w₁ w₂ : World (Report ν τ ρ ε)} {dup : τ → τ}
    (hr₁ : Reachable settings₁ hook₁ w₁) (hr₂ : Reachable settings₂ hook₂ w₂) (calm₁ : Calm hook₁)
    (calm₂ : Calm hook₂) (hh : handler.Discreet)
    (hc : ∀ r ∈ requests, handler.copy r = .ok (dup r)) (h₁ : w₁.Completed handler requests)
    (h₂ : w₂.Completed handler requests) :
    w₁.delivered.Perm w₂.delivered ∧
      w₁.delivered.Perm (requests.map fun r => (r, handler.outcome (dup r))) := by
  have first := h₁.perm_delivered hr₁ calm₁ hh hc
  have second := h₂.perm_delivered hr₂ calm₂ hh hc
  exact ⟨first.trans second.symm, first⟩

/-- A handler with a result for 0, an error for 1, and a panic for everything else. -/
def grading : Handler (Report Unit Nat Nat Nat) Nat Nat Nat where
  copy request := .ok request
  handle
    | 0 => ⟨[], .ok (.ok 0)⟩
    | 1 => ⟨[], .ok (.error 1)⟩
    | _ => ⟨[], .error (.text "boom")⟩
  describe := .nat

/-- A callback that does nothing. -/
def quiet : Callback (Report Unit Nat Nat Nat) Nat Nat Nat := fun _ _ => ⟨[], .ok ()⟩

/-- A pool after these steps to which a client submits the requests 0, 1 and 2. -/
def graded (settings : Settings) (order : List TaskId) : World (Report Unit Nat Nat Nat) :=
  order.foldl step (({ settings : World (Report Unit Nat Nat Nat) }.launch).spawn
    (.client { body := ⟨[0, 1, 2].map fun request => .ofJob
      (requestJob grading request (some (announced quiet))) (.other ()) (.other ()) (.other ()),
        .ok ()⟩ }))

theorem reachable_graded {settings : Settings} (h : settings.Valid) (order : List TaskId) :
    Reachable settings none (graded settings order) := (Reachable.launch none h).call _ order

/-- The requests are completed by a temporary worker that begins with the last one. -/
def hired : World (Report Unit Nat Nat Nat) := graded narrow [1, 1, 1, 2, 2, 2, 2, 2, 2, 0, 0, 0, 0]

/-- The requests are completed in their order, the last one by way of the dispatcher. -/
def buffered : World (Report Unit Nat Nat Nat) :=
  graded { narrow with maxTemps := some 0 } [2, 2, 2, 0, 0, 0, 0, 0, 0, 0, 1, 1, 1, 1, 0, 0, 0]

theorem completed_hired : hired.Completed grading [0, 1, 2] := by
  refine ⟨⟨[(0, quiet), (1, quiet), (2, quiet)], by simp, ?_, rfl⟩, ?_, .of_lt ?_, ?_, ?_⟩
  · simp [Callback.Discreet, quiet]
  · exact fun s hs => ⟨0, (by decide : ∀ s ∈ hired.submissions, hired.AcceptedBy 0 s.1) s hs⟩
  all_goals decide

set_option maxRecDepth 1000 in
theorem completed_buffered : buffered.Completed grading [0, 1, 2] := by
  refine ⟨⟨[(0, quiet), (1, quiet), (2, quiet)], by simp, ?_, rfl⟩, ?_, .of_lt ?_, ?_, ?_⟩
  · simp [Callback.Discreet, quiet]
  · exact fun s hs => ⟨0, (by decide : ∀ s ∈ buffered.submissions, buffered.AcceptedBy 0 s.1) s hs⟩
  all_goals decide

/-- Both pools have delivered the result, the error and the message of the panic. -/
theorem perm_delivered_of_completed_graded :
    Reachable narrow none hired ∧ Reachable { narrow with maxTemps := some 0 } none buffered ∧
      hired.delivered.Perm buffered.delivered ∧ hired.delivered.Perm
        [(0, .ok 0), (1, .error (.failed 1)), (2, .error (.panicked "boom"))] := by
  have first : Reachable narrow none hired := reachable_graded narrow_valid _
  have second : Reachable { narrow with maxTemps := some 0 } none buffered :=
    reachable_graded ⟨by decide, by decide, by decide, by decide⟩ _
  have discreet : grading.Discreet := by
    intro request act hact
    rcases request with _ | _ | _ <;> cases hact
  have copies : ∀ request ∈ [0, 1, 2], grading.copy request = .ok (id request) := fun _ _ => rfl
  obtain ⟨same, outcomes⟩ := perm_delivered_of_completed first second (by simp [Calm])
    (by simp [Calm]) discreet copies completed_hired completed_buffered
  exact ⟨first, second, same, outcomes⟩

end World

end WorkerPool
