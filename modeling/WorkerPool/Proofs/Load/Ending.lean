import WorkerPool.Proofs.Load.Progress

/-!
# The end of a load run

The shutdown of a load run is answered in time, and nothing is left to happen then, or it is
answered with the timeout. In time, each task that the pool has accepted was answered once: with its
outcome if it was begun, and otherwise that it was dropped.
-/

namespace WorkerPool

open World

namespace LoadPlan

variable {p : LoadPlan} {w : World LoadNote} {s : LoadState} {peak m k : Nat} {i b : Bool}

/-- The pool of a load run that has come to its end in time: nothing is left to happen. -/
structure Over (p : LoadPlan) (w : World LoadNote) (interrupted : Bool) (m : Nat) (broken : Bool) :
    Prop where
  drove : p.Drove w interrupted m broken
  steered : p.Steered w
    (p.transcript m ++ p.remnant m broken ++ [.closed 0, .note none (.shutdown (.ok ()))]) none
    (m + broken.toNat) 1 none
  spent : w.Spent 0

section End

/-- Nothing is reported of a submission that is broken off. -/
theorem note_not_mem_remnant {author : Option Nat} {note : LoadNote} :
    .note author note ∉ p.remnant m b := by
  unfold remnant
  split_ifs <;> simp

/-- No task of a load is refused while its driver waits for the answer, and the shutdown is answered
as the driver stands. -/
theorem Stands.not_refused {n : Nat} {t : TaskId} (h : p.Stands w (.submitting n t)) :
    .note none (.refused n) ∉ w.occurrences := by
  intro hr
  have none_of {m : Nat} : ¬ .note none (.refused n) ∈ p.transcript m := fun hm => by
    obtain ⟨_, -, heq⟩ := p.note_mem_transcript m hm
    cases heq
  rw [← mem_outer rfl] at hr
  cases h with
  | asked _ h => exact none_of (h.outer ▸ hr)
  | told _ h => exact none_of (h.outer ▸ hr)
  | waits _ _ h =>
    rw [h.outer, List.mem_append, List.mem_singleton] at hr
    obtain hr | hr := hr
    · exact none_of hr
    · cases hr

/-- The shutdown of a load run is answered in time, with nothing left to happen, or with the timeout
of the plan. -/
theorem Stands.answered {t : TaskId} {answer : Except PoolError Unit}
    (h : p.Stands w (.closing i t)) (ha : .note none (.shutdown answer) ∈ w.occurrences) :
    answer = .error (.shutdownTimeout p.shutdownTimeout) ∨
      answer = .ok () ∧ ∃ m b, p.Over w i m b := by
  have none_of {m : Nat} {b : Bool} :
      .note none (.shutdown answer) ∉ p.transcript m ++ p.remnant m b := fun hm => by
    obtain hm | hm := List.mem_append.1 hm
    · obtain ⟨_, -, heq⟩ := p.note_mem_transcript m hm
      cases heq
    · exact note_not_mem_remnant hm
  rw [← mem_outer rfl] at ha
  cases h with
  | closes _ h => exact absurd (h.outer ▸ ha) none_of
  | winds h =>
    rw [h.steered.outer, List.mem_append, List.mem_singleton] at ha
    obtain ha | ha := ha
    · exact absurd ha none_of
    · cases ha
  | @ended _ b m _ given hd h hspent =>
    rw [h.outer] at ha
    obtain ha | ha := List.mem_append.1 ha
    · exact absurd ha none_of
    · obtain rfl : answer = given := by simpa using ha
      obtain ⟨rfl, spent⟩ | rfl := hspent
      · exact .inr ⟨rfl, m, b, hd, h, spent⟩
      · exact .inl rfl

/-- A load run ends with its summary, with nothing left to happen, or since its shutdown took too
long. -/
theorem Course.over_of_ends (h : p.Course s peak) {outcome : Except PoolError LoadSummary}
    (he : s.Ends outcome) : outcome = .error (.shutdownTimeout p.shutdownTimeout) ∨
      ∃ i m b, outcome = .ok (s.world.summary i) ∧ p.Over s.world i m b := by
  have stands := h.stands.1
  cases he with
  | refused hs hr =>
    rw [hs] at stands
    exact absurd hr stands.not_refused
  | @answered i t answer hs ha =>
    rw [hs] at stands
    obtain rfl | ⟨rfl, m, b, ended⟩ := stands.answered ha
    · exact .inl rfl
    · exact .inr ⟨i, m, b, rfl, ended⟩

end End

/-- What the pool replied to the task of ticket `k`: its outcome if it was begun, and otherwise that
it was dropped. -/
def reply (p : LoadPlan) (w : World LoadNote) (k : Nat) : Outcome Nat String :=
  if .started 0 k ∈ w.books then p.outcome (k + 1) else .error .dropped

section Over

variable (sel : LoadNote → Bool) (h : p.Over w i m b) (hw : Evolved p.pool (some fun _ _ => none) w)

include h hw

/-- The tasks that were accepted are those whose submission was not broken off. -/
theorem Over.acceptedBy_iff : w.AcceptedBy 0 k ↔ k < m := by
  constructor
  · intro ha
    by_contra hk
    refine hw.ledger.not_acceptedBy (.inr ?_) 0 ha
    obtain rfl | hlt := (Nat.not_lt.1 hk).eq_or_lt
    · cases b with
      | false => exact .inr (by simp [h.steered.tickets])
      | true =>
        refine .inl (mem_books (o := .refused m) ((mem_outer rfl).1 ?_) rfl)
        rw [h.steered.outer]
        simp [remnant]
    · refine .inr (h.steered.tickets ▸ ?_)
      cases b <;> simp <;> omega
  · intro hk
    refine h.steered.acceptedBy hw (Nat.lt_add_right _ hk) fun hr => ?_
    have unrefused : .refused k ∉ p.transcript m := by simp [transcript]
    cases b <;> simp [remnant, unrefused] at hr
    omega

/-- Each task that was accepted has reported its reply, and nothing else. -/
theorem Over.heard_eq (hk : k < m) :
    w.heard sel k = (sel (.answered (k + 1) (p.reply w k))).toNat := by
  have ha := (h.acceptedBy_iff hw).2 hk
  have jobs : ∀ job, .submitted k job ∈ w.occurrences → job = p.job (k + 1) := fun job hjob => by
    refine h.steered.jobs k job ?_
    rw [← h.steered.outer]
    exact (mem_outer rfl).2 hjob
  have balance := heard_add_unheard sel hw jobs ha
  rw [unheard_of_deserted sel hw.ledger hw.drained ha h.spent.deserted h.spent.drained,
    Nat.add_zero] at balance
  have once := h.spent.started_add_abandoned hw calm_load ha
  rw [balance, reply]
  split_ifs with hs
  · have := List.count_pos_iff.2 hs
    obtain ⟨started, abandoned⟩ : w.books.count (.started 0 k) = 1 ∧
        w.books.count (.abandoned 0 k) = 0 := by omega
    simp [started, abandoned]
  · rw [List.count_eq_zero.2 hs] at once ⊢
    rw [Nat.zero_add] at once
    simp [once]

/-- No other task has reported anything. -/
theorem Over.heard_of_le (hk : m ≤ k) : w.heard sel k = 0 := by
  have hne : ¬ w.AcceptedBy 0 k := fun ha => absurd ((h.acceptedBy_iff hw).1 ha) (Nat.not_lt.2 hk)
  refine hw.heard_of_not_accepted sel fun e ha => ?_
  have he := hw.lt_of_acceptedBy ha
  rw [h.steered.size, Nat.lt_one_iff] at he
  exact hne (he ▸ ha)

/-- The reports of a load run are those of its driver and the replies to its tasks. -/
theorem Over.countP_isNote : w.occurrences.countP (Occurrence.isNote sel) =
    w.outer.countP (Occurrence.isNote sel) +
      ∑ k ∈ Finset.range m, (sel (.answered (k + 1) (p.reply w k))).toNat := by
  rw [World.countP_isNote, ← World.outer, countP_isSpoken fun k hk => h.heard_of_le sel hw hk]
  exact congrArg _ (Finset.sum_congr rfl fun k hk => h.heard_eq sel hw (Finset.mem_range.1 hk))

end Over

end LoadPlan

end WorkerPool
