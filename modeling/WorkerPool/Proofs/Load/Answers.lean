import WorkerPool.Proofs.Load.Driver
import WorkerPool.Proofs.Reentrancy

/-!
# The answers to the tasks of a load

A task that the pool of a load has accepted reports its outcome when it is run, and that it was
dropped when it is abandoned. While the pool runs, no task is abandoned; once it has ended, each
task was either run or abandoned, and has been answered once.
-/

namespace WorkerPool

open World

/-- A report is made that is one of these. -/
def Occurrence.isNote {ν : Type} (sel : ν → Bool) : Occurrence ν → Bool
  | note _ n => sel n
  | _ => false

/-- The report is an answer with such an outcome. -/
def LoadNote.answers (q : Outcome Nat String → Bool) : LoadNote → Bool
  | answered _ outcome => q outcome
  | _ => false

namespace World

variable {ν : Type} {w : World ν} {e : EpochId} {t : TaskId} {k : Nat} {settings : Settings}
  {hook : Option Hook}

/-- Nobody but a client of a docile pool waits in line. -/
theorem Docile.line?_eq_none (hd : w.Docile) (hw : Evolved settings hook w) {task : Task ν}
    (ht : w.tasks[t]? = some task) (hc : ∀ th, task ≠ .client th) : task.line? = none := by
  cases hth : task.thread? with
  | none => simp [Task.line?, hth]
  | some th =>
    rw [Task.line?, hth, Option.bind_some]
    obtain ⟨e, kind, source, k, rfl⟩ | ⟨_, _, rfl, rfl⟩ | rfl := Task.thread?_eq_some hth
    · obtain ⟨job, hs, hsuffix, -⟩ := (hw.papers.tasks t _ ht).body _ _ _ _ _ rfl
      have fits := ((hw.sound.tasks t _ ht).thread th rfl).fits
      cases hwait : th.wait with
      | inLine i j =>
        rw [Thread.Fits, hwait] at fits
        obtain ⟨_, _, _, _, _, hacts⟩ := fits
        have docile := (hd k job hs).run _ (hsuffix.subset (hacts ▸ List.mem_cons_self))
        cases docile
      | _ => rfl
    · rfl
    · exact absurd rfl (hc th)

/-- An epoch that is open has abandoned nothing. -/
theorem Evolved.abandoned_of_open (hw : Evolved settings hook w) (ho : (w.epoch e).closed = false) :
    w.books.count (.abandoned e k) = 0 := by
  apply List.count_eq_zero.2
  intro hm
  rw [hw.drained.abandoned _ _ (abandoned_mem_books.1 hm)] at ho
  cases ho

/-- Nothing is reported by a job that no epoch has accepted. -/
theorem Evolved.heard_of_not_accepted (sel : ν → Bool) (hw : Evolved settings hook w)
    (hk : ∀ e, ¬ w.AcceptedBy e k) : w.heard sel k = 0 := by
  rw [heard, List.countP_eq_zero]
  intro o ho
  have silent := (hw.nowhere hk).silent o ho
  rcases o with ⟨_ | author, note⟩ | _ <;> simp [Occurrence.isReport]
  rintro rfl
  exact absurd rfl silent

/-- A report is made by a client, or in the name of a job. -/
theorem countP_isNote (sel : ν → Bool) (os : List (Occurrence ν)) :
    os.countP (Occurrence.isNote sel) =
      (os.filter Occurrence.isOuter).countP (Occurrence.isNote sel) +
        os.countP (Occurrence.isSpoken sel) := by
  have split : ∀ o : Occurrence ν, (if o.isNote sel = true then 1 else 0) =
      (if (o.isNote sel && o.isOuter) = true then 1 else 0) +
        if o.isSpoken sel = true then 1 else 0 := by
    intro o
    rcases o with ⟨_ | _, n⟩ | _
    case note.none | note.some =>
      cases hn : sel n <;>
        simp [Occurrence.isNote, Occurrence.isOuter, Occurrence.isSpoken, hn]
    all_goals simp [Occurrence.isNote, Occurrence.isSpoken]
  rw [List.countP_filter]
  induction os with
  | nil => rfl
  | cons o os ih =>
    rw [List.countP_cons, List.countP_cons, List.countP_cons, ih, split o]
    omega

end World

namespace LoadPlan

variable {p : LoadPlan} {w : World LoadNote} {written : List (Occurrence LoadNote)}
  {current : Option EpochId} {drawn held k m : Nat} (sel : LoadNote → Bool)

/-- No task gets an answer from the pool. -/
theorem discreet_job (n : Nat) : (p.job n).Discreet sel := by
  intro act hact
  rw [acts_run_job] at hact
  split_ifs at hact <;> simp at hact
  · subst hact
    simp [Act.answers]
  · obtain rfl | rfl := hact <;> simp [Act.answers]

/-- The pool of a load is made for a hook that never panics. -/
theorem calm_load : Calm (some fun _ _ => none) := by
  intro f hf n call
  cases hf
  rfl

section Accepted

variable (h : p.Steered w written current drawn held none)
  (hw : Evolved p.pool (some fun _ _ => none) w)

include h hw

/-- A task that was submitted and not refused was accepted, if no call is under way. -/
theorem Steered.acceptedBy (hk : k < drawn) (hr : .refused k ∉ written) : w.AcceptedBy 0 k := by
  have waiters : w.waiters k = 0 := by
    apply w.total_eq_zero
    intro t task ht
    have hline : task.line? = none := by
      by_cases hc : ∃ th, task = .client th
      · obtain ⟨th, rfl⟩ := hc
        rw [h.idle t th ht (by simp)]
        rfl
      · exact h.docile.line?_eq_none hw ht fun th heq => hc ⟨th, heq⟩
    simp [hline]
  have refused : w.books.count (.refused k) = 0 := by
    apply List.count_eq_zero.2
    intro hm
    exact hr (h.outer ▸ (mem_outer rfl).2 (refused_mem_books.1 hm))
  have balance := hw.ledger.drawn k
  rw [waiters, refused, h.tickets, if_pos hk] at balance
  obtain ⟨b, hb, haccepts⟩ := List.countP_pos_iff.1 (by omega : 0 < w.books.countP (·.accepts k))
  cases b <;> simp only [Booking.accepts, Bool.false_eq_true, decide_eq_true_eq] at haccepts
  subst haccepts
  have hlt := hw.lt_of_acceptedBy hb
  rw [h.size, Nat.lt_one_iff] at hlt
  exact hlt ▸ hb

omit h in
/-- A task has reported or will report its outcome if it was begun, and that it was dropped if it
was abandoned. -/
theorem heard_add_unheard (hj : ∀ job, .submitted k job ∈ w.occurrences → job = p.job (k + 1))
    (ha : w.AcceptedBy 0 k) : w.heard sel k + w.unheard sel k =
      w.books.count (.started 0 k) * (sel (.answered (k + 1) (p.outcome (k + 1)))).toNat +
        w.books.count (.abandoned 0 k) * (sel (.answered (k + 1) (.error .dropped))).toNat := by
  have run : ((p.job (k + 1)).run.acts.map (Act.reports sel)).sum =
      (sel (.answered (k + 1) (p.outcome (k + 1)))).toNat := by
    rw [acts_run_job]
    cases hsel : sel (.answered (k + 1) (p.outcome (k + 1))) <;> split_ifs <;>
      simp [Act.reports, Deed.reports, hsel]
  have abandon : ((p.job (k + 1)).abandon.acts.map (Deed.reports sel)).sum =
      (sel (.answered (k + 1) (.error .dropped))).toNat := by
    rw [acts_abandon_job]
    cases hsel : sel (.answered (k + 1) (.error .dropped)) <;> simp [Deed.reports, hsel]
  rw [hw.kept sel k _ hj (discreet_job sel _), promised, hw.ledger.starts_eq ha,
    hw.ledger.abandons_eq ha, run, abandon]

end Accepted

section Count

variable (q : Outcome Nat String → Bool)

/-- Such answers have come as often as tasks have reported them. -/
theorem Steered.countP_answers {call : Option TaskId}
    (h : p.Steered w written current drawn held call) (hw : Evolved p.pool (some fun _ _ => none) w)
    (hm : ∀ author n outcome, .note author (.answered n outcome) ∉ written) :
    w.occurrences.countP (Occurrence.isNote (LoadNote.answers q)) =
      ∑ k ∈ Finset.range drawn, w.heard (LoadNote.answers q) k := by
  have mute : w.outer.countP (Occurrence.isNote (LoadNote.answers q)) = 0 := by
    rw [List.countP_eq_zero, h.outer]
    intro o ho
    rcases o with ⟨_, _ | _ | ⟨n, outcome⟩ | _⟩ | _ <;>
      simp [Occurrence.isNote, LoadNote.answers] at ho ⊢
    exact absurd ho (hm _ n outcome)
  rw [countP_isNote, ← World.outer, mute, Nat.zero_add,
    countP_isSpoken fun k hk => heard_of_not_drawn _ hw (h.tickets ▸ hk)]
  rfl

/-- What a driver writes that submits tasks is no answer to them. -/
theorem mute_transcript (author : Option Nat) (n : Nat) (outcome : Outcome Nat String) :
    .note author (.answered n outcome) ∉ p.transcript m := by
  intro hm
  obtain ⟨_, -, heq⟩ := p.note_mem_transcript m hm
  cases heq

/-- The answers that have come are those that the tasks have reported. -/
theorem Steered.answers_eq {call : Option TaskId} (h : p.Steered w written current drawn held call)
    (hw : Evolved p.pool (some fun _ _ => none) w)
    (hm : ∀ author n outcome, .note author (.answered n outcome) ∉ written) :
    w.answers = ∑ j ∈ Finset.range drawn, w.heard (LoadNote.answers fun _ => true) j := by
  rw [← h.countP_answers (fun _ => true) hw hm, answers]
  refine List.countP_congr fun o _ => ?_
  rcases o with ⟨_, _ | _ | _ | _⟩ | _ <;>
    simp [LoadRun.isAnswer, Occurrence.isNote, LoadNote.answers]

/-- A task reports nothing but its answer, and that once. -/
theorem Steered.heard_le {call : Option TaskId} (h : p.Steered w written current drawn held call)
    (hw : Evolved p.pool (some fun _ _ => none) w) {bound : Nat}
    (hb : ∀ n outcome, (sel (.answered n outcome)).toNat ≤ bound) (k : Nat) :
    w.heard sel k ≤ bound := by
  by_cases ha : w.AcceptedBy 0 k
  · have balance := heard_add_unheard sel hw (fun job hjob =>
      h.jobs k job (h.outer ▸ (mem_outer rfl).2 hjob)) ha
    have once : w.books.count (.started 0 k) + w.books.count (.abandoned 0 k) ≤ 1 := by
      have hle := hw.ledger.begun_le_accepted 0 k
      have hone := hw.ledger.count_accepted ha 0
      rw [if_pos rfl] at hone
      omega
    calc w.heard sel k ≤ w.heard sel k + w.unheard sel k := Nat.le_add_right _ _
      _ ≤ w.books.count (.started 0 k) * bound + w.books.count (.abandoned 0 k) * bound := by
        rw [balance]
        exact Nat.add_le_add (Nat.mul_le_mul_left _ (hb _ _)) (Nat.mul_le_mul_left _ (hb _ _))
      _ ≤ 1 * bound := by
        rw [← Nat.add_mul]
        exact Nat.mul_le_mul_right bound once
      _ = bound := Nat.one_mul bound
  · rw [hw.heard_of_not_accepted sel fun e he => ?_]
    · exact Nat.zero_le bound
    · have hlt := hw.lt_of_acceptedBy he
      rw [h.size, Nat.lt_one_iff] at hlt
      exact ha (hlt ▸ he)

/-- There are no more answers than tickets were drawn. -/
theorem Steered.answers_le {call : Option TaskId} (h : p.Steered w written current drawn held call)
    (hw : Evolved p.pool (some fun _ _ => none) w)
    (hm : ∀ author n outcome, .note author (.answered n outcome) ∉ written) :
    w.answers ≤ drawn := by
  calc w.answers = ∑ j ∈ Finset.range drawn, w.heard (LoadNote.answers fun _ => true) j :=
        h.answers_eq hw hm
    _ ≤ ∑ _j ∈ Finset.range drawn, 1 :=
        Finset.sum_le_sum fun j _ => h.heard_le _ hw (fun _ _ => Bool.toNat_le _) j
    _ = drawn := by rw [← Finset.card_eq_sum_ones, Finset.card_range]

/-- Once as many answers have come as tasks were submitted, each of them was run. -/
theorem Steered.started_of_answers (h : p.Steered w (p.transcript m) (some 0) m 1 none)
    (hw : Evolved p.pool (some fun _ _ => none) w) (ha : m ≤ w.answers) (hk : k < m) :
    .started 0 k ∈ w.books := by
  have refused : ∀ j, .refused j ∉ p.transcript m := fun j hj => by simp [transcript] at hj
  have hopen := hw.sound.current_open 0 h.current
  let sel := LoadNote.answers fun _ => true
  have counted : w.answers = ∑ j ∈ Finset.range m, w.heard sel j := h.answers_eq hw mute_transcript
  have heard : ∀ j < m, w.heard sel j ≤ w.books.count (.started 0 j) := by
    intro j hj
    have hacc := h.acceptedBy hw hj (refused j)
    have balance := heard_add_unheard sel hw (fun job hjob =>
      h.jobs j job (h.outer ▸ (mem_outer rfl).2 hjob)) hacc
    rw [hw.abandoned_of_open hopen] at balance
    have one : (sel (.answered (j + 1) (p.outcome (j + 1)))).toNat = 1 := rfl
    rw [one] at balance
    omega
  have once : ∀ j < m, w.books.count (.started 0 j) ≤ 1 := fun j hj => by
    have hle := hw.ledger.begun_le_accepted 0 j
    have hone := hw.ledger.count_accepted (h.acceptedBy hw hj (refused j)) 0
    rw [if_pos rfl] at hone
    omega
  by_contra hne
  have none := heard k hk
  rw [List.count_eq_zero.2 hne] at none
  have few : ∑ j ∈ Finset.range m, w.heard sel j < ∑ j ∈ Finset.range m, 1 := by
    refine Finset.sum_lt_sum (fun j hj => ?_) ⟨k, Finset.mem_range.2 hk, by omega⟩
    exact (heard j (Finset.mem_range.1 hj)).trans (once j (Finset.mem_range.1 hj))
  rw [← Finset.card_eq_sum_ones, Finset.card_range] at few
  omega

end Count

end LoadPlan

end WorkerPool
