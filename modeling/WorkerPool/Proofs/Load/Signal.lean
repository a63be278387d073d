import WorkerPool.Proofs.Load.Course

/-!
# The signal is not missed

Answers are counted while someone waits for all of them, step by step and in any order. Only one
signal is given, by whoever finds to have counted the last answer that is awaited, and the number
awaited may be written down before that or after. Written down later, it is too late for the signal,
but then the count that is looked at next is the full one; written down before, the signal is given,
or somebody is still about to give it.
-/

namespace WorkerPool

namespace Tally

/-- Whoever counts here has not yet compared the last of `count` answers, or not yet given the
signal for it. -/
def Counting.Owes (count : Nat) (c : Counting) : Prop := c = .counted count ∨ c = .complete

namespace Race

/-- Steps of counting `count` answers and of waiting for them lead to this race, in any order. -/
inductive Comes (count : Nat) : Race → Prop
  | start : Comes count (.start count)
  | counts {r : Race} (h : Comes count r) (i : Nat) : Comes count (r.stepCounting i)
  | waits {r : Race} (h : Comes count r) : Comes count (r.stepWaiting count)

/-- Whoever waits in this race is told: if it is parked and there is no signal, then an answer is
still missing or the signal is still to come. -/
structure Told (r : Race) (count : Nat) : Prop where
  length : r.countings.length = count
  expected : r.waiting ≠ .pending → r.tally.expected = count
  signal : r.waiting = .parked → r.tally.signalled = false →
    r.tally.done < count ∨ ∃ c ∈ r.countings, c.Owes count

variable {r : Race} {count : Nat}

/-- What is set anew in a list takes the place of one member of it. -/
theorem mem_set_or {c : Counting} {l : List Counting} (h : c ∈ l) (i : Nat) (new : Counting) :
    c ∈ l.set i new ∨ l[i]? = some c := by
  obtain ⟨j, hj⟩ := List.mem_iff_getElem?.1 h
  by_cases hij : i = j
  · subst hij
    exact .inr hj
  · exact .inl (List.mem_iff_getElem?.2 ⟨j, by rw [List.getElem?_set_ne hij, hj]⟩)

/-- The step of one counting. -/
theorem stepCounting_eq {i : Nat} {c : Counting} (hc : r.countings[i]? = some c) :
    r.stepCounting i = { r with
      tally := (c.step r.tally).2
      countings := r.countings.set i (c.step r.tally).1 } := by
  simp [stepCounting, hc]

/-- No answer is counted that is not one of the race. -/
theorem Honest.done_lt {answers i : Nat} (h : r.Honest count answers)
    (hc : r.countings[i]? = some .pending) : r.tally.done < r.countings.length := by
  rw [h.done]
  refine lt_of_le_of_ne List.countP_le_length fun hall => ?_
  have counted := List.countP_eq_length.1 hall _ (List.mem_of_getElem? hc)
  simp at counted

theorem Told.start (count : Nat) : (Race.start count).Told count where
  length := List.length_replicate ..
  expected h := absurd rfl h
  signal h := by cases h

/-- Whoever counts gives the signal, or leaves it to another who owes it. -/
theorem Told.stepCounting (h : r.Told count) (honest : r.Honest count count) (i : Nat) :
    (r.stepCounting i).Told count := by
  cases hc : r.countings[i]? with
  | none => simpa [Race.stepCounting, hc] using h
  | some c =>
    rw [stepCounting_eq hc]
    have hlt : i < r.countings.length := (List.getElem?_eq_some_iff.1 hc).1
    refine ⟨by rw [List.length_set, h.length], fun hw => ?_, fun hw hs => ?_⟩
    · rw [← h.expected hw]
      cases c <;> rfl
    · have parked : r.waiting = .parked := hw
      have expected := h.expected (by simp [parked])
      have others : ∀ new, (∃ d ∈ r.countings, d.Owes count) → ¬ c.Owes count →
          ∃ d ∈ r.countings.set i new, d.Owes count := by
        rintro new ⟨d, hd, howes⟩ hfree
        obtain hd | hi := mem_set_or hd i new
        · exact ⟨d, hd, howes⟩
        · obtain rfl := Option.some.inj (hc.symm.trans hi)
          exact absurd howes hfree
      cases c with
      | pending =>
        have hdone := honest.done_lt hc
        rw [h.length] at hdone
        rcases Nat.lt_or_ge (r.tally.done + 1) count with hmore | hlast
        · exact .inl hmore
        · refine .inr ⟨.counted (r.tally.done + 1), List.mem_set hlt _, .inl ?_⟩
          rw [show r.tally.done + 1 = count by omega]
      | counted done =>
        by_cases hd : done = count
        · refine .inr ⟨.complete, ?_, .inr rfl⟩
          simp only [Counting.step, hd, expected, if_true]
          exact List.mem_set hlt _
        · exact (h.signal hw hs).imp_right fun howes => others _ howes (by simp [Counting.Owes, hd])
      | complete => cases hs
      | finished =>
        exact (h.signal hw hs).imp_right fun howes => others _ howes (by simp [Counting.Owes])

/-- Whoever waits parks only while an answer is missing. -/
theorem Told.stepWaiting (h : r.Told count) : (r.stepWaiting count).Told count := by
  obtain ⟨tally, countings, waiting⟩ := r
  obtain ⟨length, expected, signal⟩ := h
  cases waiting with
  | pending => exact ⟨length, fun _ => rfl, fun hw => by cases hw⟩
  | looking =>
    refine ⟨length, fun _ => expected (by simp), fun hw _ => .inl ?_⟩
    by_contra hdone
    simp only [Race.stepWaiting, Waiting.step] at hw hdone
    rw [if_pos (by omega)] at hw
    cases hw
  | parked =>
    by_cases hs : tally.signalled = true
    · refine ⟨length, fun _ => ?_, fun hw => ?_⟩
      · simpa [Race.stepWaiting, Waiting.step, hs] using expected (by simp)
      · simp [Race.stepWaiting, Waiting.step, hs] at hw
    · have still : Race.stepWaiting count ⟨tally, countings, .parked⟩ =
          ⟨tally, countings, .parked⟩ := by simp [Race.stepWaiting, Waiting.step, hs]
      rw [still]
      exact ⟨length, expected, signal⟩
  | finished => exact ⟨length, expected, fun hw => by cases hw⟩

/-- In every race the count is right and whoever waits is told. -/
theorem Comes.honest_told (h : r.Comes count) : r.Honest count count ∧ r.Told count := by
  induction h with
  | start => exact ⟨(Honest.start count).mono (Nat.zero_le _), .start count⟩
  | @counts r _ i ih =>
    obtain ⟨honest, told⟩ := ih
    refine ⟨?_, told.stepCounting honest i⟩
    rcases Nat.lt_or_ge i count with hi | hi
    · exact honest.stepCounting hi
    · have none : r.countings[i]? = none := List.getElem?_eq_none (told.length ▸ hi)
      simpa [Race.stepCounting, none] using honest
  | waits _ ih => exact ⟨ih.1.stepWaiting, ih.2.stepWaiting⟩

/-- Once every counting is finished every answer is counted. -/
theorem Comes.done_of_finished (h : r.Comes count) (hf : ∀ c ∈ r.countings, c = .finished) :
    r.tally.done = count := by
  obtain ⟨honest, told⟩ := h.honest_told
  rw [honest.done, ← told.length, List.countP_eq_length]
  intro c hc
  simp [hf c hc]

/-- Waiting for all answers ends neither early nor never, in whatever order the steps are taken.
It has ended only if every one of the `count` answers is counted. Once all that count are finished
whoever waits is not parked without a signal, and its own next steps end the waiting. -/
theorem awaited_of_comes (h : r.Comes count) :
    (r.waiting = .finished → r.tally.done = count ∧ r.countings.length = count ∧
      ∀ c ∈ r.countings, c ≠ .pending) ∧
    ((∀ c ∈ r.countings, c = .finished) →
      ¬ (r.waiting = .parked ∧ r.tally.signalled = false) ∧
        (r.waiting.go count r.tally).1 = .finished) := by
  obtain ⟨honest, told⟩ := h.honest_told
  constructor
  · intro hw
    have hle : r.tally.done ≤ count := by
      rw [honest.done, ← told.length]
      exact List.countP_le_length
    have hdone : r.tally.done = count := Nat.le_antisymm hle (honest.waited hw)
    refine ⟨hdone, told.length, fun c hc => ?_⟩
    have counted : r.countings.countP (· ≠ .pending) = r.countings.length := by
      rw [← honest.done, hdone, told.length]
    simpa using List.countP_eq_length.1 counted c hc
  · intro hf
    have hdone := h.done_of_finished hf
    have hnone : ¬ (r.waiting = .parked ∧ r.tally.signalled = false) := by
      rintro ⟨hw, hs⟩
      obtain hless | ⟨c, hc, howes⟩ := told.signal hw hs
      · omega
      · rw [hf c hc] at howes
        simp [Counting.Owes] at howes
    refine ⟨hnone, ?_⟩
    obtain ⟨⟨done, expected, signalled⟩, countings, waiting⟩ := r
    obtain rfl : done = count := hdone
    cases waiting with
    | parked =>
      obtain rfl : signalled = true := by simpa using hnone
      simp [Waiting.go, Nat.repeat, Waiting.step]
    | _ => simp [Waiting.go, Nat.repeat, Waiting.step]

/-- A race of two answers. The first one is compared before the number awaited is written down, the
second one after whoever waits has parked. -/
def lastMoment : Race :=
  let begun := ((start 2).stepCounting 0).stepCounting 0
  let parked := (begun.stepWaiting 2).stepWaiting 2
  ((parked.stepCounting 1).stepCounting 1).stepCounting 1

/-- Whoever waits is parked while everything is counted, but the signal is there. -/
theorem awaited_of_comes_lastMoment : lastMoment.Comes 2 ∧ lastMoment.waiting = .parked ∧
    (∀ c ∈ lastMoment.countings, c = .finished) ∧ lastMoment.tally.signalled = true ∧
    (lastMoment.waiting.go 2 lastMoment.tally).1 = .finished := by
  have comes : lastMoment.Comes 2 :=
    ((((((Comes.start.counts 0).counts 0).waits).waits).counts 1).counts 1).counts 1
  have finished : ∀ c ∈ lastMoment.countings, c = .finished := by decide
  exact ⟨comes, by decide, finished, by decide, ((awaited_of_comes comes).2 finished).2⟩

end Race

end Tally

/-- The answers of a load run are counted, and waited for, in such a race. -/
theorem LoadPlan.Course.comes_race {p : LoadPlan} {s : LoadState} {peak : Nat}
    (h : p.Course s peak) : s.race.Comes p.tasks := by
  induction h with
  | opened => exact .start
  | move _ m ih =>
    cases m with
    | count i => exact ih.counts i
    | await => exact ih.waits
    | _ => exact ih

end WorkerPool
