/-!
# Waiting for every answer

A tally counts answers. Whoever counts one compares the new count with the number awaited and gives
a signal if they are equal; whoever waits writes that number down, then looks at the count, and
parks while it is too small until a signal comes. Each of these is a step of its own, so that others
may count or wait between any two of them.
-/

namespace WorkerPool

/-- A count of answers, and how the one who waits for them is told. -/
structure Tally where
  /-- Answers counted. -/
  done : Nat := 0
  /-- Answers awaited; none until someone waits. -/
  expected : Nat := 0
  /-- A signal was given that nobody has taken. -/
  signalled : Bool := false
  deriving DecidableEq, Repr

namespace Tally

/-- Where the counting of one answer stands. -/
inductive Counting where
  /-- The answer is not counted yet. -/
  | pending
  /-- The answer was counted, as the last of so many. -/
  | counted (done : Nat)
  /-- As many answers were counted as are awaited. -/
  | complete
  | finished
  deriving DecidableEq, Repr

/-- Where the waiting for all answers stands. -/
inductive Waiting where
  /-- The number awaited is not written down yet. -/
  | pending
  /-- The count has to be looked at. -/
  | looking
  /-- The count was too small; a signal has to come first. -/
  | parked
  | finished
  deriving DecidableEq, Repr

/-- One step of counting an answer. -/
def Counting.step : Counting → Tally → Counting × Tally
  | pending, tally => (counted (tally.done + 1), { tally with done := tally.done + 1 })
  | counted done, tally => (if done = tally.expected then complete else finished, tally)
  | complete, tally => (finished, { tally with signalled := true })
  | finished, tally => (finished, tally)

/-- One step of waiting for `count` answers. -/
def Waiting.step (count : Nat) : Waiting → Tally → Waiting × Tally
  | pending, tally => (looking, { tally with expected := count })
  | looking, tally => (if count ≤ tally.done then finished else parked, tally)
  | parked, tally =>
    if tally.signalled then (looking, { tally with signalled := false }) else (parked, tally)
  | finished, tally => (finished, tally)

/-- Takes steps of waiting until it is finished, or parked without a signal. -/
def Waiting.go (count : Nat) (waiting : Waiting) (tally : Tally) : Waiting × Tally :=
  Nat.repeat (fun (waiting, tally) => waiting.step count tally) 4 (waiting, tally)

/-- After these steps no further one changes anything. -/
theorem Waiting.step_go (count : Nat) (waiting : Waiting) (tally : Tally) :
    (waiting.go count tally).1.step count (waiting.go count tally).2 = waiting.go count tally := by
  obtain ⟨done, expected, signalled⟩ := tally
  cases waiting <;> cases signalled <;> by_cases h : count ≤ done <;>
    simp [go, Nat.repeat, step, h]

/-- Counts an answer, every step at once. -/
def record (tally : Tally) : Tally :=
  (Nat.repeat (fun (counting, tally) => Counting.step counting tally) 3
    (Counting.pending, tally)).2

/-- An answer counted at once adds one, and signals if it is the last one awaited. -/
theorem record_eq (tally : Tally) :
    tally.record = { tally with
      done := tally.done + 1
      signalled := tally.signalled || tally.done + 1 == tally.expected } := by
  by_cases h : tally.done + 1 = tally.expected <;>
    simp [record, Nat.repeat, Counting.step, h]

/-- Answers being counted while someone waits for all of them. -/
structure Race where
  tally : Tally := {}
  countings : List Counting
  waiting : Waiting := .pending
  deriving DecidableEq, Repr

namespace Race

/-- The beginning of a race of `count` answers. -/
def start (count : Nat) : Race where
  countings := List.replicate count .pending

/-- The counting of answer `i` takes a step. -/
def stepCounting (r : Race) (i : Nat) : Race :=
  match r.countings[i]? with
  | none => r
  | some counting =>
    let (counting, tally) := counting.step r.tally
    { r with tally, countings := r.countings.set i counting }

/-- The waiting takes a step. -/
def stepWaiting (count : Nat) (r : Race) : Race :=
  let (waiting, tally) := r.waiting.step count r.tally
  { r with tally, waiting }

end Race

end Tally

end WorkerPool
