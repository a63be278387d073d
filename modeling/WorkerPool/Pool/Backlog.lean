/-!
# The backlog of the dispatcher

Buffered jobs stand in a row, the longest waiting in front. Taking the front moves the job at the
back into its place, so nothing else has to move; putting a job back in front undoes that exactly.
-/

namespace WorkerPool.Backlog

variable {α : Type}

/-- The row without its front: the last of the others takes the front place. -/
def closeGap (rest : List α) : List α :=
  match rest.getLast? with
  | none => []
  | some last => last :: rest.dropLast

/-- The front of a row and the row without it. -/
def takeFront? : List α → Option (α × List α)
  | [] => none
  | x :: rest => some (x, closeGap rest)

/-- The row with `x` in front and what stood there moved to the back. -/
def putFront (x : α) : List α → List α
  | [] => [x]
  | y :: rest => x :: rest ++ [y]

/-- Closing the gap loses nothing. -/
@[simp] theorem length_closeGap (rest : List α) : (closeGap rest).length = rest.length := by
  unfold closeGap
  split
  · rename_i h
    simp [List.getLast?_eq_none_iff.1 h]
  · rename_i h
    have hne : rest ≠ [] := by
      rintro rfl
      simp at h
    simp only [List.length_cons, List.length_dropLast]
    have := List.length_pos_iff.2 hne
    omega

/-- Putting the front back restores the row it was taken from. -/
@[simp] theorem putFront_closeGap (x : α) (rest : List α) :
    putFront x (closeGap rest) = x :: rest := by
  unfold closeGap
  split
  · rename_i h
    simp [putFront, List.getLast?_eq_none_iff.1 h]
  · rename_i last h
    obtain ⟨ys, rfl⟩ := List.getLast?_eq_some_iff.1 h
    simp [putFront]

/-- Taking the front and putting it back changes nothing. -/
theorem putFront_of_takeFront? {row rest : List α} {x : α} (h : takeFront? row = some (x, rest)) :
    putFront x rest = row := by
  cases row with
  | nil => simp [takeFront?] at h
  | cons y ys =>
    simp only [takeFront?, Option.some.injEq, Prod.mk.injEq] at h
    obtain ⟨rfl, rfl⟩ := h
    exact putFront_closeGap y ys

/-- Taking the front leaves one job fewer. -/
theorem length_of_takeFront? {row rest : List α} {x : α} (h : takeFront? row = some (x, rest)) :
    row.length = rest.length + 1 := by
  cases row with
  | nil => simp [takeFront?] at h
  | cons y ys =>
    simp only [takeFront?, Option.some.injEq, Prod.mk.injEq] at h
    obtain ⟨rfl, rfl⟩ := h
    simp

end WorkerPool.Backlog
