/-!
# Durations

A duration is a whole number of nanoseconds. Its text uses the largest unit that gives a non-zero
whole part, with the fraction cut after its last non-zero digit. Timers count whole milliseconds, a
started one counting in full.
-/

namespace WorkerPool

/-- A span of time, exact to the nanosecond. -/
structure Duration where
  /-- Its length in nanoseconds. -/
  nanos : Nat
  deriving DecidableEq, Repr, Inhabited

namespace Duration

/-- No time at all. -/
def zero : Duration := ⟨0⟩

/-- Whole milliseconds. -/
def ofMillis (n : Nat) : Duration := ⟨n * 1000000⟩

/-- Whole seconds. -/
def ofSeconds (n : Nat) : Duration := ⟨n * 1000000000⟩

/-- Whole seconds and the nanoseconds beyond them. -/
def ofParts (seconds nanos : Nat) : Duration := ⟨seconds * 1000000000 + nanos⟩

/-- The duration is empty. -/
def isZero (d : Duration) : Bool := d.nanos == 0

/-- The duration in milliseconds, a started one counting in full. -/
def ceilMillis (d : Duration) : Nat := (d.nanos + 999999) / 1000000

/-- The units of the text, largest first: nanoseconds in one, digits after the point, name. -/
def units : List (Nat × Nat × String) :=
  [(1000000000, 9, "s"), (1000000, 6, "ms"), (1000, 3, "µs")]

/-- The digits of `n` after the point, `places` of them, without the zeros at the end. -/
def fractionDigits (places n : Nat) : List Char :=
  let digits := Nat.toDigits 10 n
  let padded := List.replicate (places - digits.length) '0' ++ digits
  (padded.reverse.dropWhile (· == '0')).reverse

/-- A count of nanoseconds in a unit of `scale` of them: whole part, fraction and unit. -/
def inUnit (scale places : Nat) (name : String) (nanos : Nat) : String :=
  let fraction := if nanos % scale = 0 then [] else '.' :: fractionDigits places (nanos % scale)
  Nat.repr (nanos / scale) ++ String.ofList fraction ++ name

/-- The text of a duration. -/
def text (d : Duration) : String :=
  match units.find? (·.1 ≤ d.nanos) with
  | some (scale, places, name) => inUnit scale places name d.nanos
  | none => Nat.repr d.nanos ++ "ns"

/-- Rounding up to milliseconds never shortens a duration. -/
theorem nanos_le_ceilMillis (d : Duration) : d.nanos ≤ d.ceilMillis * 1000000 := by
  unfold ceilMillis
  omega

/-- Only the empty duration rounds up to no millisecond. -/
theorem ceilMillis_eq_zero {d : Duration} : d.ceilMillis = 0 ↔ d.nanos = 0 := by
  unfold ceilMillis
  omega

/-- Whole milliseconds stay as they are. -/
@[simp] theorem ceilMillis_ofMillis (n : Nat) : (ofMillis n).ceilMillis = n := by
  simp only [ofMillis, ceilMillis]
  omega

end Duration

end WorkerPool
