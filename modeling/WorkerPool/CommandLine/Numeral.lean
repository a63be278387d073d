/-!
# Reading whole numbers

A numeral is an optional sign and decimal digits. It is read from the left, so of two faults the
first counts: a character that is no digit, or a digit that takes the number out of its range. A
minus sign is read only where negative numbers are in the range.
-/

namespace WorkerPool.CommandLine

/-- What is wrong with a numeral. -/
inductive NumeralFault where
  | empty
  | invalidDigit
  | tooLarge
  | tooSmall
  deriving DecidableEq, Repr

/-- The fault in words. -/
def NumeralFault.text : NumeralFault → String
  | empty => "cannot parse integer from empty string"
  | invalidDigit => "invalid digit found in string"
  | tooLarge => "number too large to fit in target type"
  | tooSmall => "number too small to fit in target type"

/-- A range of whole numbers, ends included. -/
structure Range where
  least : Int
  greatest : Int
  deriving DecidableEq, Repr

/-- Natural numbers of 64 bits. -/
def Range.natural64 : Range := ⟨0, 18446744073709551615⟩

/-- Signed numbers of 64 bits. -/
def Range.signed64 : Range := ⟨-9223372036854775808, 9223372036854775807⟩

/-- The value of a decimal digit. -/
def digit? (c : Char) : Option Nat :=
  if '0' ≤ c ∧ c ≤ '9' then some (c.toNat - '0'.toNat) else none

/-- Reads digits onto a magnitude that must not exceed `limit`. -/
def readDigits (limit : Nat) (beyond : NumeralFault) : Nat → List Char → Except NumeralFault Nat
  | n, [] => .ok n
  | n, c :: rest =>
    match digit? c with
    | none => .error .invalidDigit
    | some d =>
      if limit < n * 10 + d then .error beyond
      else readDigits limit beyond (n * 10 + d) rest

/-- Reads a numeral of a range. -/
def Range.read (r : Range) (s : String) : Except NumeralFault Int :=
  match s.toList with
  | [] => .error .empty
  | ['+'] => .error .invalidDigit
  | ['-'] => .error .invalidDigit
  | '+' :: rest => (readDigits r.greatest.toNat .tooLarge 0 rest).map Int.ofNat
  | '-' :: rest =>
    if r.least < 0 then (readDigits (-r.least).toNat .tooSmall 0 rest).map fun n => -(n : Int)
    else .error .invalidDigit
  | digits => (readDigits r.greatest.toNat .tooLarge 0 digits).map Int.ofNat

/-- What is read off digits stays within the limit. -/
theorem readDigits_le {limit n m : Nat} {beyond : NumeralFault} {cs : List Char}
    (hn : n ≤ limit) (h : readDigits limit beyond n cs = .ok m) : m ≤ limit := by
  induction cs generalizing n with
  | nil =>
    simp only [readDigits, Except.ok.injEq] at h
    omega
  | cons c rest ih =>
    simp only [readDigits] at h
    split at h
    · cases h
    · split at h
      · cases h
      · exact ih (by omega) h

end WorkerPool.CommandLine
