/-!
# Gates

A gate holds passes. Code that comes to a gate takes one pass, and waits while there is none; passes
may be left at a gate before anyone comes.
-/

namespace WorkerPool

/-- The passes left at each gate; a gate not listed has none. -/
structure Gates where
  passes : List (Int × Nat) := []
  deriving DecidableEq, Repr, Inhabited

namespace Gates

/-- The passes left at a gate. -/
def count (g : Gates) (gate : Int) : Nat := (g.passes.lookup gate).getD 0

/-- The gates with a new count of passes at one of them. -/
def set (g : Gates) (gate : Int) (n : Nat) : Gates :=
  ⟨(gate, n) :: g.passes.filter (·.1 != gate)⟩

/-- Leaves passes at a gate. -/
def add (g : Gates) (gate : Int) (n : Nat) : Gates := g.set gate (g.count gate + n)

/-- Takes one pass of a gate, if there is one. -/
def take (g : Gates) (gate : Int) : Gates := g.set gate (g.count gate - 1)

@[simp] theorem count_set_self (g : Gates) (gate : Int) (n : Nat) :
    (g.set gate n).count gate = n := by
  simp [count, set]

/-- Leaving out the entries of one gate hides no other. -/
theorem lookup_filter_ne {gate other : Int} (h : other ≠ gate) (l : List (Int × Nat)) :
    (l.filter (·.1 != gate)).lookup other = l.lookup other := by
  induction l with
  | nil => rfl
  | cons p rest ih =>
    by_cases hp : p.1 = gate
    · rw [List.filter_cons_of_neg (by simp [hp]), List.lookup_cons, ih,
        beq_false_of_ne (by rw [hp]; exact h)]
    · rw [List.filter_cons_of_pos (by simp [hp]), List.lookup_cons, List.lookup_cons, ih]

/-- Passes of another gate stay as they are. -/
theorem count_set_of_ne (g : Gates) {gate other : Int} (n : Nat) (h : other ≠ gate) :
    (g.set gate n).count other = g.count other := by
  simp [count, set, List.lookup_cons, beq_false_of_ne h, lookup_filter_ne h]

end Gates

end WorkerPool
