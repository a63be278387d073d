import Mathlib.Algebra.Group.Nat.Defs
import Mathlib.Tactic.SplitIfs
import WorkerPool.Load.Plan

/-!
# The numbers that are read

Whatever the arguments and the environment are, each number that is read of them is in the range of
its option. So the times of a plan are those of 64 bits.
-/

namespace WorkerPool

open CommandLine

namespace CommandLine

/-- The number is in the range. -/
def Range.Holds (r : Range) (n : Int) : Prop := r.least ≤ n ∧ n ≤ r.greatest

/-- Every number that is given is in the range of its option. -/
def Given.Fits (given : Given) : Prop :=
  ∀ (o : OptionName) (n : Int), (o, .number n) ∈ given →
    ∃ range, o.range? = some range ∧ range.Holds n

variable {o : OptionName} {text : String} {s s' : Scan} {n : Int}

/-- A step is taken only after the one before has succeeded. -/
theorem exists_of_bind {ε α β : Type} {x : Except ε α} {f : α → Except ε β} {b : β}
    (h : x >>= f = .ok b) : ∃ a, x = .ok a ∧ f a = .ok b := by
  cases x with
  | error e => cases h
  | ok a => exact ⟨a, rfl, h⟩

/-- A function is applied to what was made only if it was made. -/
theorem exists_of_map {ε α β : Type} {x : Except ε α} {f : α → β} {b : β} (h : x.map f = .ok b) :
    ∃ a, x = .ok a ∧ b = f a := by
  cases x with
  | error e => cases h
  | ok a =>
    cases h
    exact ⟨a, rfl, rfl⟩

/-- A number that is read is in the range. -/
theorem Range.holds_of_read {r : Range} (hr : r.Holds 0) (h : r.read text = .ok n) : r.Holds n := by
  obtain ⟨hleast, hgreatest⟩ := hr
  have positive {m : Nat} {cs : List Char}
      (hm : readDigits r.greatest.toNat .tooLarge 0 cs = .ok m) : r.Holds m := by
    have hle := readDigits_le (Nat.zero_le _) hm
    constructor <;> omega
  unfold Range.read at h
  split at h
  · cases h
  · cases h
  · cases h
  · obtain ⟨m, hm, rfl⟩ := exists_of_map h
    exact positive hm
  · split at h
    · obtain ⟨_, hcast, rfl⟩ := exists_of_map h
      obtain ⟨m, hm, hpure⟩ := exists_of_bind hcast
      cases hpure
      have hle := readDigits_le (Nat.zero_le _) hm
      constructor <;> omega
    · cases h
  · obtain ⟨m, hm, rfl⟩ := exists_of_map h
    exact positive hm

/-- So is a number that is read for an option. -/
theorem OptionName.holds_of_readValue (h : o.readValue text = .ok (.number n)) :
    ∃ range, o.range? = some range ∧ range.Holds n := by
  unfold readValue at h
  split at h
  · rename_i range hrange
    have zero : range.Holds 0 := by
      cases o <;> simp only [range?, Option.some.injEq, reduceCtorEq] at hrange <;> subst hrange <;>
        constructor <;> decide
    split at h
    · rename_i m hm
      cases h
      exact ⟨range, hrange, Range.holds_of_read zero hm⟩
    · cases h
  · split_ifs at h <;> cases h

/-- An option that is given with a value that was read fits. -/
theorem Given.Fits.append {given : Given} (h : given.Fits) {value : OptionValue}
    (hv : o.readValue text = .ok value) : (given ++ [(o, value)]).Fits := by
  intro o' n hm
  obtain hm | hm := List.mem_append.1 hm
  · exact h o' n hm
  · cases List.mem_singleton.1 hm
    exact OptionName.holds_of_readValue hv

namespace Scan

theorem fits_give (hs : s.given.Fits) (h : s.give o text = .ok s') : s'.given.Fits := by
  unfold give at h
  split_ifs at h
  obtain ⟨value, hv, h⟩ := exists_of_bind h
  cases h
  exact hs.append hv

theorem fits_resolve (hs : s.given.Fits) (h : s.resolve = .ok s') : s'.given.Fits := by
  unfold resolve at h
  split at h
  · cases h
    exact hs
  · cases h
  · exact fits_give hs h

theorem fits_readLong {word : String} {attached : Option String} (hs : s.given.Fits)
    (h : s.readLong word attached = .ok s') : s'.given.Fits := by
  unfold readLong at h
  split at h
  · cases h
  · obtain ⟨u, hu, h⟩ := exists_of_bind h
    exact fits_give (fits_resolve hs hu) h
  · obtain ⟨u, hu, h⟩ := exists_of_bind h
    exact fits_give (fits_resolve hs hu) h
  · obtain ⟨u, hu, h⟩ := exists_of_bind h
    cases h
    exact (fits_resolve hs hu :)
  · split at h
    · split at h
      · cases h
      · obtain ⟨_, -, h⟩ := exists_of_bind h
        cases h
    · cases h

theorem fits_readPlain (hs : s.given.Fits) (h : s.readPlain text = .ok s') : s'.given.Fits := by
  unfold readPlain at h
  split at h <;> cases h
  exact hs

theorem fits_readShort {rest : List Char} (hs : s.given.Fits)
    (h : s.readShort text rest = .ok s') : s'.given.Fits := by
  unfold readShort at h
  split_ifs at h
  · exact fits_readPlain hs h
  · split at h
    · obtain ⟨_, -, h⟩ := exists_of_bind h
      cases h
    · obtain ⟨_, -, h⟩ := exists_of_bind h
      cases h
    · cases h
    · exact fits_readPlain hs h

/-- Reading arguments keeps to the ranges. -/
theorem fits_readAll {arguments : List String} (hs : s.given.Fits)
    (h : s.readAll arguments = .ok s') : s'.given.Fits := by
  induction arguments generalizing s with
  | nil =>
    cases h
    exact hs
  | cons argument rest ih =>
    unfold readAll at h
    split at h
    · split at h <;> cases h
      exact hs
    · obtain ⟨u, hu, h⟩ := exists_of_bind h
      exact ih (fits_readLong hs hu) h
    · obtain ⟨u, hu, h⟩ := exists_of_bind h
      exact ih (fits_readShort hs hu) h
    · obtain ⟨u, hu, h⟩ := exists_of_bind h
      exact ih (fits_readPlain hs hu) h

end Scan

/-- Reading the environment keeps to the ranges. -/
theorem fits_readEnvironment {environment : String → Option String} {os : List OptionName}
    {given given' : Given} (hg : given.Fits)
    (h : readEnvironment environment given os = .ok given') : given'.Fits := by
  induction os generalizing given with
  | nil =>
    cases h
    exact hg
  | cons o os ih =>
    unfold readEnvironment at h
    split at h
    · exact ih hg h
    · split at h
      · exact ih hg h
      · obtain ⟨value, hv, h⟩ := exists_of_bind h
        exact ih (hg.append hv) h

/-- Whatever the arguments and the environment are, the numbers that are read are in range. -/
theorem fits_readOptions {arguments : List String} {environment : String → Option String}
    {given : Given} (h : readOptions arguments environment = .ok given) : given.Fits := by
  obtain ⟨scan, hscan, h⟩ := exists_of_bind h
  obtain ⟨read, hread, hscan⟩ := exists_of_bind hscan
  have empty : ({} : Scan).given.Fits := fun o n hm => by cases hm
  exact fits_readEnvironment (Scan.fits_resolve (Scan.fits_readAll empty hread) hscan) h

/-- A number that is given for an option fits it. -/
theorem Given.Fits.number? {given : Given} (h : given.Fits) (hn : given.number? o = some n) :
    ∃ range, o.range? = some range ∧ range.Holds n := by
  unfold Given.number? at hn
  split at hn
  · rename_i m hm
    obtain rfl := Option.some.inj hn
    obtain ⟨before, after, rfl, -⟩ := List.lookup_eq_some_iff.1 hm
    exact h o m (by simp)
  · cases hn

end CommandLine

namespace LoadPlan

variable {given : Given} {o : OptionName}

/-- A natural number that is given has 64 bits if its default has. -/
theorem natural_lt (h : given.Fits) (ho : o.range? = some .natural64) {default : Nat}
    (hd : default < 2 ^ 64) : natural given o default < 2 ^ 64 := by
  unfold natural
  split
  · rename_i n hn
    obtain ⟨range, hrange, -, hle⟩ := h.number? hn
    rw [ho, Option.some.injEq] at hrange
    subst hrange
    change n ≤ 18446744073709551615 at hle
    omega
  · exact hd

/-- The idle time of a plan is one of 64 bits of milliseconds. -/
theorem idleTimeout_of_ofOptions {processors : Nat} {p : LoadPlan} (hf : given.Fits)
    (h : ofOptions processors given = .ok p) :
    ∃ millis < 2 ^ 64, p.pool.idleTimeout = .ofMillis millis := by
  simp only [ofOptions] at h
  split at h
  · cases h
  · split at h
    · cases h
    · cases h
      exact ⟨natural given .idleTimeoutMs 60000, natural_lt hf rfl (by decide), rfl⟩

/-- A plan that is read is made of options that fit. -/
theorem ofOptions_of_read {processors : Nat} {arguments : List String}
    {environment : String → Option String} {p : LoadPlan}
    (h : read processors arguments environment = .ok p) :
    ∃ given : Given, given.Fits ∧ ofOptions processors given = .ok p := by
  unfold read at h
  cases hg : readOptions arguments environment with
  | error e =>
    rw [hg] at h
    cases h
  | ok given =>
    refine ⟨given, fits_readOptions hg, ?_⟩
    rw [hg] at h
    cases hp : ofOptions processors given with
    | error e =>
      simp only [hp] at h
      cases h
    | ok plan =>
      simp only [hp] at h
      cases h
      rfl

end LoadPlan

end WorkerPool
