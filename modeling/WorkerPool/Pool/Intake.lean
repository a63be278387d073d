import WorkerPool.Pool.Journal

/-!
# The intake of the dispatcher

A place for one job between submitters and the dispatcher. Submitters that find it taken stand in
line; each time the place is cleared it is granted to the first in line, who has it even before it
uses it. A submitter that gives up leaves the line, and passes on a place granted to it.
-/

namespace WorkerPool

/-- The place, who may use it next, and who waits. -/
structure Intake (α : Type) where
  /-- The job handed over and not yet taken. -/
  slot : Option α := none
  /-- The submitter that the place is kept for. -/
  granted : Option TaskId := none
  /-- The submitters waiting for the place, first come first. -/
  line : List TaskId := []
  /-- The dispatcher takes no more jobs than those already under way. -/
  shut : Bool := false
  deriving Repr, Inhabited

namespace Intake

variable {α : Type}

/-- The place is neither taken nor kept for anyone. -/
def isFree (i : Intake α) : Bool := i.slot.isNone && i.granted.isNone

/-- A job is handed over. -/
def put (x : α) (i : Intake α) : Intake α := { i with slot := some x, granted := none }

/-- A submitter joins the line. -/
def join (t : TaskId) (i : Intake α) : Intake α := { i with line := i.line ++ [t] }

/-- A free place is granted to the first in line, if any. -/
def grantNext (i : Intake α) : Intake α :=
  match i.line with
  | [] => { i with granted := none }
  | t :: rest => { i with granted := some t, line := rest }

/-- The job handed over, and the intake with its place granted to the first in line. -/
def take? (i : Intake α) : Option (α × Intake α) :=
  i.slot.map fun x => (x, grantNext { i with slot := none })

/-- A submitter gives up: it leaves the line, or passes on the place kept for it. -/
def leave (t : TaskId) (i : Intake α) : Intake α :=
  if i.granted = some t then grantNext { i with granted := none }
  else { i with line := i.line.erase t }

/-- The intake is shut: all who wait in line are turned away. -/
def close (i : Intake α) : Intake α := { i with shut := true, line := [] }

/-- The place is kept for this submitter. -/
def isGrantedTo (t : TaskId) (i : Intake α) : Bool := i.granted == some t

@[simp] theorem slot_grantNext (i : Intake α) : i.grantNext.slot = i.slot := by
  unfold grantNext
  split <;> rfl

@[simp] theorem shut_grantNext (i : Intake α) : i.grantNext.shut = i.shut := by
  unfold grantNext
  split <;> rfl

/-- Giving up takes back no job. -/
@[simp] theorem slot_leave (t : TaskId) (i : Intake α) : (i.leave t).slot = i.slot := by
  unfold leave
  split <;> simp

end Intake

end WorkerPool
