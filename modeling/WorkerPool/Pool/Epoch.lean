import WorkerPool.Pool.Backlog
import WorkerPool.Pool.Intake

/-!
# One epoch of a pool

Everything that a start creates and the next stop tears down: the two queues, the count of temporary
workers, the intake and the backlog of the dispatcher, and the signal that wakes the dispatcher when
a worker has claimed a queued job. `Epoch.offer` puts a job into the first queue with room;
`Epoch.flush` offers the backlog until a queue refuses.
-/

namespace WorkerPool

/-- The state that lives from one start to the stop after it. -/
structure Epoch (ν : Type) where
  /-- Jobs for permanent workers, first come first. -/
  primary : List (Entry ν) := []
  /-- Jobs for any worker, first come first. -/
  temp : List (Entry ν) := []
  /-- The epoch was stopped: nothing is queued any more and every task leaves. -/
  closed : Bool := false
  /-- A job was claimed from a queue and the dispatcher has not yet taken notice. -/
  freed : Bool := false
  /-- Places of temporary workers that are taken. -/
  temps : Nat := 0
  /-- Where submitters hand jobs to the dispatcher. -/
  intake : Intake (Entry ν) := {}
  /-- Jobs that the dispatcher holds. -/
  backlog : List (Entry ν) := []
  deriving Inhabited

/-- The answer to an offer. -/
inductive Offer (ν : Type) where
  /-- The job is now the last of this queue. -/
  | placed (tier : Tier) (epoch : Epoch ν)
  /-- Both queues are full. -/
  | full
  /-- The queues are closed. -/
  | closed

/-- What came of flushing a backlog. -/
structure Flush (ν : Type) where
  /-- The epoch afterwards. -/
  epoch : Epoch ν
  /-- The jobs put into queues, in order. -/
  moved : List (Tier × Entry ν)
  /-- No closed queue was met. -/
  isOpen : Bool

namespace Epoch

variable {ν : Type}

/-- Offers a job to the primary queue, then to the temporary one. -/
def offer (s : Settings) (e : Epoch ν) (x : Entry ν) : Offer ν :=
  if e.closed then .closed
  else if e.primary.length < s.primaryCapacity then
    .placed .primary { e with primary := e.primary ++ [x] }
  else if e.temp.length < s.tempCapacity then
    .placed .temp { e with temp := e.temp ++ [x] }
  else .full

/-- Offers at most `n` jobs of the backlog, the front first; a job that is refused goes back to the
front. -/
def flushUpTo (s : Settings) : Nat → Epoch ν → Flush ν
  | 0, e => ⟨e, [], true⟩
  | n + 1, e =>
    match Backlog.takeFront? e.backlog with
    | none => ⟨e, [], true⟩
    | some (x, rest) =>
      match { e with backlog := rest }.offer s x with
      | .full => ⟨{ e with backlog := Backlog.putFront x rest }, [], true⟩
      | .closed => ⟨{ e with backlog := Backlog.putFront x rest }, [], false⟩
      | .placed tier e' =>
        let later := flushUpTo s n e'
        { later with moved := (tier, x) :: later.moved }

/-- Offers the backlog until a queue refuses or nothing is left. -/
def flush (s : Settings) (e : Epoch ν) : Flush ν := e.flushUpTo s e.backlog.length

/-- The first job that a worker may claim; only permanent workers read the primary queue. -/
def claim? (readsPrimary : Bool) (e : Epoch ν) : Option (Tier × Entry ν × Epoch ν) :=
  match readsPrimary, e.primary, e.temp with
  | true, x :: rest, _ => some (.primary, x, { e with primary := rest, freed := true })
  | _, _, x :: rest => some (.temp, x, { e with temp := rest, freed := true })
  | _, _, [] => none

/-- A worker would find a job to claim. -/
def hasWork (readsPrimary : Bool) (e : Epoch ν) : Bool :=
  !e.temp.isEmpty || readsPrimary && !e.primary.isEmpty

/-- The first job still queued, the primary queue before the temporary one. -/
def drain? (e : Epoch ν) : Option (Entry ν × Epoch ν) :=
  match e.primary, e.temp with
  | x :: rest, _ => some (x, { e with primary := rest })
  | [], x :: rest => some (x, { e with temp := rest })
  | [], [] => none

/-- There is work for a worker exactly if it can claim a job. -/
theorem isSome_claim? (b : Bool) (e : Epoch ν) : (e.claim? b).isSome = e.hasWork b := by
  unfold claim? hasWork
  cases b <;> cases e.primary <;> cases e.temp <;> rfl

/-- A refused offer, or one to closed queues, is decided by the queues alone. -/
theorem offer_of_closed (s : Settings) (e : Epoch ν) (x : Entry ν) (h : e.closed = true) :
    e.offer s x = .closed := by
  simp [offer, h]

end Epoch

end WorkerPool
