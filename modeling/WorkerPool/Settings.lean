import WorkerPool.Duration
import WorkerPool.Text.Shape

/-!
# The sizing of a pool

How many workers a pool keeps, how many more it may hire, how much it queues and how long a
temporary worker waits for work. Settings are checked once, when a pool is opened; the check names
the first field that is out of range.
-/

namespace WorkerPool

open Text

/-- Sizes and times of a pool. -/
structure Settings where
  /-- Permanent workers, alive from start to stop. -/
  minWorkers : Nat := 10
  /-- How many temporary workers may live at once; without a number there is no limit. -/
  maxTemps : Option Nat := none
  /-- Places in the primary queue. -/
  primaryCapacity : Nat := 100
  /-- Places in the temporary queue. -/
  tempCapacity : Nat := 100
  /-- How long a temporary worker waits for work before it retires. -/
  idleTimeout : Duration := Duration.ofSeconds 60
  deriving DecidableEq, Repr, Inhabited

namespace Settings

/-- A field that must not be zero and is. -/
inductive Fault where
  | minWorkers
  | primaryCapacity
  | tempCapacity
  | idleTimeout
  deriving DecidableEq, Repr

/-- Why the settings are refused. -/
def Fault.reason : Fault → String
  | minWorkers => "min_workers must be greater than 0"
  | primaryCapacity => "primary_queue_capacity must be greater than 0"
  | tempCapacity => "temp_queue_capacity must be greater than 0"
  | idleTimeout => "idle_timeout must be greater than 0"

/-- The first field that is zero and must not be. -/
def fault? (s : Settings) : Option Fault :=
  if s.minWorkers = 0 then some .minWorkers
  else if s.primaryCapacity = 0 then some .primaryCapacity
  else if s.tempCapacity = 0 then some .tempCapacity
  else if s.idleTimeout = .zero then some .idleTimeout
  else none

/-- Settings that a pool can be opened with. -/
structure Valid (s : Settings) : Prop where
  minWorkers_pos : 0 < s.minWorkers
  primaryCapacity_pos : 0 < s.primaryCapacity
  tempCapacity_pos : 0 < s.tempCapacity
  idleTimeout_pos : 0 < s.idleTimeout.nanos

/-- The check finds no fault exactly in valid settings. -/
theorem fault?_eq_none_iff (s : Settings) : s.fault? = none ↔ s.Valid := by
  have hz : s.idleTimeout = .zero ↔ s.idleTimeout.nanos = 0 :=
    ⟨fun h => by rw [h]; rfl, fun h => by
      show s.idleTimeout = ⟨0⟩
      rw [← h]⟩
  unfold fault?
  constructor
  · intro h
    split at h
    · cases h
    split at h
    · cases h
    split at h
    · cases h
    split at h
    · cases h
    rename_i h1 h2 h3 h4
    rw [hz] at h4
    exact ⟨by omega, by omega, by omega, by omega⟩
  · rintro ⟨h1, h2, h3, h4⟩
    rw [if_neg (by omega), if_neg (by omega), if_neg (by omega), if_neg (by rw [hz]; omega)]

/-- The shape of settings, with whether a hook is attached to the pool. -/
def shape (s : Settings) (hooked : Bool) : Shape :=
  .record "PoolConfig"
    [("min_workers", .nat s.minWorkers),
     ("max_temp_workers", .option .nat s.maxTemps),
     ("primary_queue_capacity", .nat s.primaryCapacity),
     ("temp_queue_capacity", .nat s.tempCapacity),
     ("idle_timeout", .word s.idleTimeout.text),
     ("hook", .bool hooked)]

end Settings

end WorkerPool
