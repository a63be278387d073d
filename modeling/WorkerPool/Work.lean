import WorkerPool.Pool.Job

/-!
# Pieces of work

Work that nobody waits for: it has no outcome, its panics are left to the worker, and work that is
dropped is logged.
-/

namespace WorkerPool

variable {ν : Type}

/-- The job of a piece of work. -/
def workJob (code : Script (Act ν) Unit) : Job ν where
  run := code
  abandon := .act (.log .workDropped)

end WorkerPool
