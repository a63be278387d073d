/-!
# Log records

A record has a severity, the part of the program that wrote it, a message and a few named values.
Levels are ordered by severity; a reader who sets a least severe level sees that level and all the
more severe ones.
-/

namespace WorkerPool.Log

/-- Severity of a record, most severe first. -/
inductive Level where
  | error
  | warn
  | info
  | debug
  | trace
  deriving DecidableEq, Repr

namespace Level

/-- Levels are numbered from the most severe. -/
def rank : Level → Nat
  | error => 1
  | warn => 2
  | info => 3
  | debug => 4
  | trace => 5

/-- A reader of level `limit` sees records of this level. -/
def within (level limit : Level) : Bool := level.rank ≤ limit.rank

/-- The name of a level as records show it. -/
def name : Level → String
  | error => "ERROR"
  | warn => "WARN"
  | info => "INFO"
  | debug => "DEBUG"
  | trace => "TRACE"

end Level

/-- A named value of a record. -/
inductive Value where
  | count (n : Nat)
  | flag (b : Bool)
  deriving DecidableEq, Repr

/-- One log record. -/
structure Record where
  level : Level
  /-- The part of the program that wrote the record, as a path. -/
  target : String
  message : String
  fields : List (String × Value) := []
  deriving DecidableEq, Repr

end WorkerPool.Log
