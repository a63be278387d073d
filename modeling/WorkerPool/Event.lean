import WorkerPool.Request

/-!
# Events

An event runs in three phases: before, its action, after. The first phase that fails or panics ends
it. An event with a result has a phase that handles it in place of the action, and its value is the
outcome if the phase after it succeeds. All events of a manager are answered by one callback.
-/

namespace WorkerPool

open Text

variable {ν ρ ε : Type}

/-- Phases of events: code that never waits, with a value or an error. -/
abbrev Phase (ν ε : Type) := ExceptT ε (Script (Deed ν))

/-- A phase that does nothing and succeeds. -/
def Phase.skip : Phase ν ε Unit := pure ()

/-- An event with an action. -/
structure Event (ν ε : Type) where
  name : String
  before : Phase ν ε Unit := .skip
  action : Phase ν ε Unit
  after : Phase ν ε Unit := .skip

/-- An event with a result. -/
structure ResultEvent (ν ρ ε : Type) where
  name : String
  before : Phase ν ε Unit := .skip
  handle : Phase ν ε ρ
  after : Phase ν ε Unit := .skip

/-- The three phases of an event. -/
def Event.phases (e : Event ν ε) : Phase ν ε Unit := do
  e.before
  e.action
  e.after

/-- The three phases of an event with a result. -/
def ResultEvent.phases (e : ResultEvent ν ρ ε) : Phase ν ε ρ := do
  e.before
  let value ← e.handle
  e.after
  pure value

/-- How a manager handles events. Events are shared, so copying one never panics. -/
def eventHandler (describe : ε → Shape) : Handler ν (Event ν ε) Unit ε where
  copy := .ok
  handle e := e.phases.run.lift
  describe

/-- How a manager handles events with results. -/
def resultEventHandler (describe : ε → Shape) : Handler ν (ResultEvent ν ρ ε) ρ ε where
  copy := .ok
  handle e := e.phases.run.lift
  describe

/-- The job of an event. -/
def eventJob (describe : ε → Shape) (respond : Callback ν (Event ν ε) Unit ε) (e : Event ν ε) :
    Job ν :=
  requestJob (eventHandler describe) e (some respond)

/-- The job of an event with a result. -/
def resultEventJob (describe : ε → Shape) (respond : Callback ν (ResultEvent ν ρ ε) ρ ε)
    (e : ResultEvent ν ρ ε) : Job ν :=
  requestJob (resultEventHandler describe) e (some respond)

end WorkerPool
