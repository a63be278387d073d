import WorkerPool.Pool.Job

/-!
# Requests

A request is handled by a function shared by the whole pool and answered through a callback of its
own. The handler gets a copy of the request; the callback gets the request itself and the outcome: a
result, the handler's own error, its panic, or the news that the pool was stopped before the request
ran. A detached request has no callback; what went wrong with it is logged instead.
-/

namespace WorkerPool

open Text

variable {ν τ ρ ε : Type}

/-- The answer to a request, made of deeds. -/
abbrev Callback (ν τ ρ ε : Type) := τ → Outcome ρ ε → Script (Deed ν) Unit

/-- How the requests of a pool are handled. -/
structure Handler (ν τ ρ ε : Type) where
  /-- Copies a request. -/
  copy : τ → Except Panic τ
  /-- Handles a request. -/
  handle : τ → Script (Act ν) (Except ε ρ)
  /-- Shows an error, for the log. -/
  describe : ε → Shape

/-- The outcome of handler code that was run to its end. -/
def outcomeOf : Except Panic (Except ε ρ) → Outcome ρ ε
  | .ok (.ok r) => .ok r
  | .ok (.error e) => .error (.failed e)
  | .error p => .error (.panicked p.message)

/-- The record that stands for the outcome of a detached request, if it has no result. -/
def detachedNotice? (describe : ε → Shape) : Outcome ρ ε → Option Notice
  | .ok _ => none
  | .error e =>
    if e.isPanic then some (.detachedPanicked (e.message describe))
    else some (.detachedFailed (e.message describe))

/-- Code that reports a notice, if there is one. -/
def Script.logged : Option Notice → Script (Deed ν) Unit
  | none => pure ()
  | some notice => .act (.log notice)

/-- Deeds as acts of a body. -/
def Script.lift {β : Type} (s : Script (Deed ν) β) : Script (Act ν) β := s.mapActs .deed

/-- What answers a request: its callback, or the log. -/
def answer (h : Handler ν τ ρ ε) (request : τ) (respond : Option (Callback ν τ ρ ε))
    (outcome : Outcome ρ ε) : Script (Deed ν) Unit :=
  match respond with
  | some respond => respond request outcome
  | none => .logged (detachedNotice? h.describe outcome)

/-- What comes of disposing of the panic that a handler ended with, if it did. What is thrown may
run code of its own as it is disposed of, and that code may panic in turn. -/
def disposed {β : Type} (ending : Except Panic β) : Option Panic → Script (Act ν) Unit
  | none => pure ()
  | some p =>
    match ending with
    | .ok _ => pure ()
    | .error _ => .panic p

/-- The job of a request. A panic while the request is copied escapes the job; a panic of the
handler is an outcome. If disposing of that panic panics in turn, this escapes the job before the
request is answered. -/
def requestJob (h : Handler ν τ ρ ε) (request : τ) (respond : Option (Callback ν τ ρ ε))
    (disposal : Option Panic := none) : Job ν where
  run := do
    let input ← ⟨[], h.copy request⟩
    let ending ← (h.handle input).caught
    disposed ending disposal
    (answer h request respond (outcomeOf ending)).lift
  abandon :=
    match respond with
    | some respond => respond request (.error .dropped)
    | none => .act (.log .detachedDropped)

end WorkerPool
