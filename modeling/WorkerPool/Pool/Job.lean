import WorkerPool.Error
import WorkerPool.Pool.Notice

/-!
# Jobs and the code they run

Code handed to a pool is a script: what it does, in order, and how it ends, with a value or with a
panic. Callbacks are made of deeds, which never wait. The body of a job may wait as well, and may
submit further jobs. A job is run at most once, or abandoned if the pool is stopped before.
-/

namespace WorkerPool

/-- Straight code: its acts in order, and the value or the panic it ends with. -/
structure Script (α β : Type) where
  acts : List α
  ending : Except Panic β
  deriving Repr

namespace Script

variable {α β γ : Type}

/-- Code that does nothing and has a value. -/
protected def pure (b : β) : Script α β := ⟨[], .ok b⟩

/-- Code that panics at once. -/
def panic (p : Panic) : Script α β := ⟨[], .error p⟩

/-- Code of one act. -/
def act (a : α) : Script α Unit := ⟨[a], .ok ()⟩

/-- One script after the other; what follows a panic is never reached. -/
protected def bind (s : Script α β) (f : β → Script α γ) : Script α γ :=
  match s.ending with
  | .ok b => ⟨s.acts ++ (f b).acts, (f b).ending⟩
  | .error p => ⟨s.acts, .error p⟩

instance : Monad (Script α) where
  pure := Script.pure
  bind := Script.bind

/-- The code with its panic caught: it ends with what the code ended with. -/
def caught (s : Script α β) : Script α (Except Panic β) := ⟨s.acts, .ok s.ending⟩

/-- The code with every act replaced. -/
def mapActs (f : α → γ) (s : Script α β) : Script γ β := ⟨s.acts.map f, s.ending⟩

@[simp] theorem bind_panic (p : Panic) (f : β → Script α γ) :
    (panic p : Script α β) >>= f = panic p := rfl

@[simp] theorem caught_panic (p : Panic) :
    (panic p : Script α β).caught = Script.pure (.error p) := rfl

@[simp] theorem caught_pure (b : β) :
    (Script.pure b : Script α β).caught = Script.pure (.ok b) := rfl

/-- Catching adds and removes no act. -/
@[simp] theorem acts_caught (s : Script α β) : s.caught.acts = s.acts := rfl

end Script

/-- Something that code does without waiting. Notes of type `ν` are what the code reports. -/
inductive Deed (ν : Type) where
  /-- Report something. -/
  | note (n : ν)
  /-- Write a log record. -/
  | log (notice : Notice)
  /-- Start the pool. -/
  | start
  /-- Stop the pool. -/
  | stop
  /-- Take one more handle of the pool. -/
  | hold
  /-- Let go of a handle of the pool. -/
  | drop
  deriving Repr

/-- Something that the body of a job, or a client of the pool, does. -/
inductive Act (ν : Type) where
  /-- Something that never waits. -/
  | deed (d : Deed ν)
  /-- Take one pass of a gate, waiting for it. -/
  | pass (gate : Int)
  /-- Wait for some time. -/
  | sleep (time : Duration)
  /-- Submit a job, waiting if need be, then report the answer: the job was accepted, it was
  refused, or there is no pool any more. -/
  | submit (run : Script (Act ν) Unit) (abandon : Script (Deed ν) Unit) (accepted refused gone : ν)
  /-- Stop the pool and wait for its workers to leave, then report the answer: they have left, they
  had not left in time, or there is no pool any more. -/
  | shutdown (timeout : Duration) (done late gone : ν)

/-- A unit of work. -/
structure Job (ν : Type) where
  /-- What running the job does. -/
  run : Script (Act ν) Unit
  /-- What is done instead if the pool is stopped before the job runs. -/
  abandon : Script (Deed ν) Unit

/-- A job with the number that its submission drew; no two submissions draw the same. -/
structure Entry (ν : Type) where
  ticket : Nat
  job : Job ν

/-- Report something from the body of a job. -/
def Act.note {ν : Type} (n : ν) : Act ν := .deed (.note n)

/-- Submit a job. -/
def Act.ofJob {ν : Type} (job : Job ν) (accepted refused gone : ν) : Act ν :=
  .submit job.run job.abandon accepted refused gone

end WorkerPool
