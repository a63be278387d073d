import WorkerPool.Pool.Lifecycle

/-!
# Submitting a job

A submission goes to the epoch that is current when it is made. The job is put into the primary
queue, else into the temporary queue; if both are full it is given to a new temporary worker; if no
more of them may be hired it goes to the intake of the dispatcher, and the submitter waits in line
while the intake is taken. A submitter that waits when the epoch ends is refused.
-/

namespace WorkerPool.World

variable {ν : Type}

/-- The answer to a submission. -/
inductive Admission where
  | accepted
  | refused
  /-- The submitter stands in line at the intake of this epoch. -/
  | waits (epoch : EpochId)
  deriving DecidableEq, Repr

/-- Hires a temporary worker for a job. -/
def hire (w : World ν) (e : EpochId) (x : Entry ν) : World ν :=
  let live := (w.epoch e).temps + 1
  let w := w.modifyEpoch e fun ep => { ep with temps := ep.temps + 1 }
  (w.record (.seeded e x.ticket w.tasks.size)).spawn (.worker e .temporary (.seeded live x))

/-- Hands a job to the dispatcher of an epoch. -/
def handOver (w : World ν) (e : EpochId) (x : Entry ν) : World ν :=
  (w.modifyEpoch e fun ep => { ep with intake := ep.intake.put x }).record
    (.handedOver e x.ticket)

/-- Submits the job of task `t`. -/
def submit (w : World ν) (t : TaskId) (x : Entry ν) : Admission × World ν :=
  match w.current with
  | none => (.refused, w.record (.refused x.ticket))
  | some e =>
    match (w.epoch e).offer w.settings x with
    | .placed tier ep =>
      (.accepted, (w.modifyEpoch e fun _ => ep).record (.queued e x.ticket tier))
    | .closed => (.refused, w.record (.refused x.ticket))
    | .full =>
      match w.settings.maxTemps with
      | none => (.accepted, w.hire e x)
      | some limit =>
        if (w.epoch e).temps < limit then (.accepted, w.hire e x)
        else if (w.epoch e).intake.isFree then (.accepted, w.handOver e x)
        else (.waits e, w.modifyEpoch e fun ep => { ep with intake := ep.intake.join t })

/-- A submitter gives up its place at the intake of an epoch. -/
def giveUp (w : World ν) (t : TaskId) (e : EpochId) (ticket : Nat) : World ν :=
  (w.modifyEpoch e fun ep => { ep with intake := ep.intake.leave t }).record (.refused ticket)

/-- The wait of task `t` at the intake of an epoch is over: it is refused if the epoch ended, else
it has been granted the place. -/
def submitGranted (w : World ν) (t : TaskId) (e : EpochId) (x : Entry ν) : Admission × World ν :=
  if (w.epoch e).closed || (w.epoch e).intake.shut then (.refused, w.giveUp t e x.ticket)
  else (.accepted, w.handOver e x)

end WorkerPool.World
