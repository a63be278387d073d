import WorkerPool.Pool.World

/-!
# Starting and stopping

A start opens a new epoch with its workers; a stop closes the current one. Closing takes effect at
once and leaves a drain behind, which the stopping thread works off: it abandons what is queued,
one job after the other, while their callbacks may start and stop the pool again.
-/

namespace WorkerPool.World

variable {ν : Type}

/-- Opens the next epoch: its permanent workers and, if temporary workers are limited, its
dispatcher. -/
def launch (w : World ν) : World ν :=
  let e := w.epochs.size
  let w := { w with epochs := w.epochs.push {}, running := true, current := some e }
  let w := w.record (.opened e)
  let w := (List.range w.settings.minWorkers).foldl
    (fun w i => w.spawn (.worker e (.permanent i) .hired)) w
  let w := if w.settings.maxTemps.isSome then w.spawn (.dispatcher e .hired) else w
  w.log (.poolStarted w.settings.minWorkers w.settings.maxTemps)

/-- Starts the pool if it is stopped. -/
def start (w : World ν) : World ν := if w.running then w else w.launch

/-- Takes the current epoch out of use, if the pool is running. -/
def retire (w : World ν) : Option EpochId × World ν :=
  if w.running then (w.current, { w with running := false, current := none }) else (none, w)

/-- Closes an epoch: nothing is queued in it any more, and its tasks leave. -/
def close (w : World ν) (e : EpochId) : World ν :=
  (w.modifyEpoch e fun ep => { ep with closed := true }).record (.closed e)

/-- Stops the pool if it is running; the layers are what the caller has to do for it. -/
def halt (w : World ν) : List (Layer ν) × World ν :=
  match w.retire with
  | (none, w) => ([], w)
  | (some e, w) => ([.drain e 0], w.close e)

/-- Gives up one handle; with the last one the pool stops. -/
def letGo (w : World ν) : List (Layer ν) × World ν :=
  match w.handles with
  | 0 => ([], w)
  | 1 => { w with handles := 0 }.halt
  | n + 2 => ([], { w with handles := n + 1 })

/-- Does a deed for the job it belongs to, if any. Once no handle is left, none can be taken, and
starting and stopping do nothing. -/
def perform (w : World ν) (author : Option Nat) : Deed ν → List (Layer ν) × World ν
  | .note n => ([], w.record (.note author n))
  | .log notice => ([], w.record (.log author notice))
  | .start => ([], if w.handles = 0 then w else w.start)
  | .stop => if w.handles = 0 then ([], w) else w.halt
  | .hold => ([], if w.handles = 0 then w else { w with handles := w.handles + 1 })
  | .drop => w.letGo

/-- One step of the drains and callbacks of a thread. A panic of a callback ends the callback and
is logged; a drain goes on until the queues of its epoch are empty. -/
def stepLayers (w : World ν) : List (Layer ν) → List (Layer ν) × World ν
  | [] => ([], w)
  | .callback _ ⟨[], .ok ()⟩ :: rest => (rest, w)
  | .callback _ ⟨[], .error p⟩ :: rest => (rest, w.log (.abandonPanicked p.message))
  | .callback ticket ⟨d :: ds, ending⟩ :: rest =>
    let (layers, w) := w.perform (some ticket) d
    (layers ++ .callback ticket ⟨ds, ending⟩ :: rest, w)
  | .drain e count :: rest =>
    match (w.epoch e).drain? with
    | some (x, ep) =>
      (.callback x.ticket x.job.abandon :: .drain e (count + 1) :: rest,
        (w.modifyEpoch e fun _ => ep).record (.abandoned e x.ticket))
    | none => (rest, if count = 0 then w else w.log (.queuedDropped count))

/-- A pool that was just opened: checked, and started. -/
def opened (settings : Settings) (hook : Option Hook) : Except PoolError (World ν) :=
  match settings.check with
  | .error e => .error e
  | .ok () => .ok { settings, hook : World ν }.start

end WorkerPool.World
