import WorkerPool.Proofs.Deadlines
import WorkerPool.Proofs.Isolation
import WorkerPool.Proofs.Submissions

/-!
# How a burst of submissions spreads

Jobs that are submitted one after the other, while no task does anything else, go where the next
place is: into the free places of the primary queue, then into those of the temporary queue, then to
temporary workers that are hired for them, then into the intake, and from then on their submitters
wait in line. Where one more submission goes depends on how many went before it and on the room that
there was at first.
-/

namespace WorkerPool

/-- Where the members of a row go. -/
structure Spread (α : Type) where
  /-- The first queue. -/
  primary : List α
  /-- The second queue. -/
  temp : List α
  /-- Workers that are hired for them. -/
  seeds : List α
  /-- The place of the intake. -/
  intake : Option α
  /-- The line at the intake. -/
  waiting : List α

section Row

variable {α : Type} (p t : Nat) (b : Option Nat) (row : List α) (x : α)

/-- What a row has beyond so many free places in two queues and so many workers to be hired, of whom
there is no end if none are given. -/
def surplus : List α := b.elim [] fun n => row.drop (p + t + n)

/-- A row meets so many free places in two queues, then so many workers to be hired, and then one
place with a line. -/
def spread : Spread α where
  primary := row.take p
  temp := (row.drop p).take t
  seeds := b.elim (row.drop (p + t)) (row.drop (p + t)).take
  intake := (surplus p t b row).head?
  waiting := (surplus p t b row).tail

/-- Those who got what they came for. -/
def Spread.served (s : Spread α) : List α := s.primary ++ s.temp ++ s.seeds ++ s.intake.toList

/-- One more fits into the beginning of a row, or does not. -/
theorem take_concat : (row ++ [x]).take p = row.take p ++ if row.length < p then [x] else [] := by
  rw [List.take_append]
  split
  · rename_i h
    obtain ⟨k, hk⟩ := Nat.exists_eq_add_of_lt h
    simp [show p - row.length = k + 1 by omega]
  · rw [Nat.sub_eq_zero_of_le (by omega), List.take_zero]

/-- One more is within the beginning of a row, or beyond it. -/
theorem drop_concat : (row ++ [x]).drop p = row.drop p ++ if row.length < p then [] else [x] := by
  rw [List.drop_append]
  split
  · rw [List.drop_of_length_le (show [x].length ≤ p - row.length by
      rw [List.length_singleton]
      omega)]
  · rw [Nat.sub_eq_zero_of_le (by omega), List.drop_zero]

/-- Each place takes as many as there are left, up to the room that it has. -/
theorem length_spread : (spread p t b row).primary.length = min row.length p ∧
    (spread p t b row).temp.length = min (row.length - p) t ∧
    (spread p t b row).seeds.length =
      b.elim (row.length - p - t) (min (row.length - p - t)) ∧
    (spread p t b row).intake.toList.length = b.elim 0 (min 1 (row.length - p - t - ·)) ∧
    (spread p t b row).waiting.length = b.elim 0 (row.length - p - t - · - 1) := by
  have one : ∀ l : List α, l.head?.toList.length = min 1 l.length := by
    intro l
    cases l <;> simp
  cases b <;> simp [spread, surplus, Nat.sub_sub, Nat.min_comm, one, -List.head?_drop]

/-- They are the first of the row, as many as there is room for. -/
theorem served_spread :
    (spread p t b row).served = b.elim row fun n => row.take (p + t + n + 1) := by
  have one : ∀ l : List α, l.head?.toList = l.take 1 := by
    intro l
    cases l <;> rfl
  cases b with
  | none => simp [Spread.served, spread, surplus]
  | some n => simp only [Spread.served, spread, surplus, Option.elim, one, List.take_add,
      List.append_assoc]

example : spread 1 1 (some 2) [0, 1, 2, 3, 4, 5, 6] = ⟨[0], [1], [2, 3], some 4, [5, 6]⟩ := rfl

variable {p t b row}

/-- One more takes the next free place of the first queue. -/
theorem spread_concat_primary (h : row.length < p) : spread p t b (row ++ [x]) =
    { spread p t b row with primary := (spread p t b row).primary ++ [x] } := by
  have : row.length < p + t := by omega
  have : ∀ n, row.length < p + t + n := by omega
  cases b <;> simp [spread, surplus, take_concat, drop_concat, *]

/-- One more takes the next free place of the second queue once the first is full. -/
theorem spread_concat_temp (hp : p ≤ row.length) (h : row.length < p + t) :
    spread p t b (row ++ [x]) =
      { spread p t b row with temp := (spread p t b row).temp ++ [x] } := by
  have : row.length - p < t := by omega
  have : ∀ n, row.length < p + t + n := by omega
  cases b <;> simp [spread, surplus, take_concat, drop_concat, *, Nat.not_lt.2 hp]

/-- One more is hired for once both queues are full. -/
theorem spread_concat_seeds (hpt : p + t ≤ row.length)
    (h : ∀ n, b = some n → row.length < p + t + n) : spread p t b (row ++ [x]) =
      { spread p t b row with seeds := (spread p t b row).seeds ++ [x] } := by
  have hp : p ≤ row.length := by omega
  have ht : t ≤ row.length - p := by omega
  cases b with
  | none => simp [spread, surplus, take_concat, drop_concat, *, Nat.not_lt.2]
  | some n =>
    have hn := h n rfl
    have : row.length - (p + t) < n := by omega
    simp [spread, surplus, take_concat, drop_concat, Nat.not_lt.2, *]

/-- What is beyond all the places grows with the row. -/
theorem surplus_concat {n : Nat} (h : p + t + n ≤ row.length) :
    surplus p t (some n) (row ++ [x]) = surplus p t (some n) row ++ [x] := by
  simp [surplus, drop_concat, Nat.not_lt.2 h]

/-- One more is the last of the surplus once nobody may be hired. -/
theorem spread_concat_surplus {n : Nat} (h : p + t + n ≤ row.length) :
    spread p t (some n) (row ++ [x]) = { spread p t (some n) row with
      intake := (surplus p t (some n) row ++ [x]).head?
      waiting := (surplus p t (some n) row ++ [x]).tail } := by
  have hp : p ≤ row.length := by omega
  have hpt : p + t ≤ row.length := by omega
  have ht : t ≤ row.length - p := by omega
  have hn : n ≤ row.length - (p + t) := by omega
  simp only [spread, surplus_concat x h]
  simp [take_concat, drop_concat, Nat.not_lt.2, *]

end Row

variable {ν : Type}

/-- One submission of a burst. -/
structure Submission (ν : Type) where
  /-- Who makes it. -/
  caller : TaskId
  /-- The job that the code of the caller belongs to, if any. -/
  author : Option Nat
  /-- What it hands over. -/
  entry : Entry ν
  /-- What it reports once it is accepted. -/
  accepted : ν

/-- The count that a worker tells the hook as it joins. -/
def HookCall.joined? : HookCall → Option Nat
  | .join live => some live
  | _ => none

/-- A worker that was hired as one of so many that are alive has told that to the hook once it has
begun, and has told no other count. -/
def WorkerState.Joins (live : Nat) (told : List Nat) : WorkerState ν → Prop
  | seeded n _ => n = live ∧ told = []
  | _ => told = [live]

/-- The epoch with the jobs of a burst. -/
def Epoch.takesIn (ep : Epoch ν) (s : Spread (Submission ν)) : Epoch ν :=
  { ep with
    primary := ep.primary ++ s.primary.map (·.entry)
    temp := ep.temp ++ s.temp.map (·.entry)
    temps := ep.temps + s.seeds.length
    intake := { ep.intake with
      slot := s.intake.map (·.entry)
      granted := none
      line := s.waiting.map (·.caller) } }

namespace World

variable {w u v x y : World ν} {e : EpochId} {t : TaskId} {k : Nat} {settings : Settings}
  {hook : Option Hook} {calls : List (Submission ν)} {task : Task ν} {th : Thread ν} {job : Job ν}
  {accepted refused gone : ν}

/-- The submission of task `t`, which draws the next ticket. -/
def asks (w : World ν) (t : TaskId) (task : Task ν) (job : Job ν) (accepted : ν) : Submission ν :=
  ⟨t, task.author?, ⟨w.nextTicket, job⟩, accepted⟩

/-- One job after the other is submitted, by clients who come for that or by code that is about to
do so, and no task does anything else. -/
inductive Burst (w : World ν) : List (Submission ν) → World ν → Prop
  | start : Burst w [] w
  | posted {calls : List (Submission ν)} {v : World ν} (h : Burst w calls v)
      (code : Script (Act ν) Unit) : Burst w calls (v.spawn (.client { body := code }))
  | submitted {calls : List (Submission ν)} {v : World ν} {t : TaskId} {task : Task ν}
      {th : Thread ν} {job : Job ν} {accepted refused gone : ν} (h : Burst w calls v)
      (c : v.Submits t task th job accepted refused gone) :
      Burst w (calls ++ [v.asks t task job accepted]) (v.step t)

/-- Free places of the primary queue. -/
def primaryRoom (w : World ν) (e : EpochId) : Nat :=
  w.settings.primaryCapacity - (w.epoch e).primary.length

/-- Free places of the temporary queue. -/
def tempRoom (w : World ν) (e : EpochId) : Nat :=
  w.settings.tempCapacity - (w.epoch e).temp.length

/-- How many temporary workers may still be hired, if they are limited. -/
def vacancies (w : World ν) (e : EpochId) : Option Nat :=
  w.settings.maxTemps.map (· - (w.epoch e).temps)

/-- How a burst spreads over the room that an epoch has. -/
def share (w : World ν) (e : EpochId) (calls : List (Submission ν)) : Spread (Submission ν) :=
  spread (w.primaryRoom e) (w.tempRoom e) (w.vacancies e) calls

/-- The workers and dispatchers that have come since `w`. -/
def newcomers (w v : World ν) : List (Task ν) :=
  (v.tasks.toList.drop w.tasks.size).filter fun task => task.home?.isSome

section Newcomers

/-- A task that was there before, or is a client, may change. -/
theorem newcomers_setTask {task' : Task ν} (ht : v.tasks[t]? = some task)
    (hold : w.tasks.size ≤ t → task.home? = none) (hh : task'.home? = task.home?) :
    w.newcomers (v.setTask t task') = w.newcomers v := by
  rw [newcomers, setTask, Array.toList_setIfInBounds]
  obtain hlt | hge := lt_or_ge t w.tasks.size
  · rw [List.drop_set_of_lt hlt, ← newcomers]
  · rw [List.drop_set, if_neg (Nat.not_lt.2 hge)]
    refine filter_set (x := task) ?_ ?_ ?_
    · rw [List.getElem?_drop, Nat.add_sub_cancel' hge, Array.getElem?_toList, ht]
    · rw [hold hge]
      rfl
    · rw [hh, hold hge]
      rfl

/-- Whoever comes is the last to have come. -/
theorem newcomers_spawn (hs : w.tasks.size ≤ v.tasks.size) (task : Task ν) :
    w.newcomers (v.spawn task) = w.newcomers v ++ if task.home?.isSome then [task] else [] := by
  rw [newcomers, spawn, Array.toList_push, List.drop_append_of_le_length (by simpa using hs),
    List.filter_append, ← newcomers, List.filter_singleton, Bool.cond_eq_ite]

end Newcomers

section Choice

/-- What the pool does with the job of task `t`, and how the room that is left makes it do so. -/
inductive Goes (w : World ν) (e : EpochId) (t : TaskId) (x : Entry ν) : Admission → World ν → Prop
  | primary (room : (w.epoch e).primary.length < w.settings.primaryCapacity) :
      Goes w e t x .accepted ((w.modifyEpoch e fun _ =>
        { w.epoch e with primary := (w.epoch e).primary ++ [x] }).record
          (.queued e x.ticket .primary))
  | temp (full : w.settings.primaryCapacity ≤ (w.epoch e).primary.length)
      (room : (w.epoch e).temp.length < w.settings.tempCapacity) :
      Goes w e t x .accepted ((w.modifyEpoch e fun _ =>
        { w.epoch e with temp := (w.epoch e).temp ++ [x] }).record (.queued e x.ticket .temp))
  | hired (full : (w.epoch e).Full w.settings)
      (room : ∀ n, w.settings.maxTemps = some n → (w.epoch e).temps < n) :
      Goes w e t x .accepted (w.hire e x)
  | handedOver {n : Nat} (full : (w.epoch e).Full w.settings)
      (spent : w.settings.maxTemps = some n) (hn : n ≤ (w.epoch e).temps)
      (room : (w.epoch e).intake.isFree = true) : Goes w e t x .accepted (w.handOver e x)
  | waits {n : Nat} (full : (w.epoch e).Full w.settings)
      (spent : w.settings.maxTemps = some n) (hn : n ≤ (w.epoch e).temps)
      (taken : (w.epoch e).intake.isFree = false) : Goes w e t x (.waits e)
        (w.modifyEpoch e fun ep => { ep with intake := ep.intake.join t })

/-- A pool that runs makes its choice by the room that its current epoch has left. -/
theorem Sound.goes (hw : w.Sound) (hc : w.current = some e) (t : TaskId) (x : Entry ν) :
    Goes w e t x (w.submit t x).1 (w.submit t x).2 := by
  simp only [submit, hc]
  cases ho : (w.epoch e).offer w.settings x with
  | placed tier ep =>
    obtain ⟨-, ⟨rfl, hp, rfl⟩ | ⟨rfl, hp, ht, rfl⟩⟩ := Epoch.offer_eq_placed.1 ho
    · exact .primary hp
    · exact .temp hp ht
  | closed =>
    rw [Epoch.offer_eq_closed, hw.current_open e hc] at ho
    cases ho
  | full =>
    have full := (Epoch.offer_eq_full.1 ho).2
    cases hm : w.settings.maxTemps with
    | none => exact .hired full (by simp [hm])
    | some n =>
      simp only
      split_ifs with hlt hfree
      · exact .hired full (by simp [hm, hlt])
      · exact .handedOver full hm (Nat.not_lt.1 hlt) hfree
      · exact .waits full hm (Nat.not_lt.1 hlt) (Bool.eq_false_iff.2 hfree)

/-- How many hold the pool makes no difference to its choice. -/
theorem Goes.withHandles {x : Entry ν} {a : Admission} (h : Goes w e t x a u) (n : Nat) :
    Goes { w with handles := n } e t x a { u with handles := n } := by
  cases h with
  | primary room => exact .primary room
  | temp full room => exact .temp full room
  | hired full room => exact .hired full room
  | handedOver full spent hn room => exact .handedOver full spent hn room
  | waits full spent hn taken => exact .waits full spent hn taken

/-- Whoever waits in line submits nothing else. -/
theorem Submits.ne_of_line? (c : w.Submits t task th job accepted refused gone) {i : TaskId}
    {at? : EpochId × Nat} (h : w.line? i = some at?) : i ≠ t := by
  rintro rfl
  have hnone : w.line? i = none := by
    simp [World.line?, c.found, Task.line?, c.thread, c.fresh, Wait.line?]
  rw [hnone] at h
  cases h

/-- A submission to a pool that runs is accepted at once, which the caller reports; or the caller
waits in line, and keeps its handle meanwhile. -/
theorem Submits.step_goes (c : w.Submits t task th job accepted refused gone) (hw : w.Sound)
    (hc : w.current = some e) :
    (∃ u, Goes (w.draw job) e t ⟨w.nextTicket, job⟩ .accepted u ∧
      w.step t = (u.record (.note task.author? accepted)).setTask t (task.withThread th.next)) ∨
    ∃ u, Goes (w.draw job) e t ⟨w.nextTicket, job⟩ (.waits e) u ∧
      w.step t = ({ u with handles := w.handles + 1 } : World ν).setTask t
        (task.withThread { th with wait := .inLine e w.nextTicket }) := by
  let pool : World ν := ({ w with handles := w.handles + 1 } : World ν).draw job
  have sound : pool.Sound := (hw.aside (.hold w c.held)).draw job
  have goes := sound.goes (e := e) hc t ⟨w.nextTicket, job⟩
  have hhandles : (pool.submit t ⟨w.nextTicket, job⟩).2.handles = w.handles + 1 := handles_submit _
  generalize hr : pool.submit t ⟨w.nextTicket, job⟩ = r at goes hhandles
  obtain ⟨answer, u⟩ := r
  have same : ({ u with handles := w.handles + 1 } : World ν) = u := by rw [← hhandles]
  have goes' := goes.withHandles w.handles
  have hwait : th.wait.line? = none := by rw [c.fresh]; rfl
  cases answer with
  | accepted =>
    have done :=
      conclude_of_held { u with handles := w.handles } c.held task.author? c.acts.1 accepted
    rw [show ({ u with handles := w.handles + 1 } : World ν) = u from same] at done
    have acts := stepAct_submit (a := task.author?) accepted refused gone hwait c.held hr
      (.inl ⟨rfl, rfl⟩)
    refine .inl ⟨_, goes', ?_⟩
    rw [c.step_eq, acts, done]
  | refused => cases goes
  | waits i =>
    obtain rfl : i = e := by cases goes; rfl
    have acts := stepAct_submit (a := task.author?) accepted refused gone hwait c.held hr
      (.inr (.inr ⟨i, rfl, rfl⟩))
    refine .inr ⟨_, goes', ?_⟩
    rw [c.step_eq, acts]
    exact congrArg (fun v : World ν => v.setTask t _) same.symm

section Goes

variable {x : Entry ν} {a : Admission} (g : Goes w e t x a u)

include g

/-- A submission is told to nobody, and it leaves the settings, the current epoch and everything of
other epochs as they were. -/
theorem Goes.others : u.settings = w.settings ∧ u.current = w.current ∧ u.notes = w.notes ∧
    ∀ i, i ≠ e → u.epoch i = w.epoch i := by
  cases g with
  | hired => exact ⟨rfl, rfl, by simp [hire, Occurrence.note?], fun i hi => by
      simp [hire, epoch_modifyEpoch_of_ne _ _ _ hi]⟩
  | _ => exact ⟨rfl, rfl, by simp [handOver, Occurrence.note?], fun i hi => by
      simp [handOver, epoch_modifyEpoch_of_ne _ _ _ hi]⟩

/-- A submission changes no task that is there, and it lets nobody else wait. -/
theorem Goes.tasks : u.line? = w.line? ∧ w.tasks.size ≤ u.tasks.size ∧
    ∀ i < w.tasks.size, u.tasks[i]? = w.tasks[i]? := by
  cases g with
  | hired =>
    refine ⟨?_, ?_, fun i hi => ?_⟩
    · rw [hire, line?_spawn _ rfl]
      rfl
    · simp [hire]
    · rw [hire, getElem?_spawn _ _ (by simpa using hi)]
      simp
  | _ => exact ⟨rfl, by simp [handOver], fun i hi => by simp [handOver]⟩

end Goes

end Choice

/-- A burst from `w` to `v` has gone where there was room in epoch `e`, and has changed nothing else
in any epoch. -/
structure Absorbed (w : World ν) (e : EpochId) (calls : List (Submission ν)) (v : World ν) :
    Prop where
  settings : v.settings = w.settings
  current : v.current = some e
  size : w.tasks.size ≤ v.tasks.size
  /-- The jobs stand at the ends of the queues and in the intake, and their submitters in line. -/
  epoch : v.epoch e = (w.epoch e).takesIn (w.share e calls)
  others : ∀ i, i ≠ e → v.epoch i = w.epoch i
  /-- One temporary worker is hired for each seed, and nobody else. -/
  newcomers : w.newcomers v = (w.share e calls).seeds.mapIdx fun i c =>
    .worker e .temporary (.seeded ((w.epoch e).temps + 1 + i) c.entry)
  /-- All that are served are told so, and nothing else is reported. -/
  notes : v.notes = w.notes ++ (w.share e calls).served.map fun c => (c.author, c.accepted)
  waits : ∀ c ∈ (w.share e calls).waiting, v.line? c.caller = some (e, c.entry.ticket)

namespace Absorbed

/-- At first nobody has come. -/
theorem start (hc : w.current = some e) (hfree : (w.epoch e).intake.isFree = true)
    (hline : (w.epoch e).intake.line = []) : Absorbed w e [] w := by
  have nothing : w.share e [] = ⟨[], [], [], none, []⟩ := by
    cases hm : w.vacancies e <;> simp [share, spread, surplus, hm]
  obtain ⟨hslot, hgranted⟩ :
      (w.epoch e).intake.slot = none ∧ (w.epoch e).intake.granted = none := by
    simpa [Intake.isFree] using hfree
  refine ⟨rfl, hc, le_rfl, ?_, fun _ _ => rfl, ?_, ?_, ?_⟩
  · simp [nothing, Epoch.takesIn, ← hslot, ← hline, ← hgranted]
  · simp [nothing, World.newcomers, List.drop_of_length_le]
  · simp [nothing, Spread.served]
  · simp [nothing]

/-- A client who comes for it changes nothing. -/
theorem posted (h : Absorbed w e calls v) (code : Script (Act ν) Unit) :
    Absorbed w e calls (v.spawn (.client { body := code })) where
  settings := h.settings
  current := h.current
  size := by
    rw [size_spawn]
    exact Nat.le_succ_of_le h.size
  epoch := h.epoch
  others := h.others
  newcomers := by
    rw [newcomers_spawn h.size, h.newcomers]
    simp [Task.home?]
  notes := h.notes
  waits c hm := by
    rw [line?_spawn v rfl]
    exact h.waits c hm

/-- How much room a burst leaves, and how much of it is beyond all room. -/
theorem lengths (h : Absorbed w e calls v) :
    (v.epoch e).primary.length =
      (w.epoch e).primary.length + min calls.length (w.primaryRoom e) ∧
    (v.epoch e).temp.length =
      (w.epoch e).temp.length + min (calls.length - w.primaryRoom e) (w.tempRoom e) ∧
    (v.epoch e).temps = (w.epoch e).temps + (w.vacancies e).elim
      (calls.length - w.primaryRoom e - w.tempRoom e)
      (min (calls.length - w.primaryRoom e - w.tempRoom e)) := by
  obtain ⟨hp, ht, hs, -⟩ := length_spread (w.primaryRoom e) (w.tempRoom e) (w.vacancies e) calls
  simp only [h.epoch, Epoch.takesIn, share, List.length_append, List.length_map, hp, ht, hs,
    and_self]

/-- A burst that has filled both queues is at least as long as there was room in them. -/
theorem room_le (h : Absorbed w e calls v) (full : (v.epoch e).Full w.settings) :
    w.primaryRoom e + w.tempRoom e ≤ calls.length := by
  obtain ⟨hprimary, htemp, -⟩ := h.lengths
  obtain ⟨hp, ht⟩ := full
  unfold primaryRoom tempRoom at *
  omega

/-- A burst that finds somebody to be hired is not as long as there was room for. -/
theorem lt_of_vacant (h : Absorbed w e calls v) (full : (v.epoch e).Full w.settings)
    (room : ∀ n, w.settings.maxTemps = some n → (v.epoch e).temps < n) {n : Nat}
    (hn : w.vacancies e = some n) : calls.length < w.primaryRoom e + w.tempRoom e + n := by
  have hle := h.room_le full
  obtain ⟨-, -, htemps⟩ := h.lengths
  obtain ⟨limit, hlimit, hsub⟩ := Option.map_eq_some_iff.1 hn
  have hlt := room limit hlimit
  rw [htemps, hn, Option.elim_some] at hlt
  omega

/-- A burst that finds nobody to be hired is at least as long as there was room for. -/
theorem le_of_spent (h : Absorbed w e calls v) (full : (v.epoch e).Full w.settings) {limit : Nat}
    (spent : w.settings.maxTemps = some limit) (hle : limit ≤ (v.epoch e).temps) :
    w.vacancies e = some (limit - (w.epoch e).temps) ∧
      w.primaryRoom e + w.tempRoom e + (limit - (w.epoch e).temps) ≤ calls.length := by
  have hfull := h.room_le full
  have hn : w.vacancies e = some (limit - (w.epoch e).temps) := Option.map_eq_some_iff.2
    ⟨limit, spent, rfl⟩
  obtain ⟨-, -, htemps⟩ := h.lengths
  rw [hn, Option.elim_some] at htemps
  exact ⟨hn, by omega⟩

/-- The intake is taken once a burst is longer than there was room for. -/
theorem isFree_iff (h : Absorbed w e calls v) : (v.epoch e).intake.isFree = true ↔
    surplus (w.primaryRoom e) (w.tempRoom e) (w.vacancies e) calls = [] := by
  rw [h.epoch]
  simp [Intake.isFree, Epoch.takesIn, share, spread]

/-- Whoever submits a job was there before the burst, or is a client. -/
theorem home?_of_caller (h : Absorbed w e calls v)
    (c : v.Submits t task th job accepted refused gone) (ht : w.tasks.size ≤ t) :
    task.home? = none := by
  by_contra hhome
  have hm : task ∈ w.newcomers v := by
    refine List.mem_filter.2 ⟨?_, Option.isSome_iff_ne_none.2 hhome⟩
    refine List.mem_of_getElem? (i := t - w.tasks.size) ?_
    rw [List.getElem?_drop, Nat.add_sub_cancel' ht, Array.getElem?_toList, c.found]
  rw [h.newcomers, List.mem_mapIdx] at hm
  obtain ⟨i, hi, rfl⟩ := hm
  cases c.thread

/-- A submission that is accepted at once is one more that is served. -/
theorem served (h : Absorbed w e calls v) (c : v.Submits t task th job accepted refused gone)
    (g : Goes (v.draw job) e t ⟨v.nextTicket, job⟩ .accepted u) {s : Spread (Submission ν)}
    (hs : w.share e (calls ++ [v.asks t task job accepted]) = s)
    (hroom : ∀ n, w.vacancies e = some n → calls.length ≤ w.primaryRoom e + w.tempRoom e + n)
    (hwaiting : s.waiting = (w.share e calls).waiting)
    (hepoch : u.epoch e = (w.epoch e).takesIn s)
    (hnew : w.newcomers u = s.seeds.mapIdx fun i c =>
      .worker e .temporary (.seeded ((w.epoch e).temps + 1 + i) c.entry)) :
    Absorbed w e (calls ++ [v.asks t task job accepted])
      ((u.record (.note task.author? accepted)).setTask t (task.withThread th.next)) := by
  subst hs
  obtain ⟨hsettings, hcurrent, hnotes, hothers⟩ := g.others
  obtain ⟨hline, hsize, htasks⟩ := g.tasks
  have hlt : t < v.tasks.size := (Array.getElem?_eq_some_iff.1 c.found).1
  have hserved : (w.share e (calls ++ [v.asks t task job accepted])).served =
      (w.share e calls).served ++ [v.asks t task job accepted] := by
    rw [share, served_spread, share, served_spread]
    cases hn : w.vacancies e with
    | none => rfl
    | some n => rw [Option.elim_some, Option.elim_some, take_concat,
        if_pos (Nat.lt_succ_of_le (hroom n hn))]
  refine ⟨hsettings.trans h.settings, hcurrent.trans h.current, ?_, hepoch,
    fun i hi => (hothers i hi).trans (h.others i hi), ?_, ?_, fun c' hc' => ?_⟩
  · rw [size_setTask]
    exact h.size.trans hsize
  · exact (newcomers_setTask ((htasks t hlt).trans c.found) (h.home?_of_caller c) (by simp)).trans
      hnew
  · have told : ((u.record (.note task.author? accepted)).setTask t
        (task.withThread th.next)).notes = v.notes ++ [(task.author?, accepted)] := by
      simp [hnotes, Occurrence.note?]
    rw [told, hserved, h.notes]
    simp [asks]
  · have hwait := h.waits c' (hwaiting ▸ hc')
    rw [line?_setTask_of_ne _ _ _ (c.ne_of_line? hwait), line?_record, hline]
    exact hwait

/-- A submission that finds the intake taken waits behind the others. -/
theorem joined (h : Absorbed w e calls v) (c : v.Submits t task th job accepted refused gone)
    {n : Nat} (hvacancies : w.vacancies e = some n)
    (hle : w.primaryRoom e + w.tempRoom e + n ≤ calls.length)
    (hsome : surplus (w.primaryRoom e) (w.tempRoom e) (w.vacancies e) calls ≠ [])
    (hself : ∀ f, ((v.draw job).modifyEpoch e f).epoch e = f (v.epoch e)) (handles : Nat) :
    Absorbed w e (calls ++ [v.asks t task job accepted])
      (({ (v.draw job).modifyEpoch e fun ep => { ep with intake := ep.intake.join t } with
        handles } : World ν).setTask t
          (task.withThread { th with wait := .inLine e v.nextTicket })) := by
  let u : World ν := (v.draw job).modifyEpoch e fun ep => { ep with intake := ep.intake.join t }
  have hlt : t < v.tasks.size := (Array.getElem?_eq_some_iff.1 c.found).1
  have hshare : w.share e (calls ++ [v.asks t task job accepted]) =
      { w.share e calls with
        waiting := (w.share e calls).waiting ++ [v.asks t task job accepted] } := by
    rw [share, hvacancies, spread_concat_surplus _ hle, ← hvacancies, share, spread]
    simp [List.head?_append_of_ne_nil _ hsome, List.tail_append_of_ne_nil hsome]
  refine ⟨h.settings, h.current, ?_, ?_, fun i hi => ?_, ?_, ?_, fun c' hc' => ?_⟩
  · rw [size_setTask]
    exact h.size
  · refine (hself _).trans ?_
    rw [hshare, h.epoch]
    simp [Epoch.takesIn, Intake.join, asks]
  · exact (epoch_modifyEpoch_of_ne (v.draw job) e _ hi).trans (h.others i hi)
  · rw [hshare]
    exact (newcomers_setTask (v := u) c.found (h.home?_of_caller c) (by simp)).trans h.newcomers
  · rw [hshare]
    exact (show u.notes = v.notes by simp [u, Occurrence.note?]).trans h.notes
  · rw [hshare, List.mem_append, List.mem_singleton] at hc'
    obtain hc' | rfl := hc'
    · have hwait := h.waits c' hc'
      rw [line?_setTask_of_ne _ _ _ (c.ne_of_line? hwait)]
      exact hwait
    · refine (line?_setTask_self _ _ _ hlt).trans ?_
      simp [Task.line?, c.thread?_withThread, Wait.line?, asks]

/-- One more submission goes where the next place is. -/
theorem submitted (h : Absorbed w e calls v) (hv : v.Sound)
    (c : v.Submits t task th job accepted refused gone) :
    Absorbed w e (calls ++ [v.asks t task job accepted]) (v.step t) := by
  have he : e < v.epochs.size := hv.current_lt e h.current
  obtain ⟨hprimary, htemp, htemps⟩ := h.lengths
  have hself : ∀ f, ((v.draw job).modifyEpoch e f).epoch e = f (v.epoch e) := fun f =>
    epoch_modifyEpoch_self (v.draw job) e f he
  obtain ⟨u, g, hstep⟩ | ⟨u, g, hstep⟩ := c.step_goes hv h.current
  · rw [hstep]
    have goes := g
    cases g with
    | primary room =>
      rw [epoch_draw, settings_draw, h.settings] at room
      have hlt : calls.length < w.primaryRoom e := by
        unfold primaryRoom at *
        omega
      refine h.served c goes (spread_concat_primary _ hlt) (by omega) rfl ?_ h.newcomers
      rw [epoch_record, hself, epoch_draw, h.epoch]
      simp [Epoch.takesIn, share, asks]
    | temp full room =>
      rw [epoch_draw, settings_draw, h.settings] at full room
      have hp : w.primaryRoom e ≤ calls.length := by
        unfold primaryRoom at *
        omega
      have hlt : calls.length < w.primaryRoom e + w.tempRoom e := by
        unfold tempRoom at *
        omega
      refine h.served c goes (spread_concat_temp _ hp hlt) (by omega) rfl ?_ h.newcomers
      rw [epoch_record, hself, epoch_draw, h.epoch]
      simp [Epoch.takesIn, share, asks]
    | hired full room =>
      rw [epoch_draw, settings_draw, h.settings] at full
      have hfull : w.primaryRoom e + w.tempRoom e ≤ calls.length := h.room_le full
      have hlt : ∀ n, w.vacancies e = some n →
          calls.length < w.primaryRoom e + w.tempRoom e + n := fun n hn =>
        h.lt_of_vacant full (h.settings ▸ room) hn
      refine h.served c goes (spread_concat_seeds _ hfull hlt) (fun n hn => (hlt n hn).le) rfl ?_ ?_
      · rw [hire, epoch_spawn, epoch_record, hself, h.epoch]
        simp [Epoch.takesIn, share, asks, Nat.add_assoc]
      · have hlive : (v.epoch e).temps = (w.epoch e).temps + (w.share e calls).seeds.length :=
          congrArg Epoch.temps h.epoch
        rw [hire, newcomers_spawn (by simpa using h.size)]
        simp only [List.mapIdx_append, Task.home?, Option.isSome_some, if_true]
        refine congrArg₂ (· ++ ·) h.newcomers ?_
        simp [hlive, asks, Nat.add_right_comm, share]
    | handedOver full spent hn room =>
      rw [epoch_draw, settings_draw, h.settings] at full
      rw [epoch_draw] at room hn
      obtain ⟨hvacancies, hle⟩ := h.le_of_spent full (h.settings ▸ spent) hn
      have hnone := h.isFree_iff.1 room
      have hshare := spread_concat_surplus (v.asks t task job accepted) hle
      rw [← hvacancies, hnone] at hshare
      refine h.served c goes hshare (fun n hn' => ?_) (by simp [share, spread, hnone]) ?_
        h.newcomers
      · rw [hn', surplus, Option.elim_some, List.drop_eq_nil_iff] at hnone
        exact hnone
      · rw [handOver, epoch_record, hself, h.epoch]
        simp [Epoch.takesIn, share, spread, hnone, Intake.put, asks]
  · cases g with
    | waits full spent hn taken =>
      rw [epoch_draw, settings_draw, h.settings] at full
      rw [epoch_draw] at taken hn
      obtain ⟨hvacancies, hle⟩ := h.le_of_spent full (h.settings ▸ spent) hn
      have hsome : surplus (w.primaryRoom e) (w.tempRoom e) (w.vacancies e) calls ≠ [] := by
        rw [Ne, ← h.isFree_iff, taken]
        decide
      rw [hstep]
      exact h.joined c hvacancies hle hsome hself _

end Absorbed

/-- A burst is a run of its callers. -/
theorem Burst.run (b : Burst w calls v) : Run w v := by
  induction b with
  | start => exact .refl w
  | posted _ code ih => exact ih.tail (.post _ code)
  | submitted _ _ ih => exact ih.tail (.step _ _)

/-- A burst finds its way into an epoch, one submission after the other. -/
theorem Burst.absorbed (b : Burst w calls v) (hw : Reachable settings hook w)
    (hc : w.current = some e) (hfree : (w.epoch e).intake.isFree = true)
    (hline : (w.epoch e).intake.line = []) : Absorbed w e calls v := by
  induction b with
  | start => exact .start hc hfree hline
  | posted _ code ih => exact ih.posted code
  | submitted b c ih => exact ih.submitted (hw.run b.run).evolved.sound c

/-- Jobs of any number can be submitted in a burst, whatever the callers report. -/
theorem exists_burst (hw : Reachable settings hook w) (hc : w.current = some e)
    (hfree : (w.epoch e).intake.isFree = true) (hline : (w.epoch e).intake.line = [])
    (accepted refused gone : ν) (jobs : List (Job ν)) :
    ∃ calls v, Burst w calls v ∧ calls.map (·.entry.job) = jobs := by
  induction jobs using List.reverseRecOn with
  | nil => exact ⟨[], w, .start, rfl⟩
  | append_singleton jobs job ih =>
    obtain ⟨calls, v, b, hjobs⟩ := ih
    let th : Thread ν := { body := ⟨[.ofJob job accepted refused gone], .ok ()⟩ }
    have held := (hw.run b.run).evolved.handles_ne_zero (b.absorbed hw hc hfree hline).current
    have c : (v.spawn (.client th)).Submits v.tasks.size (.client th) th job accepted refused
        gone := ⟨by simp [spawn], rfl, rfl, rfl, held⟩
    exact ⟨_, _, (b.posted th.body).submitted c, by simp [hjobs, asks]⟩

section Joins

/-- The counts that worker `t` has told the hook as it joined. -/
def joinCounts (w : World ν) (t : TaskId) : List Nat := (w.told t).filterMap fun c => c.1.joined?

/-- Every turn of a worker that was hired leaves it with the count it was hired with. -/
theorem Turn.keeps_joinCounts {kind : WorkerKind} {state state' : WorkerState ν} {cs : History}
    (turn : Turn w u t e kind state state' cs) (hh : w.hook.isSome) {live : Nat} {told : List Nat}
    (h : state.Joins live told) :
    state'.Joins live (told ++ cs.filterMap fun c => c.1.joined?) := by
  obtain ⟨hook, hhook⟩ := Option.isSome_iff_exists.1 hh
  cases turn with
  | joins =>
    obtain ⟨rfl, rfl⟩ := h
    simp [WorkerState.Joins, answer, hhook, HookCall.joined?]
  | fails =>
    obtain ⟨rfl, rfl⟩ := h
    simp [WorkerState.Joins, answer, hhook, HookCall.joined?]
  | finishes _ _ hcs hs =>
    have hnil : cs.filterMap (fun c => c.1.joined?) = [] := by
      obtain ⟨-, rfl⟩ | ⟨p, -, rfl⟩ := hcs
      · rfl
      · simp [answer, hhook, HookCall.joined?]
    rw [hnil, List.append_nil]
    obtain ⟨rfl, -⟩ | ⟨_, rfl, -⟩ | ⟨rfl, -⟩ := hs <;> exact h
  | quits hq =>
    rw [List.filterMap_nil, List.append_nil]
    obtain ⟨_, rfl, -⟩ | ⟨rfl, -⟩ := hq <;> exact h
  | retires => simpa [WorkerState.Joins, answer, hhook, HookCall.joined?] using h
  | _ => simpa [WorkerState.Joins] using h

/-- Whatever happens, a worker that was hired keeps the count it was hired with. -/
theorem Changes.keeps_joinCounts (c : Changes w u) (hh : w.hook.isSome) {kind : WorkerKind}
    {state : WorkerState ν} (ht : w.tasks[t]? = some (.worker e kind state)) {live : Nat}
    (h : state.Joins live (w.joinCounts t)) :
    ∃ state', u.tasks[t]? = some (.worker e kind state') ∧ state'.Joins live (u.joinCounts t) := by
  induction c with
  | refl => exact ⟨state, ht, h⟩
  | tail before c ih =>
    obtain ⟨state', ht', h'⟩ := ih
    obtain ⟨state'', cs, hu, hcs, turn⟩ := c.turn ht'
    refine ⟨state'', hu, ?_⟩
    rw [joinCounts, hcs, List.filterMap_append, ← joinCounts]
    exact turn.keeps_joinCounts ((Changes.grows before).hook ▸ hh) h'

end Joins

/-- A burst from `w` to `v`, absorbed by epoch `e` in full detail. -/
structure Saturates (w : World ν) (e : EpochId) (calls : List (Submission ν)) (v : World ν) : Prop
    extends Absorbed w e calls v where
  /-- The first ones are served, in the order of the places. -/
  ordered : calls = (w.share e calls).served ++ (w.share e calls).waiting
  counts : (w.share e calls).primary.length = min calls.length (w.primaryRoom e) ∧
    (w.share e calls).temp.length = min (calls.length - w.primaryRoom e) (w.tempRoom e) ∧
    (w.share e calls).seeds.length = (w.vacancies e).elim
      (calls.length - w.primaryRoom e - w.tempRoom e)
      (min (calls.length - w.primaryRoom e - w.tempRoom e)) ∧
    (w.share e calls).intake.toList.length = (w.vacancies e).elim 0
      (min 1 (calls.length - w.primaryRoom e - w.tempRoom e - ·)) ∧
    (w.share e calls).waiting.length = (w.vacancies e).elim 0
      (calls.length - w.primaryRoom e - w.tempRoom e - · - 1)
  /-- Each of the workers that were hired joins with its own count, whenever it does. -/
  joins : w.hook.isSome → ∀ i c, (w.share e calls).seeds[i]? = some c → ∃ t : TaskId,
    v.tasks[t]? = some (.worker e .temporary (.seeded ((w.epoch e).temps + 1 + i) c.entry)) ∧
      ∀ u, Run v u → ∃ state, u.tasks[t]? = some (.worker e .temporary state) ∧
        state.Joins ((w.epoch e).temps + 1 + i) (u.joinCounts t)
  /-- Nobody is hired while a queue has room. -/
  thrifty : ∀ t task th job accepted refused gone,
    v.Submits t task th job accepted refused gone → v.tasks.size < (v.step t).tasks.size →
      (v.epoch e).Full w.settings
  /-- The intake is left alone while somebody may be hired. -/
  patient : ∀ t task th job accepted refused gone,
    v.Submits t task th job accepted refused gone →
      ((v.step t).epoch e).intake ≠ (v.epoch e).intake →
        ∃ n, w.settings.maxTemps = some n ∧ n ≤ (v.epoch e).temps

section Room

variable (c : w.Submits t task th job accepted refused gone)

include c

/-- Somebody is hired for a job only if both queues are full. -/
theorem Submits.full_of_hired (hw : w.Sound) (hc : w.current = some e)
    (h : w.tasks.size < (w.step t).tasks.size) : (w.epoch e).Full w.settings := by
  obtain ⟨u, g, hstep⟩ | ⟨u, g, hstep⟩ := c.step_goes hw hc
  · rw [hstep] at h
    cases g with
    | hired full => exact full
    | _ => simp [handOver] at h
  · rw [hstep] at h
    cases g with
    | waits => simp at h

/-- A job reaches the intake, or the line at it, only if nobody may be hired. -/
theorem Submits.spent_of_intake_ne (hw : w.Sound) (hc : w.current = some e)
    (h : ((w.step t).epoch e).intake ≠ (w.epoch e).intake) :
    ∃ n, w.settings.maxTemps = some n ∧ n ≤ (w.epoch e).temps := by
  have he := hw.current_lt e hc
  have hself : ∀ f, ((w.draw job).modifyEpoch e f).epoch e = f (w.epoch e) := fun f =>
    epoch_modifyEpoch_self (w.draw job) e f he
  obtain ⟨u, g, hstep⟩ | ⟨u, g, hstep⟩ := c.step_goes hw hc
  · rw [hstep, epoch_setTask, epoch_record] at h
    cases g with
    | handedOver _ spent hn => exact ⟨_, spent, hn⟩
    | hired =>
      rw [hire, epoch_spawn, epoch_record, hself] at h
      exact absurd rfl h
    | _ =>
      rw [epoch_record, hself] at h
      exact absurd rfl h
  · cases g with
    | waits _ spent hn => exact ⟨_, spent, hn⟩

end Room

/-- How a burst spreads. From any state of an open epoch whose intake nobody uses or waits for, let
jobs be submitted one after the other while no task does anything else. The first of them fill the
free places of the primary queue, the next those of the temporary queue; each of the next, as many
as may be hired, is given to a temporary worker of its own, and these workers join with consecutive
counts; the next one is handed to the intake, and all others wait in line. If temporary workers are
not limited nobody waits. Nobody is hired while a queue has room, and nothing reaches the intake
while somebody may be hired. -/
theorem saturates_of_burst (h : Reachable settings hook w) (hc : w.current = some e)
    (hfree : (w.epoch e).intake.isFree = true) (hline : (w.epoch e).intake.line = [])
    (b : Burst w calls v) : Saturates w e calls v where
  toAbsorbed := b.absorbed h hc hfree hline
  ordered := by
    rw [share, served_spread]
    cases hn : w.vacancies e <;> simp [spread, surplus]
  counts := length_spread _ _ _ _
  joins hh i c hi := by
    have hv := (h.run b.run).evolved
    have absorbed := b.absorbed h hc hfree hline
    have hnew : (w.newcomers v)[i]? = some (.worker e .temporary
        (.seeded ((w.epoch e).temps + 1 + i) c.entry)) := by
      rw [absorbed.newcomers, List.getElem?_mapIdx, hi, Option.map_some]
    obtain ⟨t, ht⟩ := List.mem_iff_getElem?.1
      (List.mem_of_mem_drop (List.mem_filter.1 (List.mem_of_getElem? hnew)).1)
    rw [Array.getElem?_toList] at ht
    refine ⟨t, ht, fun u r => ?_⟩
    have htold : v.told t = [] := (hv.tells ht).2
    exact (hv.changes_of_run r).keeps_joinCounts (by rwa [hv.same.2, ← h.evolved.same.2]) ht
      ⟨rfl, by rw [joinCounts, htold, List.filterMap_nil]⟩
  thrifty t task th job accepted refused gone c hs := by
    have absorbed := b.absorbed h hc hfree hline
    rw [← absorbed.settings]
    exact c.full_of_hired (h.run b.run).evolved.sound absorbed.current hs
  patient t task th job accepted refused gone c hi := by
    have absorbed := b.absorbed h hc hfree hline
    rw [← absorbed.settings]
    exact c.spent_of_intake_ne (h.run b.run).evolved.sound absorbed.current hi

/-- A pool with room for two permanent jobs and one more, and for two temporary workers, as one job
has been submitted to it. -/
def roomy : World Nat :=
  [2].foldl step (({ settings := { narrow with primaryCapacity := 2, maxTemps := some 2 } :
    World Nat }.launch).spawn (.client { body := submits 1 ⟨[], .ok ()⟩ }))

/-- Seven more jobs fill both queues, hire two temporary workers and take the intake, and two of
them wait. -/
theorem saturates_of_burst_roomy :
    Reachable { narrow with primaryCapacity := 2, maxTemps := some 2 } none roomy ∧
      roomy.current = some 0 ∧ (roomy.epoch 0).intake.isFree = true ∧
      (roomy.epoch 0).intake.line = [] ∧
      ∃ calls v, Burst roomy calls v ∧ calls.length = 7 ∧ Saturates roomy 0 calls v ∧
        (v.epoch 0).primary.length = 2 ∧ (v.epoch 0).temps = 2 ∧
        (v.epoch 0).intake.line.length = 2 := by
  have reachable : Reachable { narrow with primaryCapacity := 2, maxTemps := some 2 } none roomy :=
    (Reachable.launch none ⟨by decide, by decide, by decide, by decide⟩).call _ [2]
  have current : roomy.current = some 0 := by decide +kernel
  have free : (roomy.epoch 0).intake.isFree = true := by decide +kernel
  have line : (roomy.epoch 0).intake.line = [] := by decide +kernel
  obtain ⟨calls, v, b, hjobs⟩ := exists_burst reachable current free line 0 1 2
    (List.replicate 7 ⟨⟨[], .ok ()⟩, ⟨[], .ok ()⟩⟩)
  have hlength : calls.length = 7 := by simpa using congrArg List.length hjobs
  have spreads := saturates_of_burst reachable current free line b
  refine ⟨reachable, current, free, line, calls, v, b, hlength, spreads, ?_⟩
  have room : roomy.primaryRoom 0 = 1 ∧ roomy.tempRoom 0 = 1 ∧ roomy.vacancies 0 = some 2 ∧
      (roomy.epoch 0).primary.length = 1 ∧ (roomy.epoch 0).temps = 0 := by decide +kernel
  obtain ⟨hp, ht, hn, hlen, htemps⟩ := room
  obtain ⟨hprimary, -, hseeds, -, hwaiting⟩ := spreads.counts
  rw [hp, hlength] at hprimary
  rw [hp, ht, hn, hlength] at hseeds hwaiting
  rw [spreads.epoch]
  simp [Epoch.takesIn, hprimary, hseeds, hwaiting, hlen, htemps]

end World

end WorkerPool
