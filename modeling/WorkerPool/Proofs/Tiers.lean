import WorkerPool.Proofs.Beginnings
import WorkerPool.Proofs.Outcomes
import WorkerPool.Proofs.Servings
import WorkerPool.Proofs.Workers

/-!
# The order of a queue

Jobs come to the end of a queue by submissions and by the dispatcher, and workers claim them from
its front. So the jobs of a queue begin in the order in which they came, whoever brought and whoever
claims them, and what a stop finds in the queue does not begin at all. A job comes to one queue and
once, or it is the one that a temporary worker was hired for; only permanent workers read the
primary queue, and they look into the other one only if they find nothing there.
-/

namespace WorkerPool

variable {ν : Type}

/-- A job has come to the end of a queue. -/
structure Enqueued where
  epoch : EpochId
  tier : Tier
  ticket : Nat
  /-- Its submission has put it there, not the dispatcher. -/
  direct : Bool
  deriving DecidableEq, Repr

namespace Enqueued

/-- A submission has put the job of this ticket into a queue. -/
def isDirect (k : Nat) (a : Enqueued) : Bool := a.direct && a.ticket == k

/-- A dispatcher has put the job of this ticket into a queue. -/
def isSent (k : Nat) (a : Enqueued) : Bool := !a.direct && a.ticket == k

/-- The dispatcher of this epoch has put the job of this ticket into a queue. -/
def isSentBy (e : EpochId) (k : Nat) (a : Enqueued) : Bool := a.isSent k && a.epoch == e

/-- Whatever is in a queue was put there by its submission or by a dispatcher. -/
theorem countP_ticket (l : List Enqueued) (k : Nat) :
    (l.map (·.ticket)).count k = l.countP (isDirect k) + l.countP (isSent k) := by
  induction l with
  | nil => rfl
  | cons a l ih =>
    rw [List.map_cons, List.count_cons, List.countP_cons, List.countP_cons, ih]
    cases hd : a.direct <;> simp [isDirect, isSent, hd] <;> omega

end Enqueued

/-- What an occurrence says of a job that comes to a queue. -/
def Occurrence.enqueued? : Occurrence ν → Option Enqueued
  | queued e k tier => some ⟨e, tier, k, true⟩
  | republished e k tier => some ⟨e, tier, k, false⟩
  | _ => none

/-- The ticket that a submission draws. -/
def Occurrence.drawn? : Occurrence ν → Option Nat
  | submitted k _ => some k
  | _ => none

/-- A queue of an epoch. -/
def Epoch.tier (ep : Epoch ν) : Tier → List (Entry ν)
  | .primary => ep.primary
  | .temp => ep.temp

namespace Epoch

variable {s : Settings} {ep ep' : Epoch ν} {x : Entry ν} {place tier : Tier}

/-- A job that is placed is the last one of its queue. -/
theorem tier_of_placed (h : ep.offer s x = .placed place ep') :
    ep'.tier tier = ep.tier tier ++ if place = tier then [x] else [] := by
  obtain ⟨-, ⟨rfl, -, rfl⟩ | ⟨rfl, -, -, rfl⟩⟩ := offer_eq_placed.1 h <;> cases tier <;>
    simp [Epoch.tier]

/-- A job that is claimed was the first one of its queue. -/
theorem tier_of_claimed {b : Bool} (h : ep.claim? b = some (place, x, ep')) (tier : Tier) :
    ep.tier tier = (if place = tier then [x] else []) ++ ep'.tier tier := by
  obtain ⟨rfl, -, rest, hp, rfl⟩ | ⟨rfl, -, rest, ht, rfl⟩ := claim?_eq_some.1 h <;> cases tier <;>
    simp [Epoch.tier, *]

/-- A drain takes the first job of one of the queues. -/
theorem tier_of_drained (h : ep.drain? = some (x, ep')) (tier : Tier) :
    ep'.tier tier = ep.tier tier ∨ ep.tier tier = x :: ep'.tier tier := by
  obtain ⟨rest, hp, rfl⟩ | ⟨hp, rest, ht, rfl⟩ := drain?_eq_some.1 h <;> cases tier <;>
    simp [Epoch.tier, *]

/-- What a flush moves to a queue comes to its end, in order. -/
theorem tier_flushUpTo (s : Settings) (n : Nat) (ep : Epoch ν) (tier : Tier) :
    (ep.flushUpTo s n).epoch.tier tier = ep.tier tier ++
      (ep.flushUpTo s n).moved.filterMap fun o => if o.1 = tier then some o.2 else none := by
  induction n generalizing ep with
  | zero => simp [flushUpTo]
  | succ n ih =>
    rw [flushUpTo]
    cases hb : Backlog.takeFront? ep.backlog with
    | none => simp
    | some front =>
      obtain ⟨x, rest⟩ := front
      have same : ∀ row : List (Entry ν), { ep with backlog := row }.tier tier = ep.tier tier := by
        intro row
        cases tier <;> rfl
      simp only
      cases ho : { ep with backlog := rest }.offer s x with
      | full => simp [same]
      | closed => simp [same]
      | placed place ep' =>
        simp only
        rw [ih ep', tier_of_placed ho, same, List.append_assoc]
        by_cases hp : place = tier <;> simp [hp]

end Epoch

namespace World

section Journal

variable (w : World ν)

/-- The jobs that have come to queues, in order. -/
abbrev enqueuings : List Enqueued := w.picked Occurrence.enqueued?

/-- The jobs that were admitted to a queue, in order. -/
def admitted (e : EpochId) (tier : Tier) : List Nat :=
  w.enqueuings.filterMap fun a => if a.epoch = e ∧ a.tier = tier then some a.ticket else none

/-- The jobs that were admitted to a queue by their submissions, in order. -/
def direct (e : EpochId) (tier : Tier) : List Nat :=
  w.enqueuings.filterMap fun a =>
    if (a.epoch = e ∧ a.tier = tier) ∧ a.direct = true then some a.ticket else none

/-- The jobs that were begun from a queue, in order. -/
def begun (e : EpochId) (tier : Tier) : List Nat :=
  w.beginnings.filterMap fun b =>
    if b.epoch = e ∧ b.source = .tier tier then some b.ticket else none

/-- The tickets that submissions have drawn, in order. -/
abbrev drawn : List Nat := w.picked Occurrence.drawn?

/-- Each submission has drawn a ticket. -/
theorem drawn_eq : w.drawn = w.submissions.map Prod.fst := by
  rw [drawn, picked, submissions, List.map_filterMap]
  congr
  funext o
  cases o <;> rfl

variable {w} in
/-- What passes beside the jobs comes to no queue. -/
theorem Aside.enqueuings {u : World ν} (h : Aside w u) : u.enqueuings = w.enqueuings :=
  h.picked (fun _ => rfl) fun _ _ => rfl

end Journal

variable {w u : World ν} {t : TaskId} {e : EpochId} {tier : Tier} {k : Nat} {settings : Settings}
  {hook : Option Hook}

section Turns

/-- What one change does to a queue: jobs come to its end, if any, or its front is begun, or the
front is dropped after a stop. -/
inductive Queueing (w u : World ν) (e : EpochId) (tier : Tier) : Prop
  | admits (xs : List (Entry ν)) (ha : u.admitted e tier = w.admitted e tier ++ xs.map (·.ticket))
      (hb : u.begun e tier = w.begun e tier)
      (hq : (u.epoch e).tier tier = (w.epoch e).tier tier ++ xs)
  | begins {x : Entry ν} (ho : (w.epoch e).closed = false)
      (ha : u.admitted e tier = w.admitted e tier)
      (hb : u.begun e tier = w.begun e tier ++ [x.ticket])
      (hq : (w.epoch e).tier tier = x :: (u.epoch e).tier tier)
  | drops {x : Entry ν} (hc : (u.epoch e).closed = true)
      (ha : u.admitted e tier = w.admitted e tier)
      (hb : u.begun e tier = w.begun e tier)
      (hq : (w.epoch e).tier tier = x :: (u.epoch e).tier tier)

/-- It makes no difference which state a task goes to. -/
theorem Queueing.setTask (h : Queueing w u e tier) (t : TaskId) (task : Task ν) :
    Queueing w (u.setTask t task) e tier := by
  cases h with
  | admits xs ha hb hq => exact .admits xs ha hb hq
  | begins ho ha hb hq => exact .begins ho ha hb hq
  | drops hc ha hb hq => exact .drops hc ha hb hq

/-- What leaves a queue alone is nothing to it. -/
theorem Queueing.of_same (ha : u.enqueuings = w.enqueuings) (hb : u.beginnings = w.beginnings)
    (hq : (u.epoch e).tier tier = (w.epoch e).tier tier) : Queueing w u e tier := by
  apply Queueing.admits []
  · rw [admitted, ha, ← admitted, List.map_nil, List.append_nil]
  · rw [begun, hb, ← begun]
  · rw [hq, List.append_nil]

/-- A change of an epoch that leaves a queue alone leaves it alone in every epoch. -/
theorem tier_modifyEpoch {i : EpochId} {f : Epoch ν → Epoch ν}
    (hf : (f (w.epoch i)).tier tier = (w.epoch i).tier tier) :
    ((w.modifyEpoch i f).epoch e).tier tier = (w.epoch e).tier tier :=
  modifyEpoch_keeps w i f (fun ep => ep.tier tier) hf e

section

variable {i : EpochId} {place : Tier} {x : Entry ν} {ep : Epoch ν} (hi : i < w.epochs.size)

include hi

/-- A drain of a closed epoch drops the front of one of its queues. -/
theorem queueing_of_drained (hc : (w.epoch i).closed = true)
    (hd : (w.epoch i).drain? = some (x, ep)) :
    Queueing w ((w.modifyEpoch i fun _ => ep).record (.abandoned i x.ticket)) e tier := by
  have came : ((w.modifyEpoch i fun _ => ep).record (.abandoned i x.ticket)).enqueuings =
      w.enqueuings := by
    simp [Occurrence.enqueued?]
  have began : ((w.modifyEpoch i fun _ => ep).record (.abandoned i x.ticket)).beginnings =
      w.beginnings := by
    simp [Occurrence.beginning?]
  by_cases hie : i = e
  · subst hie
    have hep : ((w.modifyEpoch i fun _ => ep).record (.abandoned i x.ticket)).epoch i = ep :=
      epoch_modifyEpoch_self w i _ hi
    obtain hsame | hfront := Epoch.tier_of_drained hd tier
    · exact .of_same came began (by rw [hep, hsame])
    · apply Queueing.drops (x := x)
      · rw [hep, (Epoch.drain_frame hd).1, hc]
      · rw [admitted, came, ← admitted]
      · rw [begun, began, ← begun]
      · rw [hep, hfront]
  · refine .of_same came began ?_
    rw [epoch_record, epoch_modifyEpoch_of_ne _ _ _ (Ne.symm hie)]

/-- A submission puts its job at the end of one of the queues. -/
theorem queueing_of_placed {job : Job ν}
    (ho : (w.epoch i).offer w.settings ⟨w.nextTicket, job⟩ = .placed place ep) :
    Queueing w (((w.draw job).modifyEpoch i fun _ => ep).record (.queued i w.nextTicket place))
      e tier := by
  have came : (((w.draw job).modifyEpoch i fun _ => ep).record
      (.queued i w.nextTicket place)).enqueuings =
        w.enqueuings ++ [⟨i, place, w.nextTicket, true⟩] := by
    simp [Occurrence.enqueued?]
  have began : (((w.draw job).modifyEpoch i fun _ => ep).record
      (.queued i w.nextTicket place)).beginnings = w.beginnings := by
    simp [Occurrence.beginning?]
  by_cases hie : i = e
  · subst hie
    have hep : (((w.draw job).modifyEpoch i fun _ => ep).record
        (.queued i w.nextTicket place)).epoch i = ep :=
      epoch_modifyEpoch_self (w.draw job) i _ hi
    apply Queueing.admits (if place = tier then [⟨w.nextTicket, job⟩] else [])
    · rw [admitted, came, List.filterMap_append, ← admitted]
      by_cases hpt : place = tier <;> simp [hpt]
    · rw [begun, began, ← begun]
    · rw [hep, Epoch.tier_of_placed ho]
  · apply Queueing.admits []
    · rw [admitted, came, List.filterMap_append, ← admitted]
      simp [hie]
    · rw [begun, began, ← begun]
    · rw [epoch_record, epoch_modifyEpoch_of_ne _ _ _ (Ne.symm hie)]
      simp

/-- A worker of an open epoch begins the front of one of its queues. -/
theorem queueing_of_claimed {kind : WorkerKind} (ho : (w.epoch i).closed = false)
    (hc : (w.epoch i).claim? (kind != .temporary) = some (place, x, ep)) :
    Queueing w ((w.modifyEpoch i fun _ => ep).assign t i kind (.tier place) x) e tier := by
  by_cases hie : i = e
  · subst hie
    have hep : ((w.modifyEpoch i fun _ => ep).assign t i kind (.tier place) x).epoch i = ep :=
      epoch_modifyEpoch_self w i _ hi
    have hq := Epoch.tier_of_claimed hc tier
    by_cases hpt : place = tier
    · subst hpt
      apply Queueing.begins (x := x) ho
      · simp [World.assign, admitted, Occurrence.enqueued?]
      · simp [World.assign, begun, Occurrence.beginning?]
      · rw [hep, hq]
        simp
    · apply Queueing.admits []
      · simp [World.assign, admitted, Occurrence.enqueued?]
      · simp [World.assign, begun, Occurrence.beginning?, hpt]
      · rw [hep, hq]
        simp [hpt]
  · apply Queueing.admits []
    · simp [World.assign, admitted, Occurrence.enqueued?]
    · simp [World.assign, begun, Occurrence.beginning?, hie]
    · simp [World.assign, epoch_modifyEpoch_of_ne w i _ (Ne.symm hie)]

/-- A flush moves jobs to the ends of the queues, each in the order of the backlog. -/
theorem queueing_of_flushed :
    Queueing w ((w.modifyEpoch i fun _ => ((w.epoch i).flush w.settings).epoch).recordAll
      (((w.epoch i).flush w.settings).moved.map fun o => .republished i o.2.ticket o.1))
        e tier := by
  have began : ((w.modifyEpoch i fun _ => ((w.epoch i).flush w.settings).epoch).recordAll
      (((w.epoch i).flush w.settings).moved.map fun o =>
        .republished i o.2.ticket o.1)).begun e tier = w.begun e tier := by
    simp [begun, List.filterMap_map, Function.comp_def, Occurrence.beginning?]
  by_cases hie : i = e
  · subst hie
    apply Queueing.admits (((w.epoch i).flush w.settings).moved.filterMap fun o =>
      if o.1 = tier then some o.2 else none)
    · simp only [admitted, picked_recordAll, picked_modifyEpoch, List.filterMap_append,
        List.filterMap_map, List.map_filterMap, List.filterMap_filterMap]
      congr 2
      funext o
      by_cases hpt : o.1 = tier <;> simp [Occurrence.enqueued?, hpt]
    · exact began
    · rw [epoch_recordAll, epoch_modifyEpoch_self w i _ hi]
      exact Epoch.tier_flushUpTo _ _ _ _
  · apply Queueing.admits []
    · simp [admitted, List.filterMap_map, Function.comp_def, Occurrence.enqueued?, hie]
    · exact began
    · rw [epoch_recordAll, epoch_modifyEpoch_of_ne w i _ (Ne.symm hie)]
      simp

end

/-- Code has to do with a queue only as it submits a job or drains the epoch. -/
theorem Shift.queueing {a : Option Nat} {th th' : Thread ν} {w' : World ν}
    (h : Shift t a th w th' w') (hw : w.Sound) (hth : th.Sound w) : Queueing w w' e tier := by
  have keeps : ∀ {v : World ν} {i : EpochId} {f : Epoch ν → Epoch ν},
      v.epoch e = w.epoch e → (∀ ep : Epoch ν, (f ep).tier tier = ep.tier tier) →
        ((v.modifyEpoch i f).epoch e).tier tier = (w.epoch e).tier tier := by
    intro v i f hv hf
    rw [tier_modifyEpoch (hf _), hv]
  have same : ∀ {ep ep' : Epoch ν}, ep'.primary = ep.primary → ep'.temp = ep.temp →
      ep'.tier tier = ep.tier tier := by
    intro ep ep' hp ht
    cases tier
    · exact hp
    · exact ht
  have began := h.beginnings
  cases h with
  | aside ha => exact .of_same ha.enqueuings began (by rw [epoch, ha.epochs, ← epoch])
  | @abandoned i n rest x ep hl hd =>
    obtain ⟨hlt, hclosed⟩ := hth.drains i n (by simp [hl])
    exact queueing_of_drained hlt hclosed hd
  | @halted i =>
    exact .of_same (by simp [Occurrence.enqueued?]) began
      (keeps (f := fun ep => { ep with closed := true }) rfl fun _ => same rfl rfl)
  | @queued job _ _ _ _ i place ep _ _ _ hc hp => exact queueing_of_placed (hw.current_lt i hc) hp
  | @hired job _ _ _ _ i =>
    exact .of_same (by simp [hire, Occurrence.enqueued?]) began
      (keeps (v := w.draw job) (f := fun ep => { ep with temps := ep.temps + 1 }) rfl
        fun _ => same rfl rfl)
  | @handedOver job _ _ _ _ i =>
    exact .of_same (by simp [handOver, Occurrence.enqueued?]) began
      (keeps (v := w.draw job)
        (f := fun ep => { ep with intake := ep.intake.put ⟨w.nextTicket, job⟩ }) rfl
        fun _ => same rfl rfl)
  | @joined job _ _ _ _ i =>
    exact .of_same (by simp [Occurrence.enqueued?]) began
      (keeps (v := w.draw job) (f := fun ep => { ep with intake := ep.intake.join t }) rfl
        fun _ => same rfl rfl)
  | @granted job _ _ _ _ i j =>
    exact .of_same (by simp [handOver, Occurrence.enqueued?]) began
      (keeps (v := w) (f := fun ep => { ep with intake := ep.intake.put ⟨j, job⟩ }) rfl
        fun _ => same rfl rfl)
  | @gaveUp i j =>
    exact .of_same (by simp [giveUp, Occurrence.enqueued?]) began
      (keeps (v := w) (f := fun ep => { ep with intake := ep.intake.leave t }) rfl
        fun _ => same rfl rfl)
  | _ => exact .of_same (by simp [Occurrence.enqueued?]) began (by simp)

/-- One change does one thing to a queue. -/
theorem Change.queueing (c : Change w u) (hw : w.Sound) : Queueing w u e tier := by
  have keeps : ∀ {i : EpochId} {f : Epoch ν → Epoch ν},
      (∀ ep : Epoch ν, (f ep).primary = ep.primary ∧ (f ep).temp = ep.temp) →
        ((w.modifyEpoch i f).epoch e).tier tier = (w.epoch e).tier tier := by
    intro i f hf
    apply tier_modifyEpoch
    cases tier
    · exact (hf _).1
    · exact (hf _).2
  cases c with
  | aside ha => exact .of_same ha.enqueuings ha.beginnings (by rw [epoch, ha.epochs, ← epoch])
  | code ht hth h => exact (h.queueing hw ((hw.tasks _ _ ht).thread _ hth)).setTask _ _
  | @welcomed t i kind live x =>
    apply Queueing.admits []
    · simp [World.assign, admitted, Occurrence.enqueued?]
    · simp [World.assign, begun, Occurrence.beginning?]
    · simp [World.assign]
  | lost =>
    exact .of_same (by simp [Occurrence.enqueued?]) (by simp [Occurrence.beginning?]) (by simp)
  | @claimed t i kind _ place x ep ht ho hc => exact queueing_of_claimed (hw.home_lt ht rfl) ho hc
  | finished _ _ hos =>
    obtain ⟨-, rfl⟩ | ⟨p, -, rfl⟩ := hos <;>
      exact .of_same (by simp [Occurrence.enqueued?]) (by simp [Occurrence.beginning?]) (by simp)
  | @retired t i =>
    refine .of_same (by simp [Occurrence.enqueued?]) (by simp [Occurrence.beginning?]) ?_
    rw [epoch_setTask, epoch_recordAll]
    exact keeps fun _ => ⟨rfl, rfl⟩
  | @flushed t i ht => exact (queueing_of_flushed (hw.home_lt ht rfl)).setTask t _
  | woken => exact .of_same rfl rfl (keeps fun _ => ⟨rfl, rfl⟩)
  | tookIn =>
    exact .of_same (by simp [takeIn, Occurrence.enqueued?])
      (by simp [takeIn, Occurrence.beginning?]) (keeps fun _ => ⟨rfl, rfl⟩)
  | shut => exact .of_same rfl rfl (keeps fun _ => ⟨rfl, rfl⟩)
  | collected =>
    exact .of_same (by simp [takeIn, Occurrence.enqueued?])
      (by simp [takeIn, Occurrence.beginning?]) (keeps fun _ => ⟨rfl, rfl⟩)
  | discarded =>
    exact .of_same (by simp [Occurrence.enqueued?]) (by simp [Occurrence.beginning?])
      (keeps fun _ => ⟨rfl, rfl⟩)
  | _ => exact .of_same rfl rfl rfl

/-- Those who were admitted to a queue have begun, or were dropped by a stop, or stand in it, in
this order. -/
def InTurn (w : World ν) (e : EpochId) (tier : Tier) : Prop :=
  ∃ dropped, w.admitted e tier =
      w.begun e tier ++ dropped ++ ((w.epoch e).tier tier).map (·.ticket) ∧
    ((w.epoch e).closed = false → dropped = [])

/-- Whatever is done to a queue keeps those who were admitted to it in turn. -/
theorem Queueing.inTurn (c : Queueing w u e tier)
    (hc : (w.epoch e).closed = true → (u.epoch e).closed = true) (h : w.InTurn e tier) :
    u.InTurn e tier := by
  obtain ⟨dropped, hrow, hopen⟩ := h
  have stays : (u.epoch e).closed = false → dropped = [] := by
    intro ho
    apply hopen
    by_contra hne
    rw [hc (Bool.eq_true_of_not_eq_false hne)] at ho
    cases ho
  cases c with
  | admits xs ha hb hq =>
    refine ⟨dropped, ?_, stays⟩
    rw [ha, hb, hq, hrow]
    simp
  | begins ho ha hb hq =>
    refine ⟨dropped, ?_, stays⟩
    rw [ha, hb, hrow, hq, hopen ho]
    simp
  | @drops x closed ha hb hq =>
    refine ⟨dropped ++ [x.ticket], ?_, fun ho => ?_⟩
    · rw [ha, hb, hrow, hq]
      simp
    · rw [closed] at ho
      cases ho

/-- In every state that a pool comes to its queues are in turn. -/
theorem Evolved.inTurn (h : Evolved settings hook w) (e : EpochId) (tier : Tier) :
    w.InTurn e tier := by
  induction h with
  | opened =>
    refine ⟨[], ?_, fun _ => rfl⟩
    rw [admitted, enqueuings, picked_launch, begun, beginnings, picked_launch, epoch_launch]
    cases tier <;> rfl
  | next h c ih =>
    exact (c.queueing h.sound).inTurn (fun hc => c.grows.closed e (lt_of_closed hc) hc) ih

/-- A job that has begun from a queue was admitted to it. -/
theorem Evolved.admitted_of_begun (h : Evolved settings hook w) (hk : k ∈ w.begun e tier) :
    k ∈ w.admitted e tier := by
  obtain ⟨dropped, hrow, -⟩ := h.inTurn e tier
  rw [hrow, List.append_assoc]
  exact List.mem_append_left _ hk

end Turns

section Once

/-- A temporary worker is hired for the job of this ticket. -/
def hires (k : Nat) : Occurrence ν → Bool
  | .seeded _ j _ => j == k
  | _ => false

/-- The job of this ticket is handed over to a dispatcher. -/
def handsOver (k : Nat) : Occurrence ν → Bool
  | .handedOver _ j => j == k
  | _ => false

/-- A job is accepted as its submission puts it into a queue, hires a worker for it or hands it
over. -/
theorem countP_accepts (os : List (Occurrence ν)) (k : Nat) :
    (os.filterMap Occurrence.enqueued?).countP (Enqueued.isDirect k) + os.countP (hires k) +
        os.countP (handsOver k) =
      (os.filterMap Occurrence.booking?).countP (Booking.accepts k) := by
  induction os with
  | nil => rfl
  | cons o os ih =>
    cases o <;> simp [List.filterMap_cons, List.countP_cons, Occurrence.enqueued?,
      Occurrence.booking?, hires, handsOver, Enqueued.isDirect, Booking.accepts] <;> omega

/-- What comes to the queues of an epoch by its dispatcher is what the dispatcher sends. -/
theorem countP_sentBy (os : List (Occurrence ν)) (e : EpochId) (k : Nat) :
    (os.filterMap Occurrence.enqueued?).countP (Enqueued.isSentBy e k) =
      (Serving.sentIn (os.filterMap (Occurrence.serving? e))).count k := by
  induction os with
  | nil => rfl
  | cons o os ih =>
    cases o with
    | republished i j tier =>
      by_cases hi : i = e <;> simp [List.countP_cons, List.count_cons, Occurrence.enqueued?,
        Occurrence.serving?, Enqueued.isSentBy, Enqueued.isSent, hi, ih]
    | handedOver i j =>
      by_cases hi : i = e <;> simp [List.filterMap_cons, Occurrence.enqueued?, Occurrence.serving?,
        hi, ih]
    | buffered i j =>
      by_cases hi : i = e <;> simp [List.filterMap_cons, Occurrence.enqueued?, Occurrence.serving?,
        hi, ih]
    | _ => simp [List.filterMap_cons, Occurrence.enqueued?, Occurrence.serving?, Enqueued.isSentBy,
        Enqueued.isSent, ih]

/-- What a dispatcher has put into a queue was handed over to it. -/
theorem Evolved.handedOver_of_sent (h : Evolved settings hook w) {a : Enqueued}
    (ha : a ∈ w.enqueuings) (hs : a.isSent k = true) :
    .handedOver a.epoch k ∈ w.occurrences := by
  obtain ⟨hd, rfl⟩ : a.direct = false ∧ a.ticket = k := by simpa [Enqueued.isSent] using hs
  obtain ⟨handed, row, hrow, -⟩ := h.tended a.epoch
  have sent : a.ticket ∈ Serving.sentIn (w.servings a.epoch) := by
    have hpos : 0 < w.enqueuings.countP (Enqueued.isSentBy a.epoch a.ticket) :=
      List.countP_pos_iff.2 ⟨a, ha, by simp [Enqueued.isSentBy, hs]⟩
    rw [enqueuings, picked, countP_sentBy] at hpos
    exact List.count_pos_iff.1 hpos
  have received := (Serving.perm_of_serves? hrow).subset (List.mem_append_left _ sent)
  have handedOver : a.ticket ∈ Serving.handedIn (w.servings a.epoch) := by
    rw [handed]
    exact List.mem_append_left _ received
  obtain ⟨s, hs, hk⟩ := List.mem_filterMap.1 handedOver
  obtain ⟨o, ho, hso⟩ := mem_picked.1 hs
  cases o <;> simp only [Occurrence.serving?, Option.ite_none_right_eq_some, Option.some.injEq,
    reduceCtorEq] at hso
  all_goals obtain ⟨rfl, rfl⟩ := hso
  · obtain rfl := Option.some.inj hk
    exact ho
  all_goals cases hk

/-- A job is sent to a queue no more often than it is handed over. -/
theorem Evolved.countP_sent_le (h : Evolved settings hook w) (k : Nat) :
    w.enqueuings.countP (Enqueued.isSent k) ≤ w.occurrences.countP (handsOver k) := by
  by_cases hz : w.enqueuings.countP (Enqueued.isSent k) = 0
  · omega
  obtain ⟨a, ha, hs⟩ := List.countP_pos_iff.1 (Nat.pos_of_ne_zero hz)
  have handed := h.handedOver_of_sent ha hs
  have accepted : w.AcceptedBy a.epoch k := mem_books handed rfl
  have one : w.enqueuings.countP (Enqueued.isSent k) =
      w.enqueuings.countP (Enqueued.isSentBy a.epoch k) := by
    apply List.countP_congr
    intro b hb
    simp only [Enqueued.isSentBy, Bool.and_eq_true, beq_iff_eq]
    constructor
    · intro hbs
      exact ⟨hbs, h.ledger.accepted_unique accepted (mem_books (h.handedOver_of_sent hb hbs) rfl)⟩
    · exact And.left
  have nodup : (Serving.sentIn (w.servings a.epoch)).Nodup := by
    obtain ⟨-, row, hrow, -⟩ := h.tended a.epoch
    exact ((Serving.perm_of_serves? hrow).nodup_iff.2 (h.nodup_received a.epoch)).of_append_left
  have hpos : 0 < w.occurrences.countP (handsOver k) :=
    List.countP_pos_iff.2 ⟨_, handed, by simp [handsOver]⟩
  rw [one, enqueuings, picked, countP_sentBy]
  exact (List.nodup_iff_count_le_one.1 nodup k).trans hpos

/-- A job comes to a queue or has a worker hired for it, and no more than once. -/
theorem Evolved.count_enqueuings_le (h : Evolved settings hook w) (k : Nat) :
    (w.enqueuings.map (·.ticket)).count k + w.occurrences.countP (hires k) ≤ 1 := by
  have accepts : w.enqueuings.countP (Enqueued.isDirect k) + w.occurrences.countP (hires k) +
      w.occurrences.countP (handsOver k) = w.books.countP (Booking.accepts k) :=
    countP_accepts w.occurrences k
  have drawn : w.waiters k + w.books.countP (Booking.accepts k) + w.books.count (.refused k) =
      if k < w.nextTicket then 1 else 0 := h.ledger.drawn k
  have sent := h.countP_sent_le k
  rw [Enqueued.countP_ticket]
  split at drawn <;> omega

/-- No job comes to queues twice. -/
theorem Evolved.nodup_enqueuings (h : Evolved settings hook w) :
    (w.enqueuings.map (·.ticket)).Nodup := by
  apply List.nodup_iff_count_le_one.2
  intro k
  have := h.count_enqueuings_le k
  omega

/-- A job that was admitted to a queue has come there. -/
theorem mem_admitted : k ∈ w.admitted e tier ↔
    ∃ a ∈ w.enqueuings, a.epoch = e ∧ a.tier = tier ∧ a.ticket = k := by
  simp [admitted, List.mem_filterMap, and_assoc]

/-- No job is admitted to two queues. -/
theorem Evolved.admitted_unique (h : Evolved settings hook w) {i : EpochId} {other : Tier}
    (hk : k ∈ w.admitted e tier) (hi : k ∈ w.admitted i other) : i = e ∧ other = tier := by
  obtain ⟨a, ha, rfl, rfl, hat⟩ := mem_admitted.1 hk
  obtain ⟨b, hb, rfl, rfl, hbt⟩ := mem_admitted.1 hi
  obtain rfl : b = a := List.inj_on_of_nodup_map h.nodup_enqueuings hb ha (hbt.trans hat.symm)
  exact ⟨rfl, rfl⟩

/-- No job that a worker is hired for comes to a queue. -/
theorem Evolved.not_admitted_of_seeded (h : Evolved settings hook w) {i : EpochId}
    (hs : .seeded i k t ∈ w.occurrences) : k ∉ w.admitted e tier := by
  intro hk
  obtain ⟨a, ha, -, -, rfl⟩ := mem_admitted.1 hk
  have enqueued := List.count_pos_iff.2 (List.mem_map_of_mem (f := fun a => a.ticket) ha)
  have hired : 0 < w.occurrences.countP (hires a.ticket) :=
    List.countP_pos_iff.2 ⟨_, hs, by simp [hires]⟩
  have := h.count_enqueuings_le a.ticket
  omega

end Once

section Drawn

/-- What a change adds to the tickets that were drawn and to a queue: a job comes to a queue by its
submission only as that draws its ticket. -/
def Adds (w u : World ν) (e : EpochId) (tier : Tier) : Prop :=
  ∃ ks ds, u.drawn = w.drawn ++ ks ∧ u.direct e tier = w.direct e tier ++ ds ∧ ds.Sublist ks

/-- A ticket is drawn, and no job comes to a queue by its submission. -/
theorem Adds.of_drawn (ks : List Nat) (hk : u.drawn = w.drawn ++ ks)
    (hd : u.direct e tier = w.direct e tier) : Adds w u e tier :=
  ⟨ks, [], hk, by rw [hd, List.append_nil], List.nil_sublist ks⟩

/-- No ticket is drawn, and no job comes to a queue by its submission. -/
theorem Adds.of_same (hk : u.drawn = w.drawn) (hd : u.direct e tier = w.direct e tier) :
    Adds w u e tier :=
  .of_drawn [] (by rw [hk, List.append_nil]) hd

theorem Aside.adds (h : Aside w u) : Adds w u e tier := by
  apply Adds.of_same
  · exact h.picked (fun _ => rfl) fun _ _ => rfl
  · rw [direct, h.enqueuings, ← direct]

/-- A submission draws its ticket as it puts its job into a queue. -/
theorem Shift.adds {a : Option Nat} {th th' : Thread ν} {w' : World ν}
    (h : Shift t a th w th' w') : Adds w w' e tier := by
  cases h with
  | aside ha => exact ha.adds
  | @queued job _ _ _ _ i place =>
    refine ⟨[w.nextTicket], if i = e ∧ place = tier then [w.nextTicket] else [], ?_, ?_, ?_⟩
    · simp [Occurrence.drawn?]
    · by_cases hi : i = e ∧ place = tier <;> simp [direct, Occurrence.enqueued?, hi]
    · split <;> simp
  | hired | handedOver | refused | joined =>
    apply Adds.of_drawn [w.nextTicket] <;>
      simp [direct, hire, handOver, Occurrence.drawn?, Occurrence.enqueued?]
  | _ =>
    apply Adds.of_same <;>
      simp [direct, handOver, giveUp, Occurrence.drawn?, Occurrence.enqueued?]

/-- Every change adds to a queue at most what it adds to the tickets that were drawn. -/
theorem Change.adds (c : Change w u) (e : EpochId) (tier : Tier) : Adds w u e tier := by
  cases c with
  | aside ha => exact ha.adds
  | code _ _ h => exact h.adds
  | finished _ _ hos =>
    obtain ⟨-, rfl⟩ | ⟨p, -, rfl⟩ := hos <;> apply Adds.of_same
    · simp [Occurrence.drawn?]
    · simp [direct, Occurrence.enqueued?]
    · simp [Occurrence.drawn?]
    · simp [direct, Occurrence.enqueued?]
  | retired =>
    apply Adds.of_same
    · simp [Occurrence.drawn?]
    · simp [direct, Occurrence.enqueued?]
  | flushed =>
    apply Adds.of_same <;>
      simp [direct, List.filterMap_map, Function.comp_def, Occurrence.drawn?,
        Occurrence.enqueued?]
  | _ =>
    apply Adds.of_same <;>
      simp [direct, World.assign, takeIn, shutIntake, Occurrence.drawn?,
        Occurrence.enqueued?]

/-- The jobs that came to a queue by their submissions came in the order of these. -/
theorem Evolved.direct_sublist (h : Evolved settings hook w) (e : EpochId) (tier : Tier) :
    (w.direct e tier).Sublist w.drawn := by
  induction h with
  | opened =>
    rw [direct, enqueuings, picked_launch]
    exact List.nil_sublist _
  | @next w u h c ih =>
    obtain ⟨ks, ds, hk, hd, hsub⟩ := c.adds e tier
    rw [hk, hd]
    exact ih.append hsub

/-- No ticket is drawn twice. -/
theorem Evolved.nodup_drawn (h : Evolved settings hook w) : w.drawn.Nodup := by
  rw [drawn_eq, h.ledger.perm_submissions.nodup_iff]
  exact List.nodup_range

/-- Fewer of those who came to queues are fewer tickets in the same order. -/
theorem tickets_sublist {p q : Enqueued → Prop} [DecidablePred p] [DecidablePred q]
    (h : ∀ a, p a → q a) (l : List Enqueued) :
    (l.filterMap fun a => if p a then some a.ticket else none).Sublist
      (l.filterMap fun a => if q a then some a.ticket else none) := by
  induction l with
  | nil => exact List.Sublist.refl _
  | cons a l ih =>
    by_cases hp : p a
    · simpa [hp, h a hp] using ih.cons_cons a.ticket
    · by_cases hq : q a
      · simpa [hp, hq] using ih.cons a.ticket
      · simpa [hp, hq] using ih

/-- The jobs that came by their submissions are some of all that were admitted. -/
theorem direct_sublist_admitted (w : World ν) (e : EpochId) (tier : Tier) :
    (w.direct e tier).Sublist (w.admitted e tier) :=
  tickets_sublist (fun _ => And.left) _

/-- No job is admitted to a queue twice. -/
theorem Evolved.nodup_admitted (h : Evolved settings hook w) (e : EpochId) (tier : Tier) :
    (w.admitted e tier).Nodup := by
  refine h.nodup_enqueuings.sublist ?_
  have all := tickets_sublist (q := fun _ => True)
    (fun (a : Enqueued) (_ : a.epoch = e ∧ a.tier = tier) => trivial) w.enqueuings
  simpa [admitted] using all

/-- Of two who stand in a row without repetition the first stands before the second one in every
part of it that has both. -/
theorem pair_sublist_of_sublist {l m : List Nat} {j k : Nat} (hl : l.Sublist m) (hm : m.Nodup)
    (h : [j, k].Sublist m) (hj : j ∈ l) (hk : k ∈ l) : [j, k].Sublist l := by
  have part : m.filter (· ∈ l) = l := by
    clear h hj hk
    induction hl with
    | slnil => rfl
    | @cons l m a hl ih =>
      obtain ⟨ha, hm⟩ := List.nodup_cons.1 hm
      rw [List.filter_cons_of_neg (by simpa using fun hal => ha (hl.subset hal)), ih hm]
    | @cons_cons l m a hl ih =>
      obtain ⟨ha, hm⟩ := List.nodup_cons.1 hm
      rw [List.filter_cons_of_pos (by simp)]
      congr 1
      rw [← ih hm]
      apply List.filter_congr
      intro b hb
      have hba : b ≠ a := fun h => ha (h ▸ hb)
      simp [hba, ih hm]
  have both := h.filter (· ∈ l)
  rw [part] at both
  simpa [hj, hk] using both

/-- Of two who stand in a row without repetition the first stands before the second one in every
beginning of it that has the second one. -/
theorem pair_sublist_of_prefix {l m : List Nat} {j k : Nat} (hl : l <+: m) (hm : m.Nodup)
    (h : [j, k].Sublist m) (hk : k ∈ l) : [j, k].Sublist l := by
  obtain ⟨rest, rfl⟩ := hl
  obtain ⟨l₁, l₂, heq, h₁, h₂⟩ := List.sublist_append_iff.1 h
  obtain rfl | ⟨init, last, rfl⟩ := l₂.eq_nil_or_concat
  · rw [heq, List.append_nil]
    exact h₁
  · -- The second one would stand in both parts.
    obtain rfl : k = last := by
      have := congrArg List.getLast? heq
      simpa using this
    have later : k ∈ rest := h₂.subset (by simp)
    exact absurd rfl ((List.nodup_append.1 hm).2.2 k hk k later)

end Drawn

section Sources

/-- What holds of each job as it begins, and survives every change, holds of all jobs that have
begun. -/
theorem Evolved.beginning {P : World ν → Beginning → Prop} (h : Evolved settings hook w)
    (begins : ∀ {v u t b}, Evolved settings hook v → Change v u → v.Begins t b → P u b)
    (keeps : ∀ {v u b}, Change v u → P v b → P u b) {b : Beginning} (hb : b ∈ w.beginnings) :
    P w b := by
  induction h with
  | opened =>
    rw [beginnings, picked_launch] at hb
    cases hb
  | @next v u hv c ih =>
    obtain same | ⟨t, first, hfirst, hnew⟩ := c.beginnings
    · rw [same] at hb
      exact keeps c (ih hb)
    · rw [hnew, List.mem_append, List.mem_singleton] at hb
      obtain hold | rfl := hb
      · exact keeps c (ih hold)
      · exact begins hv c hfirst

/-- A job that does not come from a queue began with the worker that was hired for it. -/
theorem Evolved.seeded_of_started (h : Evolved settings hook w)
    (hs : .started e k t .seed ∈ w.occurrences) : .seeded e k t ∈ w.occurrences := by
  refine h.beginning (P := fun w b => b.source = .seed →
    .seeded b.epoch b.ticket b.worker ∈ w.occurrences) ?_ ?_ (b := ⟨e, k, t, .seed⟩)
      (mem_beginnings.2 hs) rfl
  · intro v u t b hv c hb hseed
    cases hb with
    | seed ht => exact c.grows.mem ((hv.papers.tasks t _ ht).seed _ _ _ _ rfl).2
    | claim => cases hseed
  · intro v u b c hold hseed
    exact c.grows.mem (hold hseed)

/-- A job from the primary queue began with a permanent worker. -/
theorem Evolved.permanent_of_started (h : Evolved settings hook w)
    (hs : .started e k t (.tier .primary) ∈ w.occurrences) :
    ∃ i state, w.tasks[t]? = some (.worker e (.permanent i) state) := by
  refine h.beginning (P := fun w b => b.source = .tier .primary →
    ∃ i state, w.tasks[b.worker]? = some (.worker b.epoch (.permanent i) state)) ?_ ?_
      (b := ⟨e, k, t, .tier .primary⟩) (mem_beginnings.2 hs) rfl
  · intro v u t b hv c hb hprimary
    cases hb with
    | seed => cases hprimary
    | @claim e kind alarm tier x ep ht ho hc =>
      obtain rfl : tier = .primary := by simpa using hprimary
      cases kind with
      | permanent i =>
        obtain ⟨state, _, hu, -⟩ := c.turn ht
        exact ⟨i, state, hu⟩
      | temporary => simp [Epoch.claim?_eq_some] at hc
  · intro v u b c hold hprimary
    obtain ⟨i, state, ht⟩ := hold hprimary
    obtain ⟨state', _, hu, -⟩ := c.turn ht
    exact ⟨i, state', hu⟩

/-- A job that has begun from a queue is among those that were begun from it. -/
theorem mem_begun : k ∈ w.begun e tier ↔ ∃ t, .started e k t (.tier tier) ∈ w.occurrences := by
  rw [begun, List.mem_filterMap]
  constructor
  · rintro ⟨⟨i, j, t, source⟩, hb, hk⟩
    simp only [Option.ite_none_right_eq_some, Option.some.injEq] at hk
    obtain ⟨⟨rfl, rfl⟩, rfl⟩ := hk
    exact ⟨t, mem_beginnings.1 hb⟩
  · rintro ⟨t, hs⟩
    exact ⟨⟨e, k, t, .tier tier⟩, mem_beginnings.2 hs, by simp⟩

/-- No temporary worker begins a job that was admitted to a primary queue. -/
theorem Evolved.not_admitted_of_temporary (h : Evolved settings hook w) {i : EpochId}
    {state : WorkerState ν} {source : Source}
    (ht : w.tasks[t]? = some (.worker i .temporary state))
    (hs : .started e k t source ∈ w.occurrences) (j : EpochId) : k ∉ w.admitted j .primary := by
  intro hk
  cases source with
  | seed => exact h.not_admitted_of_seeded (h.seeded_of_started hs) hk
  | tier tier =>
    obtain ⟨-, rfl⟩ := h.admitted_unique hk (h.admitted_of_begun (mem_begun.2 ⟨t, hs⟩))
    obtain ⟨n, state', ht'⟩ := h.permanent_of_started hs
    rw [ht] at ht'
    cases ht'

end Sources

/-- In which order and by whom the jobs of the queues of an epoch are begun, up to a state `w`. -/
structure Ranked (w : World ν) (e : EpochId) : Prop where
  /-- The jobs that have begun from a queue are the first ones of those that were admitted to it, by
  submissions and by the dispatcher, and they have begun in the order in which they were admitted.
  -/
  order : ∀ tier, w.begun e tier <+: w.admitted e tier
  /-- In an open epoch the others are those that stand in the queue, in the same order. -/
  rest : (w.epoch e).closed = false → ∀ tier,
    w.admitted e tier = w.begun e tier ++ ((w.epoch e).tier tier).map (·.ticket)
  /-- No job is admitted to a queue twice, nor to two queues. -/
  once : (w.enqueuings.map (·.ticket)).Nodup
  /-- A permanent worker that begins a job from the temporary queue in a move from here finds the
  primary queue empty. -/
  permanent : ∀ (u : World ν) (t i k : Nat) (state : WorkerState ν), Move w u →
    w.tasks[t]? = some (.worker e (.permanent i) state) →
      u.beginnings = w.beginnings ++ [⟨e, k, t, .tier .temp⟩] → (w.epoch e).primary = []
  /-- A temporary worker has begun no job that was admitted to a primary queue. -/
  temporary : ∀ (t k : Nat) (state : WorkerState ν) (source : Source),
    w.tasks[t]? = some (.worker e .temporary state) → .started e k t source ∈ w.occurrences →
      ∀ j, k ∉ w.admitted j .primary
  /-- Of two jobs that were submitted one after the other and admitted to the same queue at once the
  second one has begun only if the first one began before it. -/
  direct : ∀ (tier : Tier) (j k : Nat), [j, k].Sublist w.drawn → j ∈ w.direct e tier →
    k ∈ w.direct e tier → k ∈ w.begun e tier → [j, k].Sublist (w.begun e tier)

/-- In every state that a pool may come to, whatever its tasks, its clients and its hook do, the
jobs of each queue have begun in the order in which they were admitted to it, a permanent worker
turns to the temporary queue only once it finds the primary one empty, and a temporary worker never
runs a job from the primary one. -/
theorem ranked_of_reachable (h : Reachable settings hook w) (e : EpochId) : w.Ranked e := by
  have hw := h.evolved
  have order : ∀ tier, w.begun e tier <+: w.admitted e tier := by
    intro tier
    obtain ⟨dropped, hrow, -⟩ := hw.inTurn e tier
    exact ⟨_, by rw [hrow, List.append_assoc]⟩
  constructor
  case order => exact order
  case rest =>
    intro ho tier
    obtain ⟨dropped, hrow, hopen⟩ := hw.inTurn e tier
    rw [hrow, hopen ho, List.append_nil]
  case once => exact hw.nodup_enqueuings
  case permanent =>
    intro u t i k state m ht hnew
    obtain same | ⟨t', b, -, hb, hnew'⟩ := m.beginnings hw.sound
    · rw [same] at hnew
      simp at hnew
    · obtain rfl : b = ⟨e, k, t, .tier .temp⟩ := by
        rw [hnew'] at hnew
        simpa using hnew
      cases hb with
      | claim ht' _ hc =>
        rw [ht] at ht'
        cases ht'
        obtain ⟨hp, -⟩ | ⟨-, hp, -⟩ := Epoch.claim?_eq_some.1 hc
        · cases hp
        · exact hp rfl
  case temporary =>
    intro t k state source ht hs
    exact hw.not_admitted_of_temporary ht hs
  case direct =>
    intro tier j k hjk hj hk hbegun
    have nodup := hw.nodup_admitted e tier
    have queued := pair_sublist_of_sublist (hw.direct_sublist e tier) hw.nodup_drawn hjk hj hk
    exact pair_sublist_of_prefix (order tier) nodup
      (queued.trans (w.direct_sublist_admitted e tier)) hbegun

/-- A narrow pool whose only worker has run three jobs from the primary queue and is about to look
for another one; the second of the four jobs of a client stands in the temporary queue. -/
def latecomers : World Nat :=
  [1, 1, 0, 0, 0, 1, 0, 0, 1, 0, 0].foldl step (({ settings := narrow : World Nat }.launch).spawn
    (.client { body := ⟨List.replicate 4 (.submit ⟨[], .ok ()⟩ ⟨[], .ok ()⟩ 0 1 2), .ok ()⟩ }))

/-- The jobs that came later to the primary queue have begun before the second one, in the order of
their submissions, and it is the turn of the second one now. -/
theorem ranked_of_reachable_latecomers :
    Reachable narrow none latecomers ∧ latecomers.admitted 0 .primary = [0, 2, 3] ∧
      latecomers.begun 0 .primary = [0, 2, 3] ∧ [0, 3].Sublist (latecomers.begun 0 .primary) ∧
      latecomers.admitted 0 .temp = [1] ∧ latecomers.begun 0 .temp = [] ∧
      (latecomers.step 0).begun 0 .temp = [1] ∧ (latecomers.epoch 0).primary = [] := by
  have reachable : Reachable narrow none latecomers :=
    (Reachable.launch none narrow_valid).call _ _
  have ranked := ranked_of_reachable reachable 0
  have three : 3 ∈ latecomers.begun 0 .primary := by decide
  have ahead : [0, 3].Sublist (latecomers.begun 0 .primary) :=
    ranked.direct .primary 0 3 (by decide) (by decide) (by decide) three
  have empty : (latecomers.epoch 0).primary = [] :=
    ranked.permanent _ 0 0 1 (.idle none) (.step latecomers 0) rfl (by decide)
  exact ⟨reachable, by decide, by decide, ahead, by decide, by decide, by decide, empty⟩

end World

end WorkerPool
