import WorkerPool.Proofs.Conservation
import WorkerPool.Proofs.Dispatch
import WorkerPool.Proofs.Reordering

/-!
# The way through the dispatcher

A job that is handed over to a dispatcher is received by it and, if there is room in time, sent to a
queue. The jobs are received in the order in which they were handed over, each once, and the job
that is sent stands in front of the row of those that were received and not sent. This row is the
backlog for as long as the dispatcher may get any jobs.
-/

namespace WorkerPool

/-- What happens to a job on its way through the dispatcher. -/
inductive Serving where
  /-- A submitter hands it over. -/
  | handed (ticket : Nat)
  /-- The dispatcher takes it from the intake. -/
  | received (ticket : Nat)
  /-- The dispatcher puts it into a queue. -/
  | sent (ticket : Nat)
  deriving DecidableEq, Repr

namespace Serving

def handed? : Serving → Option Nat
  | handed k => some k
  | _ => none

def received? : Serving → Option Nat
  | received k => some k
  | _ => none

def sent? : Serving → Option Nat
  | sent k => some k
  | _ => none

/-- The jobs handed over, in order. -/
def handedIn (l : List Serving) : List Nat := l.filterMap handed?

/-- The jobs received, in order. -/
def receivedIn (l : List Serving) : List Nat := l.filterMap received?

/-- The jobs sent, in order. -/
def sentIn (l : List Serving) : List Nat := l.filterMap sent?

/-- The row of the jobs in the backlog after this; only the front can be sent. -/
def serve? (row : List Nat) : Serving → Option (List Nat)
  | handed _ => some row
  | received k => some (row ++ [k])
  | sent k =>
    match row with
    | [] => none
    | front :: rest => if front = k then some (Backlog.closeGap rest) else none

/-- The row of the jobs in the backlog after all of this. -/
def serves? (l : List Serving) (row : List Nat) : Option (List Nat) := l.foldlM serve? row

section Lists

variable (l l' : List Serving) (k : Nat)

@[simp] theorem handedIn_append : handedIn (l ++ l') = handedIn l ++ handedIn l' :=
  List.filterMap_append

@[simp] theorem receivedIn_append : receivedIn (l ++ l') = receivedIn l ++ receivedIn l' :=
  List.filterMap_append

@[simp] theorem sentIn_append : sentIn (l ++ l') = sentIn l ++ sentIn l' := List.filterMap_append

@[simp] theorem sentIn_nil : sentIn [] = [] := rfl
@[simp] theorem sentIn_handed : sentIn (handed k :: l) = sentIn l := rfl
@[simp] theorem sentIn_received : sentIn (received k :: l) = sentIn l := rfl
@[simp] theorem sentIn_sent : sentIn (sent k :: l) = k :: sentIn l := rfl
@[simp] theorem receivedIn_nil : receivedIn [] = [] := rfl
@[simp] theorem receivedIn_handed : receivedIn (handed k :: l) = receivedIn l := rfl
@[simp] theorem receivedIn_received : receivedIn (received k :: l) = k :: receivedIn l := rfl
@[simp] theorem receivedIn_sent : receivedIn (sent k :: l) = receivedIn l := rfl
@[simp] theorem handedIn_nil : handedIn [] = [] := rfl
@[simp] theorem handedIn_handed : handedIn (handed k :: l) = k :: handedIn l := rfl
@[simp] theorem handedIn_received : handedIn (received k :: l) = handedIn l := rfl
@[simp] theorem handedIn_sent : handedIn (sent k :: l) = handedIn l := rfl

section Sending

variable {α : Type} (f : α → Nat) (os : List α)

@[simp] theorem handedIn_map_sent : handedIn (os.map fun o => sent (f o)) = [] := by
  induction os with
  | nil => rfl
  | cons o os ih => exact ih

@[simp] theorem receivedIn_map_sent : receivedIn (os.map fun o => sent (f o)) = [] := by
  induction os with
  | nil => rfl
  | cons o os ih => exact ih

end Sending

end Lists

variable {l l' : List Serving} {row row' later : List Nat} {front x k : Nat}

@[simp] theorem serves?_nil (row : List Nat) : serves? [] row = some row := rfl

theorem serves?_cons (s : Serving) : serves? (s :: l) row = (serve? row s).bind (serves? l) :=
  List.foldlM_cons

theorem serves?_append : serves? (l ++ l') row = (serves? l row).bind (serves? l') :=
  List.foldlM_append

@[simp] theorem serves?_handed : serves? (handed k :: l) row = serves? l row := rfl

@[simp] theorem serves?_received : serves? (received k :: l) row = serves? l (row ++ [k]) := rfl

/-- What is sent stood in front. -/
theorem serves?_sent : serves? (sent k :: l) row = some row' ↔
    ∃ rest, row = k :: rest ∧ serves? l (Backlog.closeGap rest) = some row' := by
  rw [serves?_cons]
  cases row with
  | nil => simp [serve?]
  | cons front rest => by_cases hk : front = k <;> simp [serve?, hk]

/-- Whoever stood in the row or was received was sent or stands in the row. -/
theorem perm_of_serves? (h : serves? l row = some row') :
    (sentIn l ++ row').Perm (row ++ receivedIn l) := by
  induction l generalizing row with
  | nil =>
    obtain rfl := Option.some.inj h
    simp
  | cons s l ih =>
    cases s with
    | handed j => exact ih h
    | received j => simpa using ih h
    | sent j =>
      obtain ⟨rest, rfl, hnext⟩ := serves?_sent.1 h
      exact ((ih hnext).trans ((Backlog.perm_closeGap rest).append_right _)).cons j

/-- What comes first can be served first. -/
theorem exists_of_serves?_append (h : serves? (l ++ l') row = some row') :
    ∃ between, serves? l row = some between ∧ serves? l' between = some row' := by
  rw [serves?_append] at h
  exact Option.bind_eq_some_iff.1 h

end Serving

variable {ν : Type}

/-- What an occurrence says of the way through the dispatcher of an epoch. -/
def Occurrence.serving? (e : EpochId) : Occurrence ν → Option Serving
  | handedOver i k => if i = e then some (.handed k) else none
  | buffered i k => if i = e then some (.received k) else none
  | republished i k _ => if i = e then some (.sent k) else none
  | _ => none

/-- A closed epoch whose intake is free: its dispatcher gets no more jobs and sends none. -/
def Epoch.Spent (ep : Epoch ν) : Prop := ep.closed = true ∧ ep.intake.isFree = true

namespace Epoch

variable {s : Settings} {ep ep' : Epoch ν}

/-- An open epoch may get more jobs. -/
theorem not_spent_of_open (h : ep.closed = false) : ¬ ep.Spent := fun spent =>
  absurd (h.symm.trans spent.1) (by decide)

/-- An epoch has a job to come that is in its intake. -/
theorem not_spent_of_slot {x : Entry ν} (h : ep.intake.slot = some x) : ¬ ep.Spent :=
  fun spent => by
    rw [(Intake.isFree_iff.1 spent.2).1] at h
    cases h

/-- Whoever is not the dispatcher leaves it so. -/
theorem Steady.spent (h : ep.Steady s ep') (hs : ep.Spent) : ep'.Spent :=
  ⟨h.closed hs.1, h.free (.inl hs.1) hs.2⟩

/-- A flush sends the jobs of the backlog one after the other, each from the front. -/
theorem serves?_flushUpTo (s : Settings) (n : Nat) (ep : Epoch ν) :
    Serving.serves? ((ep.flushUpTo s n).moved.map fun o => .sent o.2.ticket)
      (ep.backlog.map (·.ticket)) = some ((ep.flushUpTo s n).epoch.backlog.map (·.ticket)) := by
  induction n generalizing ep with
  | zero => rfl
  | succ n ih =>
    rw [flushUpTo]
    cases hb : ep.backlog with
    | nil => simp [Backlog.takeFront?, hb]
    | cons x rest =>
      simp only [Backlog.takeFront?]
      cases ho : { ep with backlog := Backlog.closeGap rest }.offer s x with
      | full => simp
      | closed => simp
      | placed tier ep' =>
        have hback : ep'.backlog = Backlog.closeGap rest := (offer_frame ho).2.2.2.2.1
        have hmap : (Backlog.closeGap rest).map (·.ticket) =
            Backlog.closeGap (rest.map (·.ticket)) := by
          obtain rfl | ⟨ys, y, rfl⟩ := rest.eq_nil_or_concat
          · rfl
          · simp
        simp only [List.map_cons]
        refine Serving.serves?_sent.2 ⟨_, rfl, ?_⟩
        rw [← hmap, ← hback]
        exact ih ep'

/-- A flush sends nothing from a closed epoch. -/
theorem moved_flush_of_closed (h : ep.closed = true) : (ep.flush s).moved = [] := by
  unfold flush
  cases ep.backlog.length with
  | zero => rfl
  | succ n =>
    rw [flushUpTo]
    cases hb : Backlog.takeFront? ep.backlog with
    | none => rfl
    | some front =>
      have ho : { ep with backlog := front.2 }.offer s front.1 = .closed := offer_eq_closed.2 h
      simp only [ho]

end Epoch

namespace World

section Servings

variable (w : World ν) (e : EpochId)

/-- What has happened on the way through the dispatcher of an epoch, in order. -/
abbrev servings : List Serving := w.picked (Occurrence.serving? e)

variable {w} in
theorem Aside.servings {u : World ν} (h : Aside w u) : u.servings e = w.servings e :=
  h.picked (fun _ => rfl) fun _ _ => rfl

end Servings

variable {w u v : World ν} {t : TaskId} {e : EpochId} {a : Option Nat} {th th' : Thread ν}
  {w' : World ν} {settings : Settings} {hook : Option Hook}

/-- What one change does to the way through the dispatcher of an epoch. -/
inductive Tending (w u : World ν) (e : EpochId) : Prop
  | still (hs : u.servings e = w.servings e)
      (hi : (u.epoch e).intake.slot = (w.epoch e).intake.slot)
      (hb : (u.epoch e).backlog = (w.epoch e).backlog)
      (spent : (w.epoch e).Spent → (u.epoch e).Spent)
  | handed {x : Entry ν} (ho : (w.epoch e).closed = false)
      (hs : u.servings e = w.servings e ++ [.handed x.ticket])
      (hw : (w.epoch e).intake.slot = none) (hu : (u.epoch e).intake.slot = some x)
      (hb : (u.epoch e).backlog = (w.epoch e).backlog)
  | received {x : Entry ν} (hs : u.servings e = w.servings e ++ [.received x.ticket])
      (hw : (w.epoch e).intake.slot = some x) (hu : (u.epoch e).intake.slot = none)
      (hb : (u.epoch e).backlog = (w.epoch e).backlog ++ [x])
  | sent (hs : u.servings e = w.servings e ++
        ((w.epoch e).flush w.settings).moved.map fun o => .sent o.2.ticket)
      (hu : u.epoch e = ((w.epoch e).flush w.settings).epoch)
  | discarded {x : Entry ν} (hs : u.servings e = w.servings e)
      (hi : (u.epoch e).intake = (w.epoch e).intake)
      (hb : (w.epoch e).backlog = x :: (u.epoch e).backlog)
      (spent : (w.epoch e).Spent) (hc : (u.epoch e).closed = true)

/-- It makes no difference which state a task goes to. -/
theorem Tending.setTask (h : Tending w u e) (t : TaskId) (task : Task ν) :
    Tending w (u.setTask t task) e := by
  cases h with
  | still hs hi hb spent => exact .still hs hi hb spent
  | handed ho hs hw hu hb => exact .handed ho hs hw hu hb
  | received hs hw hu hb => exact .received hs hw hu hb
  | sent hs hu => exact .sent hs hu
  | discarded hs hi hb spent hc => exact .discarded hs hi hb spent hc

/-- What leaves the place of the intake and the backlog alone is nothing to the dispatcher. -/
theorem Tending.of_steady (hs : u.servings e = w.servings e)
    (hi : (u.epoch e).intake.slot = (w.epoch e).intake.slot)
    (steady : (w.epoch e).Steady w.settings (u.epoch e)) : Tending w u e :=
  .still hs hi steady.backlog steady.spent

/-- A job is handed over to the dispatcher of this epoch, or to that of another one. -/
theorem tending_handOver {i : EpochId} (hv : v.epochs = w.epochs)
    (hs : v.servings e = w.servings e) (he : i < w.epochs.size) (ho : (w.epoch i).closed = false)
    (hi : (w.epoch i).intake.slot = none) (x : Entry ν) : Tending w (v.handOver i x) e := by
  have hve : v.epoch = w.epoch := by
    funext j
    rw [epoch, hv, ← epoch]
  by_cases hie : i = e
  · subst hie
    have hep : (v.handOver i x).epoch i = { v.epoch i with intake := (v.epoch i).intake.put x } :=
      epoch_modifyEpoch_self v i _ (hv ▸ he)
    rw [hve] at hep
    exact .handed (x := x) ho (by simp [handOver, Occurrence.serving?, hs]) hi (by rw [hep]; rfl)
      (by rw [hep])
  · have hep : (v.handOver i x).epoch e = v.epoch e := epoch_modifyEpoch_of_ne v i _ (Ne.symm hie)
    rw [hve] at hep
    exact .still (by simp [handOver, Occurrence.serving?, hie, hs]) (by rw [hep]) (by rw [hep])
      (by rw [hep]; exact id)

/-- Code has to do with the dispatcher only as it hands over a job. -/
theorem Shift.tending (h : Shift t a th w th' w') (hw : w.Sound) (ho : w.Orderly)
    (steady : (w.epoch e).Steady w.settings (w'.epoch e)) : Tending w w' e := by
  have same : ∀ {i : EpochId} {f : Epoch ν → Epoch ν},
      (f (w.epoch i)).intake.slot = (w.epoch i).intake.slot →
        ((w.modifyEpoch i f).epoch e).intake.slot = (w.epoch e).intake.slot := fun {i f} hf =>
    modifyEpoch_keeps w i f (fun ep => ep.intake.slot) hf e
  cases h with
  | @abandoned i n rest x ep hl hd =>
    exact .of_steady (by simp [Occurrence.serving?])
      (same (i := i) (f := fun _ => ep) (by rw [(Epoch.drain_frame hd).2.2.1])) steady
  | @halted i =>
    exact .of_steady (by simp [Occurrence.serving?])
      (same (i := i) (f := fun ep => { ep with closed := true }) rfl) steady
  | aside ha =>
    exact .of_steady (ha.servings e) (by rw [epoch, ha.epochs, ← epoch]) steady
  | @queued job _ _ _ _ i tier ep _ _ _ _ hp =>
    exact .of_steady (by simp [Occurrence.serving?])
      (same (i := i) (f := fun _ => ep) (by rw [(Epoch.offer_frame hp).2.2.2.1])) steady
  | @hired job _ _ _ _ i =>
    exact .of_steady (by simp [hire, Occurrence.serving?])
      (same (i := i) (f := fun ep => { ep with temps := ep.temps + 1 }) rfl) steady
  | @handedOver job _ _ _ _ i _ _ _ _ hc hp _ _ hf =>
    exact tending_handOver (w := w) (v := w.draw job) rfl (by simp [Occurrence.serving?])
      (hw.current_lt i hc)
      (Epoch.offer_eq_full.1 hp).1 (Intake.isFree_iff.1 hf).1 _
  | @joined job _ _ _ _ i =>
    exact .of_steady (by simp [Occurrence.serving?])
      (same (i := i) (f := fun ep => { ep with intake := ep.intake.join t }) rfl) steady
  | @granted job _ _ _ _ i k _ _ _ hc _ hg =>
    have he : i < w.epochs.size := by
      by_contra hge
      rw [epoch_of_size_le w i (Nat.not_lt.1 hge)] at hg
      cases hg
    exact tending_handOver rfl rfl he hc ((ho i).slot_eq (by simp [hg])) _
  | @gaveUp i k =>
    exact .of_steady (by simp [giveUp, Occurrence.serving?])
      (same (i := i) (f := fun ep => { ep with intake := ep.intake.leave t })
        (Intake.slot_leave _ _)) steady
  | _ => exact .of_steady (by simp [Occurrence.serving?]) (by simp) steady

/-- A change of one epoch that leaves alone what its dispatcher gets and holds. -/
theorem tending_modifyEpoch {i : EpochId} {f : Epoch ν → Epoch ν}
    (hu : u.epoch e = (w.modifyEpoch i f).epoch e) (hs : u.servings e = w.servings e)
    (hi : (f (w.epoch i)).intake.slot = (w.epoch i).intake.slot)
    (hb : (f (w.epoch i)).backlog = (w.epoch i).backlog)
    (spent : (w.epoch i).Spent → (f (w.epoch i)).Spent) : Tending w u e := by
  obtain hsame | ⟨rfl, hself⟩ := w.epoch_modifyEpoch_cases i f e
  · rw [hsame] at hu
    exact .still hs (by rw [hu]) (by rw [hu]) (by rw [hu]; exact id)
  · rw [hself] at hu
    exact .still hs (by rw [hu, hi]) (by rw [hu, hb]) (by rwa [hu])

/-- A dispatcher takes a job from the intake of this epoch, or of another one. -/
theorem tending_takeIn {i : EpochId} {x : Entry ν} {intake : Intake (Entry ν)}
    (he : i < w.epochs.size) (hi : (w.epoch i).intake.take? = some (x, intake)) :
    Tending w (w.takeIn i x intake) e := by
  obtain ⟨hslot, hintake⟩ := Intake.take?_eq_some.1 hi
  let f := fun ep : Epoch ν => { ep with intake, backlog := ep.backlog ++ [x] }
  by_cases hie : i = e
  · subst hie
    have hep : (w.takeIn i x intake).epoch i = f (w.epoch i) := epoch_modifyEpoch_self w i f he
    refine .received (x := x) (by simp [takeIn, Occurrence.serving?]) hslot ?_ (by rw [hep])
    rw [hep, show (f (w.epoch i)).intake = intake from rfl, hintake, Intake.slot_grantNext]
  · have hep : (w.takeIn i x intake).epoch e = w.epoch e :=
      epoch_modifyEpoch_of_ne w i f (Ne.symm hie)
    exact .still (by simp [takeIn, Occurrence.serving?, hie]) (by rw [hep]) (by rw [hep])
      (by rw [hep]; exact id)

/-- One change does one thing on the way through the dispatcher of an epoch. -/
theorem Change.tending (c : Change w u) (hw : w.Sound) (ho : w.Orderly) (hd : w.Dispatched) :
    Tending w u e := by
  have quiet : ∀ {v : World ν}, v.epoch e = w.epoch e → v.servings e = w.servings e →
      Tending w v e := fun hv hs => .still hs (by rw [hv]) (by rw [hv]) (by rw [hv]; exact id)
  cases c with
  | aside ha => exact quiet (by rw [epoch, ha.epochs, ← epoch]) (ha.servings e)
  | code ht hth h =>
    have steady := h.steady ((hw.tasks _ _ ht).thread _ hth) (fun hn i => (hd.unused hn i).2) e
    exact (h.tending hw ho steady).setTask _ _
  | welcomed => exact quiet (by simp [assign]) (by simp [assign, Occurrence.serving?])
  | lost => exact quiet (by simp) (by simp [Occurrence.serving?])
  | @claimed t i _ _ _ x ep _ hc hq =>
    obtain ⟨hclosed, -, hintake, hback⟩ := Epoch.claim_frame hq
    exact tending_modifyEpoch (i := i) (f := fun _ => ep) rfl
      (by simp [assign, Occurrence.serving?]) (by rw [hintake]) hback
      (by rw [Epoch.Spent, Epoch.Spent, hclosed, hintake]; exact id)
  | finished _ _ hos =>
    refine quiet (by simp) ?_
    obtain ⟨_, rfl⟩ | ⟨p, _, rfl⟩ := hos <;> simp [Occurrence.serving?]
  | @retired t i =>
    exact tending_modifyEpoch (i := i) (f := fun ep => { ep with temps := ep.temps - 1 })
      (by simp) (by simp [Occurrence.serving?]) rfl rfl id
  | @flushed t i ht =>
    by_cases hie : i = e
    · subst hie
      refine .sent ?_ ?_
      · simp [List.filterMap_map, Function.comp_def, Occurrence.serving?]
      · rw [epoch_setTask, epoch_recordAll]
        exact epoch_modifyEpoch_self w i _ (hw.home_lt ht rfl)
    · refine quiet ?_ ?_
      · rw [epoch_setTask, epoch_recordAll]
        exact epoch_modifyEpoch_of_ne w i _ (Ne.symm hie)
      · simp [List.filterMap_map, Function.comp_def, Occurrence.serving?, hie]
  | @woken t i ht hc =>
    exact tending_modifyEpoch (i := i) (f := fun ep => { ep with freed := false }) rfl rfl rfl
      rfl id
  | @tookIn t i x intake ht _ hi =>
    exact (tending_takeIn (hw.home_lt ht rfl) hi).setTask _ _
  | @shut t i state ht =>
    exact tending_modifyEpoch (i := i) (f := fun ep => { ep with intake := ep.intake.close }) rfl
      rfl rfl rfl id
  | @collected t i state x intake ht _ hi =>
    exact (tending_takeIn (hw.home_lt ht rfl) hi).setTask _ _
  | @discarded t i x rest ht hb =>
    obtain ⟨-, closed, free⟩ := hd.fits t i _ ht
    by_cases hie : i = e
    · subst hie
      have hep := epoch_modifyEpoch_self w i (fun ep => { ep with backlog := rest })
        (hw.home_lt ht rfl)
      refine .discarded (x := x) (by simp [Occurrence.serving?]) ?_ ?_ ⟨closed, free⟩ ?_ <;>
        rw [epoch_setTask, epoch_record, hep]
      · exact hb
      · exact closed
    · refine quiet ?_ (by simp [Occurrence.serving?])
      rw [epoch_setTask, epoch_record]
      exact epoch_modifyEpoch_of_ne w i _ (Ne.symm hie)
  | _ => exact quiet rfl rfl

/-- The dispatcher of an epoch receives what was handed over, in order, and sends what stands in
front, for as long as it may be handed anything. -/
structure Tended (w : World ν) (e : EpochId) : Prop where
  handed : Serving.handedIn (w.servings e) = Serving.receivedIn (w.servings e) ++
    (w.epoch e).intake.slot.toList.map (·.ticket)
  row : ∃ row, Serving.serves? (w.servings e) [] = some row ∧
    (w.epoch e).backlog.map (·.ticket) <:+ row ∧
    (row = (w.epoch e).backlog.map (·.ticket) ∨ (w.epoch e).Spent)

/-- Whatever is done on the way through the dispatcher is done in order. -/
theorem Tending.tended (c : Tending w u e) (h : w.Tended e) : u.Tended e := by
  obtain ⟨handed, row, hrow, hsuffix, hback⟩ := h
  cases c with
  | still hs hi hb spent =>
    refine ⟨by rw [hs, hi, handed], row, by rw [hs, hrow], ?_⟩
    rw [hb]
    exact ⟨hsuffix, hback.imp_right spent⟩
  | @handed x ho hs hw hu hb =>
    have hrow' := hback.resolve_right (Epoch.not_spent_of_open ho)
    refine ⟨by simp [hs, hu, handed, hw], row, ?_, ?_⟩
    · simp [hs, Serving.serves?_append, hrow]
    · rw [hb]
      exact ⟨hsuffix, .inl hrow'⟩
  | @received x hs hw hu hb =>
    have hrow' := hback.resolve_right (Epoch.not_spent_of_slot hw)
    have hnew : row ++ [x.ticket] = (u.epoch e).backlog.map (·.ticket) := by
      rw [hb, hrow', List.map_append]
      rfl
    refine ⟨by simp [hs, hu, handed, hw], row ++ [x.ticket], ?_, hnew ▸ List.suffix_rfl, .inl hnew⟩
    simp [hs, Serving.serves?_append, hrow]
  | sent hs hu =>
    have flushes := Epoch.flushes_flush w.settings (w.epoch e)
    refine ⟨?_, ?_⟩
    · rw [hs, hu, flushes.intake]
      simp [handed]
    · obtain rfl | spent := hback
      · refine ⟨_, ?_, List.suffix_rfl, .inl rfl⟩
        rw [hs, hu, Serving.serves?_append, hrow]
        exact Epoch.serves?_flushUpTo _ _ _
      · refine ⟨row, ?_, ?_⟩
        · rw [hs, Epoch.moved_flush_of_closed spent.1, List.map_nil, List.append_nil, hrow]
        · rw [hu, Epoch.epoch_flush_of_closed spent.1]
          exact ⟨hsuffix, .inr spent⟩
  | discarded hs hi hb spent hc =>
    rw [hb] at hsuffix
    exact ⟨by rw [hs, hi, handed], row, by rw [hs, hrow], (List.suffix_cons _ _).trans hsuffix,
      .inr ⟨hc, by rw [hi]; exact spent.2⟩⟩

/-- In every state that a pool comes to its dispatchers have kept the order. -/
theorem Evolved.tended (h : Evolved settings hook w) (e : EpochId) : w.Tended e := by
  induction h with
  | opened =>
    have blank : ({ settings, hook } : World ν).launch.servings e = [] := by
      rw [servings, picked_launch]
      rfl
    refine ⟨?_, [], ?_, ?_⟩
    · rw [blank, epoch_launch]
      rfl
    · rw [blank]
      rfl
    · rw [epoch_launch]
      exact ⟨List.suffix_rfl, .inl rfl⟩
  | next h c ih => exact (c.tending h.sound h.orderly h.dispatched).tended ih

/-- A job is handed over no more often than it is accepted. -/
theorem count_handedIn_le (os : List (Occurrence ν)) (e : EpochId) (k : Nat) :
    (Serving.handedIn (os.filterMap (Occurrence.serving? e))).count k ≤
      (os.filterMap Occurrence.booking?).count (.accepted e k) := by
  rw [Serving.handedIn, List.filterMap_filterMap, List.count_filterMap, List.count_filterMap]
  refine List.countP_mono_left fun o _ ho => ?_
  rw [beq_iff_eq, Option.bind_eq_some_iff] at ho
  obtain ⟨s, hs, hk⟩ := ho
  cases o <;> simp only [Occurrence.serving?, Option.ite_none_right_eq_some, Option.some.injEq,
    reduceCtorEq] at hs
  all_goals
    obtain ⟨rfl, rfl⟩ := hs
    cases hk
  exact beq_self_eq_true _

/-- No dispatcher receives a job twice. -/
theorem Evolved.nodup_received (h : Evolved settings hook w) (e : EpochId) :
    (Serving.receivedIn (w.servings e)).Nodup := by
  have nodup : (Serving.handedIn (w.servings e)).Nodup := by
    refine List.nodup_iff_count_le_one.2 fun k => (count_handedIn_le _ e k).trans ?_
    rw [← books]
    by_cases ha : w.AcceptedBy e k
    · rw [h.ledger.count_accepted ha e, if_pos rfl]
    · rw [List.count_eq_zero.2 ha]
      exact Nat.zero_le 1
  rw [(h.tended e).handed] at nodup
  exact nodup.of_append_left

/-- A dispatcher that gets no more jobs does nothing any more that could be seen. -/
theorem Changes.servings_of_spent (c : Changes w u) (h : Evolved settings hook w)
    (spent : (w.epoch e).Spent) : u.servings e = w.servings e ∧ (u.epoch e).Spent := by
  induction c with
  | refl => exact ⟨rfl, spent⟩
  | @tail v u before c ih =>
    obtain ⟨hs, spent⟩ := ih
    have hv := h.changes before
    cases c.tending hv.sound hv.orderly hv.dispatched with
    | still hs' hi hb keeps => exact ⟨hs'.trans hs, keeps spent⟩
    | handed ho => exact absurd spent (Epoch.not_spent_of_open ho)
    | received _ hw => exact absurd spent (Epoch.not_spent_of_slot hw)
    | sent hs' hu =>
      rw [Epoch.moved_flush_of_closed spent.1, List.map_nil, List.append_nil] at hs'
      rw [Epoch.epoch_flush_of_closed spent.1] at hu
      exact ⟨hs'.trans hs, hu ▸ spent⟩
    | discarded hs' hi hb _ hc => exact ⟨hs'.trans hs, hc, by rw [hi]; exact spent.2⟩

end World

end WorkerPool
