import WorkerPool.Proofs.Closed

/-!
# When a stop returns

The task that closed an epoch drains it: it abandons what is queued there, in order, and goes on
with what it was about once nothing is left. Whatever the callbacks of the abandoned jobs do, and
whatever the others do meanwhile, no move but its own ends the drain.
-/

namespace WorkerPool

variable {ν : Type}

namespace World

variable {w u v : World ν} {e : EpochId} {t i : TaskId} {k n : Nat} {th th' : Thread ν}
  {below : List (Layer ν)} {settings : Settings} {hook : Option Hook}

/-- A run is made of changes. -/
theorem Evolved.changes_of_run (h : Evolved settings hook w) (r : Run w v) : Changes w v := by
  induction r with
  | refl => exact .refl
  | tail _ m ih => exact ih.trans (m.changes (h.changes ih).sound)

section Drain

/-- Task `t` drains epoch `e` and has taken `n` jobs out of it; when it is through it goes on with
these layers and this body. -/
def DrainsAt (v : World ν) (e : EpochId) (t : TaskId) (n : Nat) (below : List (Layer ν))
    (body : Script (Act ν) Unit) : Prop :=
  ∃ th, v.thread? t = some th ∧ th.body = body ∧ (.drain e n :: below) <:+ th.layers

variable {body : Script (Act ν) Unit}

/-- A task that drains an epoch has something to do. -/
theorem DrainsAt.exists_layers (h : w.DrainsAt e t n below body) :
    ∃ th, w.thread? t = some th ∧ th.layers ≠ [] ∧ th.body = body ∧
      (.drain e n :: below) <:+ th.layers := by
  obtain ⟨th, ht, hb, hs⟩ := h
  refine ⟨th, ht, ?_, hb, hs⟩
  rintro hnil
  rw [hnil] at hs
  simp at hs

/-- A task that drains an epoch can go on. -/
theorem DrainsAt.ready (h : w.DrainsAt e t n below body) : w.ready t = true := by
  obtain ⟨th, ht, hl, _⟩ := h.exists_layers
  obtain ⟨task, htask, hth⟩ := thread?_eq_some.1 ht
  exact (step_of_layers htask hth hl).1

/-- A drain counts among all. -/
theorem DrainsAt.total_pos (h : w.DrainsAt e t n below body) : 0 < w.total (Task.drains e) := by
  obtain ⟨th, ht, _, hs⟩ := h
  obtain ⟨task, htask, hth⟩ := thread?_eq_some.1 ht
  have hle := le_sum_map (Task.drains e) (l := w.tasks.toList) (i := t) (by simpa using htask)
  have hcount := hs.sublist.countP_le (p := Layer.drains e)
  rw [Task.drains_of_thread? hth] at hle
  simp only [List.countP_cons, Layer.drains_drain, decide_true, if_true] at hcount
  rw [total]
  omega

/-- The drain of a closed epoch goes on until nothing is queued there. -/
theorem Changes.drainsAt (h : Changes w v) (hw : Evolved settings hook w)
    (hc : (w.epoch e).closed = true) (hd : w.DrainsAt e t n below body) :
    (∃ m, n ≤ m ∧ m - n ≤ (w.epoch e).queue.length ∧ v.DrainsAt e t m below body ∧
      (v.epoch e).queue = (w.epoch e).queue.drop (m - n)) ∨
        (v.epoch e).queue = [] ∧ v.total (Task.drains e) = 0 := by
  induction h with
  | refl => exact .inl ⟨n, le_rfl, by omega, hd, by simp⟩
  | @tail v x before c ih =>
    have hv := hw.changes before
    have hcv := (Changes.grows before).closed e (lt_of_closed hc) hc
    obtain ⟨m, hm, hle, ⟨th, ht, hb, hs⟩, hq⟩ | ⟨hq, hz⟩ := ih
    · obtain ⟨th', ht', hb', ⟨hs', hq'⟩ | ⟨hs', job, hq'⟩⟩ | ⟨_, hq', hz⟩ :=
        c.drain_cases hv hcv ht hs
      · exact .inl ⟨m, hm, hle, ⟨th', ht', hb'.trans hb, hs'⟩, hq'.trans hq⟩
      · obtain ⟨hlt, hrest, _⟩ := take_succ_of_drop (hq.symm.trans hq')
        have hsucc : m + 1 - n = m - n + 1 := by omega
        exact .inl ⟨m + 1, by omega, by omega, ⟨th', ht', hb'.trans hb, hs'⟩, hsucc ▸ hrest.symm⟩
      · exact .inr ⟨hq', hz⟩
    · refine .inr ⟨?_, ?_⟩
      · cases c.fading hcv with
        | still _ hq' => exact hq'.trans hq
        | drained _ _ _ _ hq' => exact absurd (hq.symm.trans hq') (by simp)
        | discarded _ _ hq' => exact hq'.trans hq
      · have hle := c.drains_le hv.sound e
        rw [hcv, c.grows.closed e (lt_of_closed hcv) hcv, hz] at hle
        simpa using hle

/-- A step of the drains and callbacks of a thread leaves a drain where it is, or takes it one job
further, or finds it through. -/
theorem stepLayers_drain {layers : List (Layer ν)} (hs : (.drain e n :: below) <:+ layers) :
    (∃ m, (.drain e m :: below) <:+ (w.stepLayers layers).1) ∨
      layers = .drain e n :: below ∧ (w.epoch e).queue = [] := by
  have top : ∀ {layer : Layer ν} {rest : List (Layer ν)}, layers = layer :: rest →
      layer = .drain e n ∧ rest = below ∨ (.drain e n :: below) <:+ rest := by
    rintro layer rest rfl
    obtain heq | hs := List.suffix_cons_iff.1 hs
    · exact .inl ⟨(List.cons.inj heq).1.symm, (List.cons.inj heq).2.symm⟩
    · exact .inr hs
  rcases layers with _ | ⟨_ | ⟨j, _ | ⟨d, ds⟩, ending⟩, rest⟩
  · simp at hs
  · rename_i i m
    simp only [stepLayers]
    obtain ⟨hk, rfl⟩ | hs := top rfl
    · obtain ⟨rfl, rfl⟩ := Layer.drain.inj hk
      cases hd : (w.epoch i).drain? with
      | some taken => exact .inl ⟨m + 1, List.suffix_cons _ _⟩
      | none => exact .inr ⟨rfl, Epoch.drain?_eq_none_iff_queue.1 hd⟩
    · refine .inl ⟨n, ?_⟩
      cases (w.epoch i).drain? with
      | some taken => exact (hs.trans (List.suffix_cons _ _)).trans (List.suffix_cons _ _)
      | none => exact hs
  · obtain ⟨hk, _⟩ | hs' := top rfl
    · cases hk
    · cases ending <;> exact .inl ⟨n, hs'⟩
  · obtain ⟨hk, _⟩ | hs' := top rfl
    · cases hk
    · exact .inl ⟨n, (hs'.trans (List.suffix_cons _ _)).trans (List.suffix_append _ _)⟩

/-- A task with drains or callbacks to do is left with what its step leaves of them. -/
theorem thread?_step_of_layers (hw : w.Sound) (ht : w.thread? t = some th) (hl : th.layers ≠ []) :
    (w.step t).thread? t = some { th with layers := (w.stepLayers th.layers).1 } := by
  obtain ⟨task, htask, hth⟩ := thread?_eq_some.1 ht
  have shifts := shifts_stepLayers (t := t) (a := task.author?) th hw
  have hlt : t < (w.stepLayers th.layers).2.tasks.size :=
    Nat.lt_of_lt_of_le (Array.getElem?_eq_some_iff.1 htask).1 shifts.grows.tasks
  rw [(step_of_layers htask hth hl).2]
  exact thread?_eq_some.2 ⟨_, getElem?_setTask_self _ _ _ hlt, shifts.thread?_withThread hth⟩

/-- A call with drains or callbacks to do cannot be broken off. -/
theorem withdraw_of_layers (ht : w.thread? t = some th) (hl : th.layers ≠ []) :
    w.withdraw t = w := by
  obtain ⟨task, htask, hth⟩ := thread?_eq_some.1 ht
  unfold withdraw
  split
  · rename_i body wait hclient
    rw [htask, Option.some.injEq] at hclient
    subst hclient
    obtain rfl : ⟨[], body, wait⟩ = th := by simpa [Task.thread?] using hth
    exact absurd rfl hl
  · rfl

/-- Only the task that drains an epoch ends the drain, by a step that finds nothing queued. -/
theorem Move.drained (m : Move w u) (hw : w.Sound) (hd : w.DrainsAt e t n below body)
    (hz : u.total (Task.drains e) = 0) : u = w.step t ∧ (w.epoch e).queue = [] ∧
      ∃ th, w.thread? t = some th ∧ th.body = body ∧ th.layers = .drain e n :: below := by
  have gone : ∀ {m : Nat}, ¬ u.DrainsAt e t m below body := fun h => by
    have := h.total_pos
    omega
  obtain ⟨th, ht, hl, hb, hs⟩ := hd.exists_layers
  obtain ⟨task, htask, hth⟩ := thread?_eq_some.1 ht
  have hlt := (Array.getElem?_eq_some_iff.1 htask).1
  obtain hsame | rfl | rfl := m.getElem?_tasks hw hlt
  · exact absurd ⟨th, thread?_eq_some.2 ⟨task, hsame.trans htask, hth⟩, hb, hs⟩ gone
  · obtain ⟨m, hs'⟩ | ⟨heq, hq⟩ := stepLayers_drain (w := w) hs
    · exact absurd ⟨_, thread?_step_of_layers hw ht hl, hb, hs'⟩ gone
    · exact ⟨rfl, hq, th, ht, hb, heq⟩
  · rw [withdraw_of_layers ht hl] at gone
    exact absurd hd gone

/-- The step that ends a drain logs how many jobs were abandoned, if any, and nothing else. -/
theorem step_of_drained (hw : w.Sound) (ht : w.thread? t = some th)
    (hl : th.layers = .drain e n :: below) (hq : (w.epoch e).queue = []) :
    (w.step t).thread? t = some { th with layers := below } ∧ (w.step t).occurrences =
      w.occurrences ++ if n = 0 then [] else [.log none (.queuedDropped n)] := by
  have hne : th.layers ≠ [] := by simp [hl]
  have hd := Epoch.drain?_eq_none_iff_queue.2 hq
  have hstep : w.stepLayers th.layers =
      (below, if n = 0 then w else w.log (.queuedDropped n)) := by
    rw [hl]
    simp only [stepLayers, hd]
  obtain ⟨task, htask, hth⟩ := thread?_eq_some.1 ht
  refine ⟨by rw [thread?_step_of_layers hw ht hne, hstep], ?_⟩
  rw [(step_of_layers htask hth hne).2, hstep, occurrences_setTask]
  split_ifs
  · exact (List.append_nil _).symm
  · exact occurrences_record _ _

/-- The drain of epoch `e` that task `t` began at `u` is over: in a state `a` on the way to `v` all
that was queued had been abandoned, `n` jobs; then the task logged that, and went on. -/
structure DrainedAt (u a v : World ν) (e : EpochId) (t : TaskId) (n : Nat)
    (below : List (Layer ν)) (body : Script (Act ν) Unit) : Prop where
  before : Run u a
  after : Run (a.step t) v
  abandoned : ∃ m, Faded (u.epoch e) (a.epoch e) n m (a.abandonedIn e)
  empty : (a.epoch e).queue = []
  draining : ∃ th, a.thread? t = some th ∧ th.body = body ∧ th.layers = .drain e n :: below
  returns : ∃ th, (a.step t).thread? t = some th ∧ th.body = body ∧ th.layers = below
  logged : (a.step t).occurrences =
    a.occurrences ++ if n = 0 then [] else [.log none (.queuedDropped n)]

/-- Jobs leave a closed epoch only to be abandoned, in order; `n` tells how many did so that were
queued. -/
theorem Evolved.faded (hu : Evolved settings hook u) (hc : (u.epoch e).closed = true)
    (ha : u.abandonedIn e = []) (r : Run u v) :
    ∃ n m, Faded (u.epoch e) (v.epoch e) n m (v.abandonedIn e) := by
  obtain ⟨n, m, ks, hks, faded⟩ := (hu.changes_of_run r).faded hc
  rw [ha, List.nil_append] at hks
  exact ⟨n, m, hks ▸ faded⟩

/-- Once its drain is over nothing is queued in an epoch. -/
theorem DrainedAt.queue_eq_nil {a : World ν} (h : DrainedAt u a v e t n below body)
    (hu : Evolved settings hook u) (hc : (u.epoch e).closed = true) :
    (v.epoch e).queue = [] := by
  have before : Changes u a := hu.changes_of_run h.before
  have after : Changes a v :=
    (hu.changes before).changes_of_run ((Run.single (.step a t)).trans h.after)
  obtain ⟨_, _, _, _, faded⟩ := after.faded (before.grows.closed e (lt_of_closed hc) hc)
  rw [faded.queue, h.empty, List.drop_nil]

/-- All that was queued was taken if nothing is left. -/
theorem Faded.eq_length {ep ep' : Epoch ν} {m : Nat} {ks : List Nat} (h : Faded ep ep' n m ks)
    (hq : ep'.queue = []) : n = ep.queue.length := by
  have hle := List.drop_eq_nil_iff.1 (h.queue.symm.trans hq)
  have := h.le_queue
  omega

/-- Two counts of what was taken from a queue agree if the same is left. -/
theorem eq_of_drop_eq {α : Type} {l : List α} {n m : Nat} (hn : n ≤ l.length) (hm : m ≤ l.length)
    (h : l.drop n = l.drop m) : n = m := by
  have := congrArg List.length h
  simp only [List.length_drop] at this
  omega

/-- In every state after an epoch was closed, the task that closed it is still draining it, or it
has returned once all that was queued had been abandoned. -/
theorem Evolved.drainsAt_or_drainedAt (hu : Evolved settings hook u)
    (hc : (u.epoch e).closed = true) (ha : u.abandonedIn e = [])
    (hd : u.DrainsAt e t 0 below body) (r : Run u v) :
    (∃ n m, v.DrainsAt e t n below body ∧
      Faded (u.epoch e) (v.epoch e) n m (v.abandonedIn e)) ∨
        ∃ a, DrainedAt u a v e t (u.epoch e).queue.length below body := by
  induction r with
  | refl =>
    obtain ⟨n, m, faded⟩ := hu.faded hc ha (.refl u)
    obtain rfl : n = 0 := eq_of_drop_eq faded.le_queue (Nat.zero_le _) faded.queue.symm
    exact .inl ⟨0, m, hd, faded⟩
  | @tail a v r move ih =>
    obtain ⟨n, m, hda, faded⟩ | ⟨b, hb⟩ := ih
    · have hev := hu.changes (hu.changes_of_run r)
      obtain ⟨p, _, hle, hdv, hqv⟩ | ⟨_, hz⟩ :=
        (hu.changes_of_run (r.tail move)).drainsAt hu hc hd
      · obtain ⟨p', m', faded'⟩ := hu.faded hc ha (r.tail move)
        rw [Nat.sub_zero] at hle hqv
        obtain rfl := eq_of_drop_eq faded'.le_queue hle (faded'.queue.symm.trans hqv)
        exact .inl ⟨p', m', hdv, faded'⟩
      · obtain ⟨rfl, hq, th, ht, hbody, hl⟩ := move.drained hev.sound hda hz
        obtain rfl := faded.eq_length hq
        obtain ⟨hreturn, hlog⟩ := step_of_drained hev.sound ht hl hq
        exact .inr ⟨a, r, .refl _, ⟨m, faded⟩, hq, ⟨th, ht, hbody, hl⟩, ⟨_, hreturn, hbody, rfl⟩,
          hlog⟩
    · exact .inr ⟨b, { hb with after := hb.after.tail move }⟩

end Drain

end World

end WorkerPool
