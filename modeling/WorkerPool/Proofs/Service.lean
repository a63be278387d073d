import WorkerPool.Proofs.Workers

/-!
# What workers tell the hook

A temporary worker tells the hook that it joins before anything else and that it leaves after
everything else; in between, a worker of either kind tells the panics that escaped its jobs. The
first call that panics is the last one. Only one other thing ends a worker before its time: an idle
time that the clock cannot show, after a job of a temporary worker that was queued.
-/

namespace WorkerPool

variable {ν : Type}

/-- A worker says that it leaves. -/
def HookCall.isLeave : HookCall → Bool
  | leave _ => true
  | _ => false

namespace HookCall

@[simp] theorem isLeave_join (live : Nat) : (join live).isLeave = false := rfl
@[simp] theorem isLeave_panicked (message : String) : (panicked message).isLeave = false := rfl
@[simp] theorem isLeave_leave (live : Nat) : (leave live).isLeave = true := rfl

end HookCall

namespace History

/-- The worker has said that it leaves. -/
def hasLeft (cs : History) : Bool := cs.any (·.1.isLeave)

/-- The hook panicked before the worker said that it leaves. -/
def isStruck (cs : History) : Bool := cs.any fun c => !c.1.isLeave && c.2.isSome

/-- The hook never panicked. -/
def isCalm (cs : History) : Bool := cs.all (·.2.isNone)

@[simp] theorem hasLeft_append (cs cs' : History) :
    (cs ++ cs').hasLeft = (cs.hasLeft || cs'.hasLeft) := List.any_append

@[simp] theorem isStruck_append (cs cs' : History) :
    (cs ++ cs').isStruck = (cs.isStruck || cs'.isStruck) := List.any_append

@[simp] theorem isCalm_append (cs cs' : History) :
    (cs ++ cs').isCalm = (cs.isCalm && cs'.isCalm) := List.all_append

@[simp] theorem hasLeft_singleton (c : HookCall × Option Panic) :
    hasLeft [c] = c.1.isLeave := by simp [hasLeft]

@[simp] theorem isStruck_singleton (c : HookCall × Option Panic) :
    isStruck [c] = (!c.1.isLeave && c.2.isSome) := by simp [isStruck]

@[simp] theorem isCalm_singleton (c : HookCall × Option Panic) :
    isCalm [c] = c.2.isNone := by simp [isCalm]

/-- A hook that never panicked has struck no one. -/
theorem isStruck_of_isCalm {cs : History} (h : cs.isCalm = true) : cs.isStruck = false := by
  refine List.any_eq_false.2 fun c hc => ?_
  simp [Option.isNone_iff_eq_none.1 (List.all_eq_true.1 h c hc)]

end History

/-- What a call of the hook that returns leaves in the history of a worker. -/
def Hook.returned (hook : Option Hook) (call : HookCall) : History :=
  if hook.isSome then [(call, none)] else []

/-- What a worker in service has told the hook. -/
inductive InService (hook : Option Hook) (kind : WorkerKind) :
    History → Prop
  /-- A permanent worker says nothing as it begins. -/
  | fresh (hk : kind ≠ .temporary) : InService hook kind []
  /-- A temporary worker says that it joins. -/
  | joined (hk : kind = .temporary) (live : Nat) :
      InService hook kind (Hook.returned hook (.join live))
  /-- A panic escaped a job. -/
  | panicked {cs : History} (h : InService hook kind cs) (message : String) :
      InService hook kind (cs ++ Hook.returned hook (.panicked message))

/-- What a worker that is over has told the hook; `crashed` if a panic ended it, and `untimed` if
that may be because the clock cannot show the end of its idle time. -/
inductive Ended (hook : Option Hook) (untimed : Prop) (kind : WorkerKind) :
    Bool → History → Prop
  /-- A permanent worker says nothing as it leaves. -/
  | left (hk : kind ≠ .temporary) {cs : History}
      (h : InService hook kind cs) : Ended hook untimed kind false cs
  /-- A temporary worker says that it leaves. -/
  | retired (hk : kind = .temporary) {cs : History}
      (h : InService hook kind cs) (live : Nat) :
      Ended hook untimed kind false (cs ++ Hook.returned hook (.leave live))
  /-- The hook panicked as it joined. -/
  | failed (hk : kind = .temporary) (live : Nat) (p : Panic) :
      Ended hook untimed kind true [(.join live, some p)]
  /-- The hook panicked over a panic of a job. -/
  | upset {cs : History} (h : InService hook kind cs) (message : String)
      (p : Panic) : Ended hook untimed kind true (cs ++ [(.panicked message, some p)])
  /-- The hook panicked as it left. -/
  | slammed (hk : kind = .temporary) {cs : History}
      (h : InService hook kind cs) (live : Nat) (p : Panic) :
      Ended hook untimed kind true (cs ++ [(.leave live, some p)])
  /-- The clock could not show the end of its idle time. -/
  | overrun (hk : kind = .temporary) {cs : History}
      (h : InService hook kind cs) (hu : untimed) : Ended hook untimed kind true cs

/-- What a worker in this state has told the hook. -/
def WorkerState.Tells (hook : Option Hook) (untimed : Prop) (kind : WorkerKind)
    (cs : History) : WorkerState ν → Prop
  | hired => kind ≠ .temporary ∧ cs = []
  | seeded .. => kind = .temporary ∧ cs = []
  | idle _ | busy .. | leaving => InService hook kind cs
  | gone crashed => Ended hook untimed kind crashed cs

namespace InService

variable {hook : Option Hook} {kind : WorkerKind} {cs : History}

/-- No call of a worker in service panicked, and it has not said that it leaves. -/
theorem isCalm_hasLeft (h : InService hook kind cs) : cs.isCalm = true ∧ cs.hasLeft = false := by
  have returned : ∀ call : HookCall, (Hook.returned hook call).isCalm = true ∧
      (call.isLeave = false → (Hook.returned hook call).hasLeft = false) := by
    intro call
    unfold Hook.returned
    split <;> simp [History.isCalm, History.hasLeft]
  induction h with
  | fresh => exact ⟨rfl, rfl⟩
  | joined _ live => exact (returned _).imp id fun h => h rfl
  | panicked _ message ih =>
    obtain ⟨hcalm, hleft⟩ := returned (.panicked message)
    simp [ih.1, ih.2, hcalm, hleft rfl]

end InService

/-- A worker that a panic ended has said that it leaves, or the hook struck it before, or no call of
the hook panicked and the clock could not show the end of its idle time. -/
theorem Ended.crashed_cases {hook : Option Hook} {untimed : Prop} {kind : WorkerKind} {cs : History}
    (h : Ended hook untimed kind true cs) :
    (cs.hasLeft = true ∧ cs.isStruck = false ∧ cs.isCalm = false) ∨
      (cs.hasLeft = false ∧ cs.isStruck = true ∧ cs.isCalm = false) ∨
      cs.hasLeft = false ∧ cs.isStruck = false ∧ cs.isCalm = true ∧ untimed := by
  cases h with
  | failed => exact .inr (.inl ⟨rfl, rfl, rfl⟩)
  | upset hs message p =>
    exact .inr (.inl (by simp [hs.isCalm_hasLeft]))
  | slammed hk hs live p =>
    exact .inl (by simp [History.isStruck_of_isCalm hs.isCalm_hasLeft.1])
  | overrun hk hs hu =>
    obtain ⟨hc, hl⟩ := hs.isCalm_hasLeft
    exact .inr (.inr ⟨hl, History.isStruck_of_isCalm hc, hc, hu⟩)

/-- The history of a worker that is over remains one. -/
theorem Ended.mono {hook : Option Hook} {untimed untimed' : Prop} {kind : WorkerKind}
    {crashed : Bool} {cs : History} (h : Ended hook untimed kind crashed cs)
    (hu : untimed → untimed') : Ended hook untimed' kind crashed cs := by
  cases h with
  | left hk h => exact .left hk h
  | retired hk h live => exact .retired hk h live
  | failed hk live p => exact .failed hk live p
  | upset h message p => exact .upset h message p
  | slammed hk h live p => exact .slammed hk h live p
  | overrun hk h ho => exact .overrun hk h (hu ho)

/-- What a worker that is not over has told the hook does not depend on the clock. -/
theorem WorkerState.Tells.mono {hook : Option Hook} {untimed untimed' : Prop}
    {kind : WorkerKind} {cs : History} {state : WorkerState ν}
    (h : state.Tells hook untimed kind cs) (hu : untimed → untimed') :
    state.Tells hook untimed' kind cs := by
  cases state with
  | gone => exact Ended.mono h hu
  | _ => exact h

namespace World

variable {w u : World ν} {t : TaskId} {e : EpochId} {kind : WorkerKind}

/-- The clock cannot show the end of an idle time that begins now. -/
def Untimed (w : World ν) : Prop := w.deadline? w.settings.idleTimeout = none

/-- Once the clock is too late for a deadline it remains so. -/
theorem deadline?_eq_none_of_le {time : Duration} (h : w.deadline? time = none)
    (hc : w.clock ≤ u.clock) : u.deadline? time = none := by
  unfold deadline? at h ⊢
  rw [ite_eq_right_iff] at h ⊢
  intro hlt
  have hle : (1000000 * w.clock + time.nanos) / 1000000000 ≤
      (1000000 * u.clock + time.nanos) / 1000000000 :=
    Nat.div_le_div_right (by omega)
  exact absurd (h (Nat.lt_of_le_of_lt hle hlt)) (by simp)

/-- Code does not turn the clock. -/
theorem Shift.clock_le {a : Option Nat} {th th' : Thread ν} {w' : World ν}
    (h : Shift t a th w th' w') : w.clock ≤ w'.clock := by
  cases h with
  | aside ha => exact ha.clock
  | launched => simp [launch_eq]
  | deed => simp
  | callbackDeed => simp
  | _ => exact le_rfl

/-- Time does not go back. -/
theorem Change.clock_le (c : Change w u) : w.clock ≤ u.clock := by
  have set : ∀ (v : World ν) (i : TaskId) (task : Task ν),
      (v.setTask i task).clock = v.clock := fun _ _ _ => rfl
  have modify : ∀ (v : World ν) (i : EpochId) (f : Epoch ν → Epoch ν),
      (v.modifyEpoch i f).clock = v.clock := fun _ _ _ => rfl
  cases c with
  | aside ha => exact ha.clock
  | code _ _ h => exact h.clock_le
  | welcomed => simp [World.assign, set]
  | lost => simp [set]
  | finished => simp [set]
  | retired => simp [set, modify]
  | flushed => simp [set, modify]
  | _ => exact le_rfl

/-- An idle time that the clock could not show it cannot show later. -/
theorem Change.untimed (c : Change w u) (h : w.Untimed) : u.Untimed := by
  unfold Untimed
  rw [c.grows.settings]
  exact deadline?_eq_none_of_le h c.clock_le

/-- A call of the hook that returns is answered without a panic. -/
theorem answer_of_returned {call : HookCall} (h : (w.callHook e t call).1 = false) :
    w.answer call = Hook.returned w.hook call := w.callHook_eq_false t |>.1 h

/-- A call that is no farewell leaves none. -/
theorem hasLeft_answer {call : HookCall} (hc : call.isLeave = false) :
    History.hasLeft (w.answer call) = false := by
  unfold answer
  split
  · rfl
  · simpa using hc

/-- Every turn of a worker adds to what it has told the hook what fits its new state. -/
theorem Turn.tells {state state' : WorkerState ν} {cs cs' : History}
    (h : Turn w u t e kind state state' cs') (c : Change w u)
    (ht : state.Tells w.hook w.Untimed kind cs) :
    state'.Tells w.hook u.Untimed kind (cs ++ cs') := by
  cases h with
  | still =>
    rw [List.append_nil]
    exact ht.mono c.untimed
  | begins hk =>
    obtain ⟨_, rfl⟩ := ht
    exact .fresh hk
  | joins hh =>
    obtain ⟨hk, rfl⟩ := ht
    rw [answer_of_returned hh, List.nil_append]
    exact .joined hk _
  | fails hh =>
    obtain ⟨hk, rfl⟩ := ht
    obtain ⟨p, hp⟩ := (w.callHook_eq_true t).1 hh
    rw [hp, List.nil_append]
    exact .failed hk _ p
  | claims =>
    have served : InService w.hook kind cs := ht
    rwa [List.append_nil]
  | works =>
    have served : InService w.hook kind cs := ht
    rwa [List.append_nil]
  | finishes _ _ hcs hs hr =>
    have served : InService w.hook kind cs := ht
    obtain ⟨hend, rfl⟩ | ⟨p, hend, rfl⟩ := hcs
    · rw [List.append_nil]
      obtain ⟨rfl, _⟩ | ⟨_, rfl, _⟩ | ⟨rfl, ⟨p, hp, _⟩ | ⟨hk, _, hu⟩⟩ := hs
      · exact served
      · exact served
      · rw [hend] at hp
        cases hp
      · exact .overrun hk served (c.untimed hu)
    · cases hh : (w.callHook e t (.panicked p.message)).1 with
      | false =>
        have later : InService w.hook kind (cs ++ w.answer (.panicked p.message)) := by
          rw [answer_of_returned hh]
          exact .panicked served _
        obtain ⟨rfl, _⟩ | ⟨_, rfl, _⟩ | ⟨rfl, ⟨p', hp, hh'⟩ | ⟨hk, _, hu⟩⟩ := hs
        · exact later
        · exact later
        · rw [hend, Except.error.injEq] at hp
          subst hp
          rw [hh] at hh'
          cases hh'
        · exact .overrun hk later (c.untimed hu)
      | true =>
        obtain ⟨p', hp⟩ := (w.callHook_eq_true t).1 hh
        rw [hr p hend hh, hp]
        exact .upset served _ p'
  | quits hq =>
    rw [List.append_nil]
    obtain ⟨_, rfl, _⟩ | ⟨rfl, hk⟩ := hq
    · have served : InService w.hook kind cs := ht
      exact served
    · exact absurd hk ht.1
  | leaves hk =>
    rw [List.append_nil]
    exact .left hk ht
  | retires hk =>
    have served : InService w.hook kind cs := ht
    cases hh : (w.callHook e t (.leave ((w.epoch e).temps - 1))).1 with
    | false =>
      rw [answer_of_returned hh]
      exact .retired hk served _
    | true =>
      obtain ⟨p, hp⟩ := (w.callHook_eq_true t).1 hh
      rw [hp]
      exact .slammed hk served _ p

/-- In every state that a pool comes to each worker has told the hook what fits its state. -/
theorem Evolved.tells {settings : Settings} {hook : Option Hook} (h : Evolved settings hook w)
    {state : WorkerState ν} (ht : w.tasks[t]? = some (.worker e kind state)) :
    state.Tells hook w.Untimed kind (w.told t) := by
  refine h.worker (P := fun w t _ kind state => state.Tells hook w.Untimed kind (w.told t))
    ?_ ?_ ht
  · intro w u t e kind state _ hired _ htold
    rw [htold]
    cases hired with
    | crew => exact ⟨by simp, rfl⟩
    | seed => exact ⟨rfl, rfl⟩
  · intro w u t e kind state state' cs hw c _ hcs turn ht
    rw [hcs, ← hw.same.2]
    rw [← hw.same.2] at ht
    exact turn.tells c ht

end World

end WorkerPool
