import WorkerPool.Proofs.Load.Answers

/-!
# How far a load run has come

Each move of a load run leaves the driver at one of its stages. Meanwhile the counter of temporary
workers is announced by a worker whenever it reaches a new height, so the highest value that it has
had is the highest one that was announced.
-/

namespace WorkerPool

open World

namespace LoadPlan

variable {p : LoadPlan} {w u : World LoadNote} {s s' : LoadState} {peak : Nat}

section Aside

/-- The clock is nothing to clients. -/
theorem alike_setClock (w : World LoadNote) (time : Nat) :
    Alike w { w with clock := time } :=
  ⟨rfl, rfl, rfl, rfl, fun _ => rfl, rfl, fun _ _ => Iff.rfl⟩

/-- The log is nothing to clients. -/
theorem alike_log (w : World LoadNote) (notice : Notice) : Alike w (w.log notice) :=
  ⟨rfl, rfl, rfl, rfl, fun _ => rfl, w.outer_log notice, fun _ _ => Iff.rfl⟩

end Aside

section Withdraw

variable {t : TaskId} {m : Nat}

/-- To break off a call that is over changes nothing. -/
theorem withdraw_of_over
    (h : ∀ th : Thread LoadNote, w.tasks[t]? = some (.client th) → th = { body := ⟨[], .ok ()⟩ }) :
    w.withdraw t = w := by
  by_cases hc : ∃ th, w.tasks[t]? = some (.client th)
  · obtain ⟨th, ht⟩ := hc
    obtain rfl := h th ht
    obtain ⟨hlt, hget⟩ := Array.getElem?_eq_some_iff.1 ht
    have same : w.tasks.setIfInBounds t w.tasks[t] = w.tasks := by simp [Array.setIfInBounds, hlt]
    rw [withdraw_of_fresh ht, setTask, ← hget, same]
  · unfold withdraw
    split
    · exact absurd ⟨_, ‹_›⟩ hc
    · rfl

/-- A submission that is broken off before it began leaves nothing behind. -/
theorem Steered.withdraw_asked (h : p.Steered w (p.transcript m) (some 0) m 1 (some t))
    (hm : m < p.tasks) (ht : w.tasks[t]? = some (.client { body := p.submission (m + 1) })) :
    p.Stands (w.withdraw t) (.driven true) ∧ (w.withdraw t).tasks.size = w.tasks.size ∧
      ((w.withdraw t).epoch 0).temps = (w.epoch 0).temps := by
  rw [withdraw_of_fresh ht]
  have idle : p.Steered (w.setTask t (.client { body := ⟨[], .ok ()⟩ })) (p.transcript m) (some 0) m
      1 none :=
    h.setTask (fun _ _ _ hi => hi) h.size h.outer h.current h.tickets h.handles h.jobs (.inr rfl)
  refine ⟨.driven (b := false) ⟨hm.le, fun hi => by cases hi⟩ ?_, by simp, rfl⟩
  simpa [remnant] using idle

/-- A submission that is broken off while it waits in line is refused. -/
theorem Steered.withdraw_waiting
    (h : p.Steered w (p.transcript m ++ [.submitted m (p.job (m + 1))]) (some 0) (m + 1) 2 (some t))
    (hm : m < p.tasks)
    (ht : w.tasks[t]? = some (.client ⟨[], p.submission (m + 1), .inLine 0 m⟩)) :
    p.Stands (w.withdraw t) (.driven true) ∧ (w.withdraw t).tasks.size = w.tasks.size ∧
      ((w.withdraw t).epoch 0).temps = (w.epoch 0).temps := by
  rw [withdraw_of_inLine ht one_ne_zero h.handles]
  refine ⟨.driven (b := true) ⟨hm.le, fun hi => by cases hi⟩
      (h.setTask (fun _ _ _ hi => hi) ?_ ?_ h.current h.tickets rfl ?_ (.inr rfl)),
    by simp [giveUp], modifyEpoch_keeps _ 0 _ Epoch.temps rfl 0⟩
  · simpa [giveUp] using h.size
  · rw [giveUp, outer_record, outer_modifyEpoch]
    refine (congrArg (· ++ _) h.outer).trans ?_
    simp [remnant, Occurrence.isOuter]
  · intro k job hk
    rw [remnant, if_pos rfl, List.append_cons] at hk
    obtain hk | hk := List.mem_append.1 hk
    · exact h.jobs k job hk
    · cases List.mem_singleton.1 hk

end Withdraw

/-- Each move of a load run leaves the driver at one of its stages. -/
theorem Stands.move (h : p.Stands s.world s.stage)
    (hw : Evolved p.pool (some fun _ _ => none) s.world)
    (hr : s.race.Honest p.tasks s.world.answers) (m : p.Move s s') :
    p.Stands s'.world s'.stage ∧ Climbs s.world s'.world 0 := by
  have changes := m.changes hw.sound
  have hook : s.world.hook.isSome := by simp [hw.same]
  cases m with
  | step t => exact h.step hw t
  | pass time =>
    exact ⟨h.alike hw (alike_setClock _ _) changes, .of_size changes hook le_rfl le_rfl⟩
  | submit n hs hn =>
    rw [hs] at h
    cases h with
    | driving hm h =>
      refine ⟨.asked hn (h.spawn _) ?_, .spawn_client hook _⟩
      simp [spawn]
  | accepted n t hs ha =>
    rw [hs] at h
    refine ⟨?_, .refl _ 0⟩
    cases h with
    | told hm h => exact .driving hm h
    | asked hm h =>
      rw [← mem_outer rfl, h.outer] at ha
      obtain ⟨k, hk, heq⟩ := p.note_mem_transcript _ ha
      cases heq
      exact absurd hk (lt_irrefl _)
    | waits hm _ h =>
      rw [← mem_outer rfl, h.outer] at ha
      obtain ha | ha := List.mem_append.1 ha
      · obtain ⟨k, hk, heq⟩ := p.note_mem_transcript _ ha
        cases heq
        exact absurd hk (lt_irrefl _)
      · cases List.mem_singleton.1 ha
  | count | await => exact ⟨h, .refl _ 0⟩
  | drained n hs hn hf =>
    rw [hs] at h
    refine ⟨?_, .refl _ 0⟩
    cases h with
    | @driving m hm h =>
      obtain rfl : m = p.tasks := Nat.le_antisymm hm (Nat.lt_succ_iff.1 hn)
      have started := fun k hk => h.started_of_answers hw (hr.le_of_finished hf) (k := k) hk
      exact .driven (b := false) ⟨le_rfl, fun _ => ⟨rfl, rfl, started⟩⟩
        (by simpa [remnant] using h)
  | interrupted n hs =>
    rw [hs] at h
    cases h with
    | driving hm h =>
      refine ⟨.driven (b := false) ⟨hm, fun hi => by cases hi⟩ ?_,
        .of_size changes hook le_rfl le_rfl⟩
      simpa [remnant] using h.alike (alike_log _ _)
  | brokenOff n t hs =>
    rw [hs] at h
    have broke : p.Stands (s.world.withdraw t) (.driven true) ∧
        (s.world.withdraw t).tasks.size = s.world.tasks.size ∧
          ((s.world.withdraw t).epoch 0).temps = (s.world.epoch 0).temps := by
      cases h with
      | asked hm h ht => exact h.withdraw_asked hm ht
      | waits hm _ h ht => exact h.withdraw_waiting hm ht
      | told hm h =>
        rw [withdraw_of_over fun th ht => h.idle t th ht (by simp)]
        exact ⟨.driven (b := false) ⟨hm, fun hi => by cases hi⟩ (by simpa [remnant] using h),
          rfl, rfl⟩
    obtain ⟨stands, size, temps⟩ := broke
    exact ⟨stands.alike (hw.changes (changes_withdraw hw.sound t)) (alike_log _ _)
      (.single (.aside (.log _ _))), .of_size changes hook size.le temps.le⟩
  | close i hs =>
    rw [hs] at h
    cases h with
    | driven hd h =>
      refine ⟨.closes (hd.changes changes) (h.spawn _) ?_, .spawn_client hook _⟩
      simp [spawn]

section Course

/-- The driver begins with the first task. -/
theorem stands_of_opened (h : World.opened p.pool (some fun _ _ => none) = .ok w) :
    p.Stands w (.driving 1) := by
  obtain ⟨-, rfl⟩ := launch_of_opened h
  refine .driving (m := 0) (Nat.zero_le _) ⟨by simp, ?_, by simp, by simp, by simp [launch_eq], ?_,
    fun i th hi _ => ?_⟩
  · rw [World.outer, occurrences_launch]
    simp only [occurrences, transcript]
    rfl
  · intro k job hk
    exact ((p.submitted_mem_transcript 0).1 hk).2
  · obtain ⟨_, hm⟩ | hold := getElem?_launch_cases hi
    · obtain ⟨_, _, heq⟩ | ⟨_, heq⟩ := mem_crew.1 hm <;> cases heq
    · simp at hold

/-- A pool that has just been started announces nothing. -/
theorem not_announces_of_opened (h : World.opened p.pool (some fun _ _ => none) = .ok w) (n : Nat) :
    ¬ w.Announces 0 n := by
  obtain ⟨-, rfl⟩ := launch_of_opened h
  rintro ⟨t, kind, state, ht, h⟩
  obtain ⟨_, hm⟩ | hold := getElem?_launch_cases ht
  · obtain ⟨_, rfl⟩ | ⟨_, hm'⟩ := h
    · obtain ⟨_, _, heq⟩ | ⟨_, heq⟩ := mem_crew.1 hm <;> cases heq
    · simp [Occurrence.callBy?, picked, occurrences] at hm'
  · simp at hold

/-- The highest value of the counter so far, of which a worker has told or is about to tell. -/
structure Heights (w : World LoadNote) (peak : Nat) : Prop where
  temps : (w.epoch 0).temps ≤ peak
  announced : ∀ n, w.Announces 0 n → n ≤ peak
  reached : peak = 0 ∨ w.Announces 0 peak

/-- As the counter changes its highest value is told. -/
theorem Heights.climb (h : Heights w peak) (c : Climbs w u 0) :
    Heights u (max peak (u.epoch 0).temps) where
  temps := le_max_right _ _
  announced n hn := by
    obtain hn | hn := c.fresh n hn
    · exact (h.announced n hn).trans (le_max_left _ _)
    · exact hn.trans (le_max_right _ _)
  reached := by
    obtain hle | hlt := le_or_gt (u.epoch 0).temps peak
    · rw [max_eq_left hle]
      exact h.reached.imp_right (c.kept _)
    · rw [max_eq_right hlt.le]
      refine .inr (c.reached.resolve_left fun hle => ?_)
      exact absurd (hle.trans h.temps) (Nat.not_le.2 hlt)

/-- Wherever a load run has come to, its driver is at one of its stages, and the highest value of
the counter was told. -/
theorem Course.stands (h : p.Course s peak) :
    p.Stands s.world s.stage ∧ Heights s.world peak := by
  induction h with
  | @opened w h =>
    refine ⟨stands_of_opened h, ?_, fun n hn => absurd hn (not_announces_of_opened h n), .inl rfl⟩
    obtain ⟨-, rfl⟩ := launch_of_opened h
    rw [epoch_launch]
    exact le_rfl
  | move before m ih =>
    obtain ⟨stands, climbs⟩ := ih.1.move before.evolved before.honest m
    exact ⟨stands, ih.2.climb climbs⟩

/-- The counter never exceeds the limit, if there is one. -/
theorem Course.peak_le (h : p.Course s peak) {limit : Nat} (hl : p.pool.maxTemps = some limit) :
    peak ≤ limit := by
  induction h with
  | opened => exact Nat.zero_le _
  | move before m ih =>
    have housed := (before.move m).evolved.housed
    have same := (before.move m).evolved.same.1
    exact max_le ih (housed.bound limit (same ▸ hl) 0)

end Course

end LoadPlan

end WorkerPool
