import SrsRan.Timers.TimeInvariant

/-!
# The timeout tasks

A run that goes on can still cause a callback, and so can a timeout task that has been dispatched and a timeout whose
dispatch has been postponed.  `TaskInv` says that for each start command there is at most one of these, or the callback has
been called once.
-/

namespace SrsRan.Timers

open Support Lib.Run Lib Lib.ExactList List

def live (s : TimerManager) (i e : ℕ) : ℕ :=
  if (s.timers i).backend.state = .running ∧ (s.timers i).backend.cmdId = e then 1 else 0

/-- **The timeout tasks.** -/
structure TaskInv (s : TimerManager) : Prop where
  once : ∀ i e, s.tasks.count (i, e) + s.failedToTriggerTimers.count (i, e) + s.log.count (.callback i e) + live s i e ≤ 1
  dispatched : ∀ i e, (i, e) ∈ s.tasks ∨ (i, e) ∈ s.failedToTriggerTimers ∨ Event.callback i e ∈ s.log →
    ∃ T, Event.expired i e T ∈ s.log

section Steps

variable {s s' : TimerManager} {i : ℕ}

lemma TaskInv.init (capacity : ℕ) : TaskInv (TimerManager.init capacity) where
  once _ _ := by simp [TimerManager.init, live, Timer.init]
  dispatched _ _ h := by
    rcases h with h | h | h <;> cases h

lemma TaskInv.frame (h : TaskInv s) (ht : s'.tasks = s.tasks) (hf : s'.failedToTriggerTimers = s.failedToTriggerTimers)
    (hl : s'.log = s.log) (hlive : ∀ j e, live s' j e ≤ live s j e) : TaskInv s' := by
  constructor
  · intro j e
    rw [ht, hf, hl]
    exact (Nat.add_le_add_left (hlive j e) _).trans (h.once j e)
  · rw [ht, hf, hl]
    exact h.dispatched

lemma live_le_of_backend (hb : ∀ j, (s'.timers j).backend = (s.timers j).backend) (j e : ℕ) : live s' j e ≤ live s j e := by
  rw [live, live, hb j]

lemma live_le_of_quiet {t : Timer} (hts : s'.timers = Function.update s.timers i t) (hst : t.backend.state ≠ .running)
    (j e : ℕ) : live s' j e ≤ live s j e := by
  by_cases hj : j = i
  · subst hj
    rw [live, hts, Function.update_self, if_neg fun hr => hst hr.1]
    exact Nat.zero_le _
  · rw [live, live, hts, Function.update_of_ne hj]

lemma TaskInv.eq_zero (h : TaskInv s) {e : ℕ} (hno : ∀ T, Event.expired i e T ∉ s.log) :
    s.tasks.count (i, e) = 0 ∧ s.failedToTriggerTimers.count (i, e) = 0 ∧ s.log.count (.callback i e) = 0 := by
  have hno' : ¬ ((i, e) ∈ s.tasks ∨ (i, e) ∈ s.failedToTriggerTimers ∨ Event.callback i e ∈ s.log) := fun hm =>
    (h.dispatched i e hm).elim hno
  push Not at hno'
  exact ⟨count_eq_zero_of_not_mem hno'.1, count_eq_zero_of_not_mem hno'.2.1, count_eq_zero_of_not_mem hno'.2.2⟩

/-- **`start_timer_backend`**: a new run. -/
theorem TaskInv.start (h : TaskInv s) {d : ℤ} (hno : ∀ T, Event.expired i (s.timers i).backend.cmdId T ∉ s.log)
    (hs : s.startTimerBackend i d = .ok s') : TaskInv s' := by
  obtain ⟨h1, h2, h3⟩ := h.eq_zero hno
  rw [TimerManager.startTimerBackend] at hs
  dsimp only at hs
  split at hs
  · cases hs
  cases hs
  constructor
  · intro j e
    have hcount : (Event.started i (s.timers i).backend.cmdId d s.nofTicks :: s.log).count (.callback j e) =
        s.log.count (.callback j e) :=
      count_cons_of_ne (by simp)
    show s.tasks.count (j, e) + s.failedToTriggerTimers.count (j, e) + _ + _ ≤ 1
    rw [hcount]
    by_cases hj : j = i
    · subst hj
      by_cases he : (s.timers j).backend.cmdId = e
      · subst he
        rw [h1, h2, h3, live]
        split <;> omega
      · have hz : live { s with
            timers := Function.update s.timers j { s.timers j with backend := { (s.timers j).backend with
              state := .running
              timeout := (s.curTime + max (d % 2 ^ 32).toNat 1) % 2 ^ 32 } }
            timeWheel := Function.update s.timeWheel ((s.curTime + max (d % 2 ^ 32).toNat 1) % 2 ^ 32 % wheelSize)
              (j :: s.timeWheel ((s.curTime + max (d % 2 ^ 32).toNat 1) % 2 ^ 32 % wheelSize))
            log := .started j (s.timers j).backend.cmdId d s.nofTicks :: s.log } j e = 0 := by
          simp [live, he]
        rw [hz]
        have := h.once j e
        omega
    · have hz : ∀ t, Function.update s.timers i t j = s.timers j := fun t => Function.update_of_ne hj _ _
      simp only [live, hz]
      exact h.once j e
  · intro j e hm
    have hm' : (j, e) ∈ s.tasks ∨ (j, e) ∈ s.failedToTriggerTimers ∨ Event.callback j e ∈ s.log := by
      rcases hm with hm | hm | hm
      · exact .inl hm
      · exact .inr (.inl hm)
      · rcases mem_cons.mp hm with hm | hm
        · cases hm
        · exact .inr (.inr hm)
    obtain ⟨T, hT⟩ := h.dispatched j e hm'
    exact ⟨T, mem_cons_of_mem _ hT⟩

lemma count_concat (l : List (ℕ × ℕ)) (x y : ℕ × ℕ) : (l ++ [x]).count y = l.count y + if y = x then 1 else 0 := by
  rw [count_append, count_singleton]
  by_cases h : y = x
  · simp [h]
  · simp [h, Ne.symm h]

/-- **A run expires**: it becomes a task, a postponed timeout, or nothing. -/
theorem TaskInv.expire (h : TaskInv s) {e : ℕ} (hlive : live s i e = 1) (hexp : ∃ T, Event.expired i e T ∈ s'.log)
    (hts : ∀ j k, live s' j k = if (j, k) = (i, e) then 0 else live s j k)
    (hl : ∀ j k, s'.log.count (.callback j k) = s.log.count (.callback j k)) (hlog : ∀ x ∈ s.log, x ∈ s'.log)
    (hnew : s'.tasks = s.tasks ∧ s'.failedToTriggerTimers = s.failedToTriggerTimers ∨
      s'.tasks = s.tasks ++ [(i, e)] ∧ s'.failedToTriggerTimers = s.failedToTriggerTimers ∨
      s'.tasks = s.tasks ∧ s'.failedToTriggerTimers = s.failedToTriggerTimers ++ [(i, e)]) : TaskInv s' := by
  have hmem : ∀ j k, Event.callback j k ∈ s'.log → Event.callback j k ∈ s.log := by
    intro j k hm
    rw [← count_pos_iff] at hm ⊢
    rw [← hl]
    exact hm
  constructor
  · intro j k
    have honce := h.once j k
    rw [hl, hts]
    by_cases hjk : (j, k) = (i, e)
    · cases hjk
      rw [hlive] at honce
      rcases hnew with ⟨h1, h2⟩ | ⟨h1, h2⟩ | ⟨h1, h2⟩
      · rw [h1, h2, if_pos rfl]
        omega
      · rw [h1, h2, count_concat, if_pos rfl, if_pos rfl]
        omega
      · rw [h1, h2, count_concat, if_pos rfl, if_pos rfl]
        omega
    · rcases hnew with ⟨h1, h2⟩ | ⟨h1, h2⟩ | ⟨h1, h2⟩
      · rw [h1, h2, if_neg hjk]
        exact honce
      · rw [h1, h2, count_concat, if_neg hjk, if_neg hjk]
        exact honce
      · rw [h1, h2, count_concat, if_neg hjk, if_neg hjk]
        exact honce
  · intro j k hm
    have hold : (j, k) ∈ s.tasks ∨ (j, k) ∈ s.failedToTriggerTimers ∨ Event.callback j k ∈ s.log →
        ∃ T, Event.expired j k T ∈ s'.log := fun hm =>
      (h.dispatched j k hm).imp fun T hT => hlog _ hT
    by_cases hjk : (j, k) = (i, e)
    · cases hjk
      exact hexp
    · refine hold ?_
      rcases hnew with ⟨h1, h2⟩ | ⟨h1, h2⟩ | ⟨h1, h2⟩
      · rw [h1, h2] at hm
        exact hm.imp id fun hm => hm.imp id (hmem j k)
      · rw [h1, h2, mem_append, mem_singleton, or_iff_left hjk] at hm
        exact hm.imp id fun hm => hm.imp id (hmem j k)
      · rw [h1, h2, mem_append, mem_singleton, or_iff_left hjk] at hm
        exact hm.imp id fun hm => hm.imp id (hmem j k)

/-- **A postponed timeout** is dispatched or dropped. -/
theorem TaskInv.postponed (h : TaskInv s) {x : ℕ × ℕ} {l : List (ℕ × ℕ)} (hf : s.failedToTriggerTimers = x :: l)
    {tasks : List (ℕ × ℕ)} (htasks : tasks = s.tasks ∨ tasks = s.tasks ++ [x]) :
    TaskInv { s with tasks := tasks, failedToTriggerTimers := l } := by
  constructor
  · intro j e
    have honce := h.once j e
    rw [hf] at honce
    show tasks.count (j, e) + l.count (j, e) + s.log.count (.callback j e) + live s j e ≤ 1
    rcases htasks with rfl | rfl
    · have hle := count_le_count_cons (a := (j, e)) (b := x) (l := l)
      omega
    · rw [count_concat]
      by_cases hx : (j, e) = x
      · subst hx
        rw [count_cons_self] at honce
        rw [if_pos rfl]
        omega
      · rw [count_cons_of_ne (Ne.symm hx)] at honce
        rw [if_neg hx]
        exact honce
  · intro j e hm
    refine h.dispatched j e ?_
    rw [hf]
    rcases hm with hm | hm | hm
    · have hm' : (j, e) ∈ tasks := hm
      rcases htasks with rfl | rfl
      · exact .inl hm'
      · rw [mem_append, mem_singleton] at hm'
        rcases hm' with hm' | hm'
        · exact .inl hm'
        · exact .inr (.inl (hm' ▸ mem_cons_self))
    · exact .inr (.inl (mem_cons_of_mem x hm))
    · exact .inr (.inr hm)

/-- **A task is run**, and calls the callback or not. -/
theorem TaskInv.ran (h : TaskInv s) {e : ℕ} (hm : (i, e) ∈ s.tasks) (ht : s'.tasks = s.tasks.erase (i, e))
    (hf : s'.failedToTriggerTimers = s.failedToTriggerTimers) (hl : s'.log = s.log ∨ s'.log = .callback i e :: s.log)
    (hlive : ∀ j k, live s' j k = live s j k) : TaskInv s' := by
  have hpos := count_pos_iff.mpr hm
  constructor
  · intro j k
    have honce := h.once j k
    rw [ht, hf, hlive]
    by_cases hjk : (j, k) = (i, e)
    · cases hjk
      rw [count_erase_self]
      rcases hl with hl | hl
      · rw [hl]
        omega
      · rw [hl, count_cons_self]
        omega
    · rw [count_erase_of_ne hjk]
      rcases hl with hl | hl
      · rw [hl]
        exact honce
      · rw [hl, count_cons_of_ne]
        · exact honce
        · intro heq
          cases heq
          exact hjk rfl
  · intro j k hm'
    have hlog : ∀ x ∈ s.log, x ∈ s'.log := by
      intro x hx
      rcases hl with hl | hl
      · rw [hl]
        exact hx
      · rw [hl]
        exact mem_cons_of_mem _ hx
    refine (h.dispatched j k ?_).imp fun T hT => hlog _ hT
    rw [ht, hf] at hm'
    rcases hm' with hm' | hm' | hm'
    · exact .inl (mem_of_mem_erase hm')
    · exact .inr (.inl hm')
    · rcases hl with hl | hl
      · rw [hl] at hm'
        exact .inr (.inr hm')
      · rw [hl, mem_cons] at hm'
        rcases hm' with hm' | hm'
        · cases hm'
          exact .inl hm
        · exact .inr (.inr hm')

end Steps

end SrsRan.Timers
