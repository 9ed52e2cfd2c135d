import SrsRan.Timers.Manager
import SrsRan.Lib.ExactList

/-!
# The clock and the timer wheel

`TimeInv` counts the time in ticks: the timeout of a run is the tick of its start plus its duration, modulo `2 ^ 32`.
Since a duration is less than half of this, a timeout equals the current time in exactly one tick until then, and the
runs that expire in this tick are in the bucket that the tick visits.
-/

namespace SrsRan.Timers

open Support Lib.Run Lib Lib.ExactList List
open Function (update_self update_of_ne update_idem)

def ticks (d : ℤ) : ℕ := max d.toNat 1

lemma ticks_pos (d : ℤ) : 1 ≤ ticks d := le_max_right _ _

lemma ticks_lt {d : ℤ} (hd : d ≤ maxTimerDuration) : ticks d < 2 ^ 32 := by
  have hmax : maxTimerDuration = 2147483647 := rfl
  rw [ticks, Nat.max_lt]
  omega

lemma ticks_eq {d : ℤ} (hd : 0 ≤ d) (hd' : d ≤ maxTimerDuration) : max (d % 2 ^ 32).toNat 1 = ticks d := by
  have hmax : maxTimerDuration = 2147483647 := rfl
  rw [Int.emod_eq_of_lt hd (by omega)]
  rfl

/-- The timer runs at the back end. -/
def Running (s : TimerManager) (i : ℕ) : Prop := (s.timers i).backend.state = .running

/-- **The clock and the timer wheel.** -/
structure TimeInv (s : TimerManager) : Prop where
  time : s.curTime = s.nofTicks % 2 ^ 32
  wheel : ∀ b, Exactly (s.timeWheel b) fun i => Running s i ∧ (s.timers i).backend.timeout % wheelSize = b
  visiting : ∀ l, s.phase = .expiring l → l.Nodup ∧ ∀ i ∈ l, Running s i
  run : ∀ i, Running s i → ∃ d T, Event.started i (s.timers i).backend.cmdId d T ∈ s.log ∧
    (0 ≤ d ∧ d ≤ maxTimerDuration) ∧ T ≤ s.nofTicks ∧ (s.timers i).backend.timeout = (T + ticks d) % 2 ^ 32 ∧
    (s.nofTicks < T + ticks d ∨ T + ticks d = s.nofTicks ∧ ∃ l, s.phase = .expiring l ∧ i ∈ l)
  started : ∀ i n d T, Event.started i n d T ∈ s.log → (s.timers i).commands[n - 1]? = some (.start d) ∧
    (n < (s.timers i).backend.cmdId ∨
      n = (s.timers i).backend.cmdId ∧ (Running s i ∨ Event.expired i n (T + ticks d) ∈ s.log))
  unique : ∀ i n d T d' T', Event.started i n d T ∈ s.log → Event.started i n d' T' ∈ s.log → d = d' ∧ T = T'
  expired : ∀ i n T', Event.expired i n T' ∈ s.log → ∃ d T, Event.started i n d T ∈ s.log ∧ T' = T + ticks d

section Steps

variable {s s' : TimerManager} {i : ℕ}

lemma TimeInv.init (capacity : ℕ) : TimeInv (TimerManager.init capacity) where
  time := rfl
  wheel _ := Exactly.nil fun _ h => nomatch h.1
  visiting := nofun
  run _ h := nomatch h
  started := nofun
  unique := nofun
  expired := nofun

lemma TimeInv.frame (h : TimeInv s) (hc : s'.curTime = s.curTime) (hn : s'.nofTicks = s.nofTicks)
    (hw : s'.timeWheel = s.timeWheel) (hph : ∀ l, s'.phase = .expiring l ↔ s.phase = .expiring l)
    (hb : ∀ j, (s'.timers j).backend = (s.timers j).backend)
    (hcmds : ∀ j (n : ℕ) x, (s.timers j).commands[n]? = some x → (s'.timers j).commands[n]? = some x)
    (hlog : ∀ e, (∀ j k, e ≠ .callback j k) → (e ∈ s'.log ↔ e ∈ s.log)) : TimeInv s' := by
  have hrun : ∀ j, Running s' j ↔ Running s j := fun j => by rw [Running, Running, hb j]
  have hst : ∀ j n d T, Event.started j n d T ∈ s'.log ↔ Event.started j n d T ∈ s.log := fun _ _ _ _ => hlog _ nofun
  have hex : ∀ j n T, Event.expired j n T ∈ s'.log ↔ Event.expired j n T ∈ s.log := fun _ _ _ => hlog _ nofun
  constructor
  · rw [hc, hn, h.time]
  · intro b
    rw [hw]
    exact (h.wheel b).congr fun j => by rw [hrun j, hb j]
  · intro l hl
    obtain ⟨h1, h2⟩ := h.visiting l ((hph l).mp hl)
    exact ⟨h1, fun j hj => (hrun j).mpr (h2 j hj)⟩
  · intro j hj
    obtain ⟨d, T, h1, h2, h3, h4, h5⟩ := h.run j ((hrun j).mp hj)
    refine ⟨d, T, ?_, h2, hn ▸ h3, hb j ▸ h4, ?_⟩
    · rw [hb j, hst]
      exact h1
    · rw [hn]
      refine h5.imp id fun ⟨h6, l, h7, h8⟩ => ⟨h6, l, (hph l).mpr h7, h8⟩
  · intro j n d T hm
    obtain ⟨h1, h2⟩ := h.started j n d T ((hst j n d T).mp hm)
    refine ⟨hcmds j _ _ h1, ?_⟩
    rw [hb j, hrun j, hex]
    exact h2
  · intro j n d T d' T' hm hm'
    exact h.unique j n d T d' T' ((hst _ _ _ _).mp hm) ((hst _ _ _ _).mp hm')
  · intro j n T hm
    obtain ⟨d, T', h1, h2⟩ := h.expired j n T ((hex j n T).mp hm)
    exact ⟨d, T', (hst _ _ _ _).mpr h1, h2⟩

lemma TimeInv.erase_eq (h : TimeInv s) {b : ℕ} (hb : ¬ (Running s i ∧ (s.timers i).backend.timeout % wheelSize = b)) :
    (s.timeWheel b).erase i = s.timeWheel b :=
  erase_of_not_mem fun hm => hb (((h.wheel b).mem i).mp hm)

lemma TimeInv.update_erase (h : TimeInv s) : Function.update s.timeWheel ((s.timers i).backend.timeout % wheelSize)
      ((s.timeWheel ((s.timers i).backend.timeout % wheelSize)).erase i) = fun b => (s.timeWheel b).erase i := by
  funext b
  by_cases hb : b = (s.timers i).backend.timeout % wheelSize
  · rw [hb, update_self]
  · rw [update_of_ne hb, h.erase_eq fun hr => hb hr.2.symm]

/-! ### A command is processed -/

def haltState (st : TimerState) : TimerState := if st = .running then .stopped else st

lemma haltState_ne (st : TimerState) : haltState st ≠ .running := by
  cases st <;> decide

/-- The timer has changed and does not run. -/
def halted (s : TimerManager) (i : ℕ) (t : Timer) : TimerManager :=
  { s with
    timers := Function.update s.timers i { t with backend := { t.backend with state := haltState t.backend.state } }
    timeWheel := fun b => (s.timeWheel b).erase i }

section

variable (h : TimeInv s)
include h

lemma TimeInv.tryStop_eq {t : Timer} (hst : t.backend.state = (s.timers i).backend.state)
    (hto : t.backend.timeout = (s.timers i).backend.timeout) :
    (s.setTimer i t).tryStopTimerBackend i = halted s i t := by
  have hself : (s.setTimer i t).timers i = t := update_self _ _ _
  rw [TimerManager.tryStopTimerBackend]
  dsimp only
  rw [hself]
  split
  next hrun => simp only [TimerManager.setTimer, halted, update_idem, hto, h.update_erase, haltState, if_pos hrun]
  next hrun =>
    have hwheel : (fun b => (s.timeWheel b).erase i) = s.timeWheel := by
      funext b
      exact h.erase_eq fun hr => hrun (hst.trans hr.1)
    simp only [TimerManager.setTimer, halted, hwheel, haltState, if_neg hrun]

/-- **A timer does not run any more**, because of a new command, or it has not run before. -/
theorem TimeInv.quiet {t : Timer} (hts : s'.timers = Function.update s.timers i t)
    (hw : ∀ b, s'.timeWheel b = (s.timeWheel b).erase i) (hc : s'.curTime = s.curTime) (hn : s'.nofTicks = s.nofTicks)
    (hlog : s'.log = s.log) (hph : ∀ l, s'.phase ≠ .expiring l) (hph0 : ∀ l, s.phase ≠ .expiring l)
    (hst : t.backend.state ≠ .running) (hcmds : t.commands = (s.timers i).commands)
    (hcmd : (s.timers i).backend.cmdId < t.backend.cmdId ∨
      ¬ Running s i ∧ (s.timers i).backend.cmdId = t.backend.cmdId) : TimeInv s' := by
  have hother : ∀ j, j ≠ i → s'.timers j = s.timers j := fun j hj => by rw [hts, update_of_ne hj]
  have hself : s'.timers i = t := by rw [hts, update_self]
  have hrun : ∀ j, Running s' j ↔ j ≠ i ∧ Running s j := by
    intro j
    by_cases hj : j = i
    · subst hj
      rw [Running, hself]
      simp [hst]
    · rw [Running, hother j hj]
      simp [hj, Running]
  constructor
  · rw [hc, hn, h.time]
  · intro b
    rw [hw b]
    refine ((h.wheel b).erase i).congr fun j => ?_
    rw [hrun]
    by_cases hj : j = i
    · simp [hj]
    · rw [hother j hj, and_assoc]
  · intro l hl
    exact absurd hl (hph l)
  · intro j hj
    obtain ⟨hne, hr⟩ := (hrun j).mp hj
    obtain ⟨d, T, h1, h2, h3, h4, h5⟩ := h.run j hr
    rw [hother j hne, hlog, hn]
    refine ⟨d, T, h1, h2, h3, h4, .inl (h5.resolve_right ?_)⟩
    rintro ⟨-, l, hl, -⟩
    exact hph0 l hl
  · intro j n d T hm
    rw [hlog] at hm ⊢
    obtain ⟨h1, h2⟩ := h.started j n d T hm
    by_cases hj : j = i
    · subst hj
      rw [hself, hcmds]
      refine ⟨h1, ?_⟩
      rcases hcmd with hlt | ⟨hnot, heq⟩
      · rcases h2 with h2 | ⟨h2, -⟩ <;> exact .inl (by omega)
      · rw [← heq]
        exact h2.imp id fun ⟨h3, h4⟩ => ⟨h3, .inr (h4.resolve_left hnot)⟩
    · rw [hother j hj, hrun]
      exact ⟨h1, h2.imp id fun ⟨h3, h4⟩ => ⟨h3, h4.imp (fun h5 => ⟨hj, h5⟩) id⟩⟩
  · rw [hlog]
    exact h.unique
  · rw [hlog]
    exact h.expired

/-- **`start_timer_backend`**: the run of a command that has just been popped. -/
theorem TimeInv.start {d : ℤ} (hph : ∀ l, s.phase ≠ .expiring l) (hnot : ¬ Running s i)
    (hd : 0 ≤ d ∧ d ≤ maxTimerDuration)
    (hcmd : (s.timers i).commands[(s.timers i).backend.cmdId - 1]? = some (.start d))
    (hnew : ∀ d T, Event.started i (s.timers i).backend.cmdId d T ∉ s.log) :
    ∃ s', s.startTimerBackend i d = .ok s' ∧ TimeInv s' := by
  rw [TimerManager.startTimerBackend]
  dsimp only
  have hnot' : (s.timers i).backend.state ≠ .running := hnot
  rw [if_neg hnot', ticks_eq hd.1 hd.2]
  refine ⟨_, rfl, ?_⟩
  have htime : (s.curTime + ticks d) % 2 ^ 32 = (s.nofTicks + ticks d) % 2 ^ 32 := by
    rw [h.time, Nat.mod_add_mod]
  simp only [htime]
  generalize hto : (s.nofTicks + ticks d) % 2 ^ 32 = timeout
  have hself : ∀ t, Function.update s.timers i t i = t := fun t => update_self _ _ _
  have hother : ∀ t j, j ≠ i → Function.update s.timers i t j = s.timers j := fun t j hj => update_of_ne hj _ _
  have hpos := ticks_pos d
  constructor
  · exact h.time
  · intro b
    -- the timer is in no bucket so far
    have hnone : ¬ (Running s i ∧ (s.timers i).backend.timeout % wheelSize = b) := fun hr => hnot hr.1
    by_cases hb : b = timeout % wheelSize
    · subst hb
      simp only [Running, update_self]
      refine ((h.wheel _).cons (x := i) hnone).congr fun j => ?_
      by_cases hj : j = i
      · simp [hj]
      · simp [hj, Running]
    · simp only [Running, update_of_ne hb]
      refine (h.wheel b).congr fun j => ?_
      by_cases hj : j = i
      · subst hj
        simp only [hself]
        exact iff_of_false hnone fun hr => hb hr.2.symm
      · rw [hother _ j hj, Running]
  · intro l hl
    exact absurd hl (hph l)
  · intro j hj
    by_cases hji : j = i
    · subst hji
      simp only [hself]
      exact ⟨d, s.nofTicks, mem_cons_self, hd, le_rfl, hto.symm, .inl (by omega)⟩
    · have hr : Running s j := by
        simp only [Running, hother _ j hji] at hj
        exact hj
      simp only [hother _ j hji]
      obtain ⟨d', T, h1, h2⟩ := h.run j hr
      exact ⟨d', T, mem_cons_of_mem _ h1, h2⟩
  · intro j n d' T hm
    rcases mem_cons.mp hm with hm' | hm'
    · cases hm'
      simp only [hself]
      exact ⟨hcmd, .inr ⟨trivial, .inl (by simp [Running])⟩⟩
    · obtain ⟨h1, h2⟩ := h.started j n d' T hm'
      by_cases hj : j = i
      · subst hj
        simp only [hself]
        refine ⟨h1, .inl ?_⟩
        rcases h2 with h2 | ⟨h2, -⟩
        · exact h2
        · rw [h2] at hm'
          exact absurd hm' (hnew d' T)
      · simp only [Running, hother _ j hj]
        exact ⟨h1, h2.imp id fun ⟨h3, h4⟩ => ⟨h3, h4.imp id (mem_cons_of_mem _)⟩⟩
  · intro j n d1 T1 d2 T2 h1 h2
    rcases mem_cons.mp h1 with h1 | h1
    · cases h1
      rcases mem_cons.mp h2 with h2 | h2
      · cases h2
        exact ⟨rfl, rfl⟩
      · exact absurd h2 (hnew d2 T2)
    · rcases mem_cons.mp h2 with h2 | h2
      · cases h2
        exact absurd h1 (hnew d1 T1)
      · exact h.unique j n d1 T1 d2 T2 h1 h2
  · intro j n T hm
    rcases mem_cons.mp hm with hm | hm
    · cases hm
    · obtain ⟨d', T', h1, h2⟩ := h.expired j n T hm
      exact ⟨d', T', mem_cons_of_mem _ h1, h2⟩

/-! ### The clock -/

/-- **The clock is advanced**, and the bucket of the new time is visited. -/
theorem TimeInv.advance (hph : s.phase = .ready) : TimeInv { s with
      curTime := (s.curTime + 1) % 2 ^ 32
      nofTicks := s.nofTicks + 1
      phase := .expiring (s.timeWheel ((s.curTime + 1) % 2 ^ 32 % wheelSize)) } := by
  have htime : (s.curTime + 1) % 2 ^ 32 = (s.nofTicks + 1) % 2 ^ 32 := by
    rw [h.time, Nat.mod_add_mod]
  constructor
  · exact htime
  · exact h.wheel
  · intro l hl
    cases hl
    exact ⟨(h.wheel _).nodup, fun j hj => (((h.wheel _).mem j).mp hj).1⟩
  · intro j hj
    obtain ⟨d, T, h1, h2, h3, h4, h5⟩ := h.run j hj
    have hlt : s.nofTicks < T + ticks d := by
      rcases h5 with h5 | ⟨-, l, h5, -⟩
      · exact h5
      · rw [hph] at h5
        cases h5
    refine ⟨d, T, h1, h2, h3.trans (Nat.le_succ _), h4, ?_⟩
    by_cases heq : T + ticks d = s.nofTicks + 1
    · -- the run expires in this tick
      refine .inr ⟨heq, _, rfl, ((h.wheel _).mem j).mpr ⟨hj, ?_⟩⟩
      rw [h4, heq, htime]
    · left
      show s.nofTicks + 1 < T + ticks d
      omega
  · exact h.started
  · exact h.unique
  · exact h.expired

lemma TimeInv.timeout_eq_iff {d : ℤ} {T : ℕ} (hd : d ≤ maxTimerDuration) (hT : T ≤ s.nofTicks)
    (hle : s.nofTicks ≤ T + ticks d) : s.curTime = (T + ticks d) % 2 ^ 32 ↔ T + ticks d = s.nofTicks := by
  have hlt := ticks_lt hd
  rw [h.time]
  constructor
  · intro heq
    omega
  · intro heq
    rw [heq]

lemma TimeInv.skip {l : List ℕ} (hph : s.phase = .expiring (i :: l))
    (hne : s.curTime ≠ (s.timers i).backend.timeout) : TimeInv { s with phase := .expiring l } := by
  obtain ⟨hnd, hrun⟩ := h.visiting _ hph
  refine { h with visiting := ?_, run := ?_ }
  · intro l' hl'
    cases hl'
    exact ⟨(nodup_cons.mp hnd).2, fun j hj => hrun j (mem_cons_of_mem i hj)⟩
  · intro j hj
    obtain ⟨d, T, h1, h2, h3, h4, h5⟩ := h.run j hj
    refine ⟨d, T, h1, h2, h3, h4, h5.imp id ?_⟩
    rintro ⟨h6, l', h7, h8⟩
    rw [hph] at h7
    cases h7
    refine ⟨h6, l, rfl, (mem_cons.mp h8).resolve_left ?_⟩
    rintro rfl
    rw [h4] at hne
    exact hne ((h.timeout_eq_iff h2.2 h3 h6.ge).mpr h6)

end

def expiredState (s : TimerManager) (i : ℕ) (l : List ℕ) : TimerManager :=
  { s with
    phase := .expiring l
    timeWheel := fun b => (s.timeWheel b).erase i
    timers := Function.update s.timers i
      { s.timers i with backend := { (s.timers i).backend with state := .expired } }
    log := .expired i (s.timers i).backend.cmdId s.nofTicks :: s.log }

lemma running_expiredState {l : List ℕ} (j : ℕ) : Running (expiredState s i l) j ↔ j ≠ i ∧ Running s j := by
  by_cases hj : j = i
  · subst hj
    simp [Running, expiredState]
  · simp [Running, expiredState, hj]

lemma TimeInv.expire (h : TimeInv s) {l : List ℕ} (hph : s.phase = .expiring (i :: l))
    (heq : s.curTime = (s.timers i).backend.timeout) : TimeInv (expiredState s i l) := by
  obtain ⟨hnd, hrun⟩ := h.visiting _ hph
  obtain ⟨hil, hnd⟩ := nodup_cons.mp hnd
  have hother : ∀ j, j ≠ i → (expiredState s i l).timers j = s.timers j := fun j hj => update_of_ne hj _ _
  have hself : (expiredState s i l).timers i =
      { s.timers i with backend := { (s.timers i).backend with state := .expired } } := update_self _ _ _
  obtain ⟨d, T, h1, h2, h3, h4, h5⟩ := h.run i (hrun i mem_cons_self)
  -- its time has come
  have hT : T + ticks d = s.nofTicks := by
    refine (h.timeout_eq_iff h2.2 h3 ?_).mp (heq.trans h4)
    rcases h5 with h5 | ⟨h5, -⟩
    · exact h5.le
    · exact h5.ge
  constructor
  · exact h.time
  · intro b
    refine ((h.wheel b).erase i).congr fun j => ?_
    rw [running_expiredState]
    by_cases hj : j = i
    · simp [hj]
    · rw [hother j hj, and_assoc]
  · intro l' hl'
    cases hl'
    refine ⟨hnd, fun j hj => (running_expiredState j).mpr ⟨?_, hrun j (mem_cons_of_mem i hj)⟩⟩
    rintro rfl
    exact hil hj
  · intro j hj
    obtain ⟨hne, hr⟩ := (running_expiredState j).mp hj
    rw [hother j hne]
    obtain ⟨d', T', h1', h2', h3', h4', h5'⟩ := h.run j hr
    refine ⟨d', T', mem_cons_of_mem _ h1', h2', h3', h4', h5'.imp id ?_⟩
    rintro ⟨h6, l', h7, h8⟩
    rw [hph] at h7
    cases h7
    exact ⟨h6, l, rfl, (mem_cons.mp h8).resolve_left hne⟩
  · intro j n d' T' hm
    have hm' : Event.started j n d' T' ∈ s.log := (mem_cons.mp hm).resolve_left nofun
    obtain ⟨h1', h2'⟩ := h.started j n d' T' hm'
    by_cases hj : j = i
    · subst hj
      rw [hself]
      refine ⟨h1', h2'.imp id ?_⟩
      rintro ⟨rfl, -⟩
      obtain ⟨rfl, rfl⟩ := h.unique _ _ _ _ _ _ h1 hm'
      refine ⟨rfl, .inr ?_⟩
      rw [hT]
      exact mem_cons_self
    · rw [hother j hj, running_expiredState]
      exact ⟨h1', h2'.imp id fun ⟨h6, h7⟩ => ⟨h6, h7.imp (fun h8 => ⟨hj, h8⟩) (mem_cons_of_mem _)⟩⟩
  · intro j n d1 T1 d2 T2 hm1 hm2
    exact h.unique j n d1 T1 d2 T2 ((mem_cons.mp hm1).resolve_left nofun) ((mem_cons.mp hm2).resolve_left nofun)
  · intro j n T' hm
    rcases mem_cons.mp hm with hm | hm
    · cases hm
      exact ⟨d, T, mem_cons_of_mem _ h1, hT.symm⟩
    · obtain ⟨d', T'', h1', h2'⟩ := h.expired j n T' hm
      exact ⟨d', T'', mem_cons_of_mem _ h1', h2'⟩

lemma TimeInv.endTick (h : TimeInv s) (hph : s.phase = .expiring []) : TimeInv { s with phase := .idle } := by
  refine { h with visiting := nofun, run := ?_ }
  intro j hj
  obtain ⟨d, T, h1, h2, h3, h4, h5⟩ := h.run j hj
  refine ⟨d, T, h1, h2, h3, h4, .inl (h5.resolve_right ?_)⟩
  rintro ⟨-, l, hl, hm⟩
  rw [hph] at hl
  cases hl
  exact absurd hm List.not_mem_nil

end Steps

end SrsRan.Timers
