import SrsRan.Timers.FrontInvariant
import SrsRan.Timers.TimeoutTasks
import SrsRan.Lib.Post

/-!
# The timer protocol

The three invariants hold in every run in which a timer of the free list is taken only when the call that destroyed it has
returned and durations are not negative (`Orderly`).  Without the first condition the buffers of a channel can get lost.
-/

namespace SrsRan.Timers

open Support Lib.Run Lib Lib.ExactList List Option
open Function (update_self update_of_ne)
open Event (callback started)
open TickPhase (batch)
open TimerManager (applyCommand createFrontendTimer destroyTimerBackend setTimer triggerTimeoutHandling)
open TimerManager (signals)

/-- No call is under way for a timer of the free list, and durations are not negative. -/
def Orderly (s : TimerManager) : TimerAction → Prop
  | .create _ (some i) => ∀ c st, s.pushes c ≠ some (i, st)
  | .set _ _ dur => 0 ≤ dur
  | _ => True

/-- The errors that are due to the caller. -/
def Expected (e : Abort) : Prop :=
  e = notEnabled ∨ e = .assertion "Invalid timer duration" ∨ e = .assertion "Calling timer::run with invalid duration"

/-- **The invariant of the timer service.** -/
structure Inv (s : TimerManager) : Prop where
  front : ∃ σ, FrontInv s σ s.signals
  time : TimeInv s
  tasks : TaskInv s

/-- The command `n` of a timer has been put into the middle buffer. -/
def Sent (s : TimerManager) (i n : ℕ) : Prop :=
  n ≤ (s.timers i).commands.length ∧ ∀ c, s.pushes c = some (i, .written) → n < (s.timers i).commands.length

/-- A command that is due is popped or stays due. -/
def Progress (s s' : TimerManager) : Prop :=
  ∀ i n, Sent s i n → n ≤ (s.timers i).backend.cmdId ∨ i ∈ s.phase.batch →
    Sent s' i n ∧ (n ≤ (s'.timers i).backend.cmdId ∨ i ∈ s'.phase.batch)

/-- What every step does. -/
def StepOk (s s' : TimerManager) : Prop := Inv s' ∧ Progress s s'

section Steps

variable {s s' : TimerManager} {σ : ℕ → Option PushStage} {i : ℕ}

/-! ### Steps of the frontends -/

/-- A step of a front end, which leaves the manager as it is. -/
structure FrontStep (s s' : TimerManager) : Prop where
  curTime : s'.curTime = s.curTime
  nofTicks : s'.nofTicks = s.nofTicks
  timeWheel : s'.timeWheel = s.timeWheel
  phase : s'.phase = s.phase
  tasks : s'.tasks = s.tasks
  failed : s'.failedToTriggerTimers = s.failedToTriggerTimers
  log : s'.log = s.log
  backend : ∀ j, (s'.timers j).backend = (s.timers j).backend
  commands : ∀ j, (s.timers j).commands <+: (s'.timers j).commands
  written : ∀ c j, s'.pushes c = some (j, .written) →
    s.pushes c = some (j, .written) ∨ (s.timers j).commands.length < (s'.timers j).commands.length

lemma Inv.frontStep (h : Inv s) (hf : ∃ σ, FrontInv s' σ s'.signals) (hs : FrontStep s s') : StepOk s s' := by
  refine ⟨⟨hf, ?_, ?_⟩, ?_⟩
  · refine h.time.frame hs.curTime hs.nofTicks hs.timeWheel (fun l => by rw [hs.phase]) hs.backend ?_
      (fun e _ => by rw [hs.log])
    intro j n x hx
    obtain ⟨hn, -⟩ := List.getElem?_eq_some_iff.mp hx
    obtain ⟨new, hnew⟩ := hs.commands j
    rw [← hnew, getElem?_append_left hn]
    exact hx
  · exact h.tasks.frame hs.tasks hs.failed hs.log (live_le_of_backend hs.backend)
  · intro j n ⟨hn, hw⟩ hd
    have hle := (hs.commands j).length_le
    refine ⟨⟨hn.trans hle, fun c hp => ?_⟩, ?_⟩
    · rcases hs.written c j hp with hp' | hlt
      · exact (hw c hp').trans_le hle
      · exact hn.trans_lt hlt
    · rw [hs.backend j, hs.phase]
      exact hd

variable {t : Timer} {c : ℕ} {a : CmdAction} {sg : ℕ → ℕ} {l : List ℕ}

lemma commands_update (hc : (s.timers i).commands <+: t.commands) (j : ℕ) :
    (s.timers j).commands <+: (Function.update s.timers i t j).commands := by
  by_cases hj : j = i
  · rw [hj, update_self]
    exact hc
  · rw [update_of_ne hj]

lemma FrontStep.push (hb : t.backend = (s.timers i).backend)
    (hc : t.commands = (s.timers i).commands) : FrontStep s ((s.setTimer i t).push c i a) := by
  rw [push_setTimer]
  have hpre : (s.timers i).commands <+: (t.pushed a).commands := by
    show _ <+: t.commands ++ [a]
    rw [hc]
    exact prefix_append _ _
  refine ⟨rfl, rfl, rfl, rfl, rfl, rfl, rfl, field_update Timer.backend hb, commands_update hpre, fun c' j hp => ?_⟩
  by_cases hcc : c' = c
  · simp only [hcc, update_self, some.injEq, Prod.mk.injEq, and_true] at hp
    subst hp
    right
    show _ < (Function.update s.timers i (t.pushed a) i).commands.length
    rw [update_self]
    show _ < (t.commands ++ [a]).length
    rw [hc, length_append, length_singleton]
    exact Nat.lt_succ_self _
  · simp only [update_of_ne hcc] at hp
    exact .inl hp

lemma FrontStep.setTimer (hb : t.backend = (s.timers i).backend)
    (hc : t.commands = (s.timers i).commands) : FrontStep s (s.setTimer i t) :=
  ⟨rfl, rfl, rfl, rfl, rfl, rfl, rfl, field_update Timer.backend hb, commands_update (by rw [hc]), fun _ _ => .inl⟩

lemma FrontStep.refl (s : TimerManager) : FrontStep s s :=
  ⟨rfl, rfl, rfl, rfl, rfl, rfl, rfl, fun _ => rfl, fun _ => prefix_refl _, fun _ _ => .inl⟩

section

variable (h : Inv s) (hc : s.pushes c = none) (hi : (s.timers i).holder = some c)
include h hc hi

lemma Inv.set {dur : ℤ} (hd : 0 ≤ dur) : Post Expected (StepOk s) (s.set c i dur) := by
  obtain ⟨σ, hf⟩ := h.front
  cases hres : s.set c i dur with
  | error e =>
    rw [TimerManager.set] at hres
    split at hres
    · cases hres
      exact .inr (.inl rfl)
    · cases hres
  | ok s' =>
    refine h.frontStep (hf.setStep hc hi hd hres) ?_
    rw [TimerManager.set] at hres
    split at hres
    · cases hres
    · simp only [Except.ok.injEq] at hres
      subst hres
      split
      · exact FrontStep.push rfl rfl
      · exact FrontStep.setTimer rfl rfl

lemma Inv.run : Post Expected (StepOk s) (s.run c i) := by
  obtain ⟨σ, hf⟩ := h.front
  cases hres : s.run c i with
  | error e =>
    rw [TimerManager.run] at hres
    split at hres
    · cases hres
      exact .inr (.inr rfl)
    · cases hres
  | ok s' =>
    refine h.frontStep (hf.runStep hc hi hres) ?_
    rw [TimerManager.run] at hres
    split at hres
    · cases hres
    · cases hres
      exact FrontStep.push rfl rfl

lemma Inv.stop : Post Expected (StepOk s) (s.stop c i) := by
  obtain ⟨σ, hf⟩ := h.front
  cases hres : s.stop c i with
  | error e =>
    rw [TimerManager.stop] at hres
    split at hres <;> cases hres
  | ok s' =>
    refine h.frontStep (hf.stopStep hc hi hres) ?_
    rw [TimerManager.stop] at hres
    split at hres
    · cases hres
      exact FrontStep.push rfl rfl
    · cases hres
      exact FrontStep.refl s

lemma Inv.destroy : Post Expected (StepOk s) (s.destroy c i) := by
  obtain ⟨σ, hf⟩ := h.front
  exact h.frontStep (hf.destroyStep hc hi rfl) (FrontStep.push rfl rfl)

end

lemma Inv.withTimer {x : Except Abort TimerManager}
    (hx : s.pushes c = none → (s.timers i).holder = some c → Post Expected (StepOk s) x) :
    Post Expected (StepOk s) (s.withTimer c i x) := by
  rw [TimerManager.withTimer]
  split
  next hen => exact hx hen.1 hen.2
  · exact .inl rfl

lemma Inv.create (h : Inv s) (cached : Option ℕ) (ho : Orderly s (.create c cached)) :
    Post Expected (StepOk s) (s.createFrontendTimer c cached) := by
  obtain ⟨σ, hf⟩ := h.front
  cases cached with
  | some i =>
    cases hres : s.createFrontendTimer c (some i) with
    | error e =>
      rw [createFrontendTimer] at hres
      split at hres
      · cases hres
        exact .inl rfl
      next hen =>
        rw [if_neg (not_not.mpr ((hf.free.mem i).mp (not_not.mp hen).2).2)] at hres
        cases hres
    | ok s' =>
      refine h.frontStep ⟨σ, hf.createCached ho hres⟩ ?_
      rw [createFrontendTimer] at hres
      split at hres
      · cases hres
      split at hres
      · cases hres
      cases hres
      exact ⟨rfl, rfl, rfl, rfl, rfl, rfl, rfl, field_update Timer.backend rfl, commands_update (prefix_refl _), fun _ _ => .inl⟩
  | none =>
    cases hres : s.createFrontendTimer c none with
    | error e =>
      rw [createFrontendTimer] at hres
      split at hres
      · cases hres
        exact .inl rfl
      · cases hres
    | ok s' =>
      refine h.frontStep (hf.createNew hres) ?_
      rw [TimerManager.createFrontendTimer] at hres
      split at hres
      · cases hres
      cases hres
      -- a new timer is a timer whose fields are set before the command is pushed
      have hp := FrontStep.push (s := { s with
        nextTimerId := s.nextTimerId + 1
        pendingTimersToCreate := s.pendingTimersToCreate ++ [s.nextTimerId] }) (i := s.nextTimerId) (c := c)
        (t := { s.timers s.nextTimerId with exec := some c, holder := some c }) (a := .create) rfl rfl
      exact { hp with }

lemma Inv.exchange (h : Inv s) (c : ℕ) : Post Expected (StepOk s) (s.exchange c) := by
  obtain ⟨σ, hf⟩ := h.front
  cases hres : s.exchange c with
  | error e =>
    rw [TimerManager.exchange] at hres
    split at hres
    · cases hres
    · cases hres
      exact .inl rfl
  | ok s' =>
    refine h.frontStep (hf.exchangeStep hres) ?_
    rw [TimerManager.exchange] at hres
    split at hres
    · cases hres
      refine ⟨rfl, rfl, rfl, rfl, rfl, rfl, rfl, field_update Timer.backend rfl, commands_update (prefix_refl _), fun c' j hp => ?_⟩
      by_cases hcc : c' = c
      · simp only [hcc, update_self, some.injEq, Prod.mk.injEq, reduceCtorEq, and_false] at hp
      · simp only [update_of_ne hcc] at hp
        exact .inl hp
    · cases hres

lemma Inv.finish (h : Inv s) (c : ℕ) : Post Expected (StepOk s) (s.finish c) := by
  obtain ⟨σ, hf⟩ := h.front
  cases hres : s.finish c with
  | error e =>
    rw [TimerManager.finish] at hres
    split at hres
    · cases hres
    · cases hres
      exact .inl rfl
  | ok s' =>
    refine h.frontStep (hf.finishStep hres) ?_
    rw [TimerManager.finish] at hres
    split at hres
    · cases hres
      refine ⟨rfl, rfl, rfl, rfl, rfl, rfl, rfl, field_update Timer.backend rfl, commands_update (prefix_refl _), fun c' j hp => ?_⟩
      by_cases hcc : c' = c
      · simp only [hcc, update_self, reduceCtorEq] at hp
      · simp only [update_of_ne hcc] at hp
        exact .inl hp
    · cases hres

/-! ### Steps of the backend -/

lemma Progress.of_same (hp : s'.pushes = s.pushes) (hcmds : ∀ j, (s'.timers j).commands = (s.timers j).commands)
    (hb : ∀ j, (s'.timers j).backend.cmdId = (s.timers j).backend.cmdId)
    (hbatch : ∀ j ∈ s.phase.batch, j ∈ s'.phase.batch) : Progress s s' := by
  intro j n hn hd
  constructor
  · rw [Sent, hp, hcmds j]
    exact hn
  · rw [hb j]
    exact hd.imp id (hbatch j)

lemma Inv.tickStep (h : Inv s) {phase : TickPhase} {timersWithPendingEvents : List ℕ} {curTime nofTicks : ℕ}
    (hb : s.phase.batch = []) (hsig : timersWithPendingEvents.count + phase.batch.count = s.signals)
    (ht : TimeInv { s with phase, timersWithPendingEvents, curTime, nofTicks }) :
    StepOk s { s with phase, timersWithPendingEvents, curTime, nofTicks } := by
  obtain ⟨σ, hf⟩ := h.front
  refine ⟨⟨⟨σ, hf.frame rfl rfl rfl rfl (fun _ => rfl) (fun _ _ => id) (congrFun hsig)⟩, ht, ?_⟩, ?_⟩
  · exact h.tasks.frame rfl rfl rfl fun _ _ => le_rfl
  · refine Progress.of_same rfl (fun _ => rfl) (fun _ => rfl) fun j hj => ?_
    rw [hb] at hj
    exact absurd hj not_mem_nil

lemma Inv.tickBegin (h : Inv s) (hph : s.phase = .idle) :
    StepOk s { s with phase := .commands s.timersWithPendingEvents, timersWithPendingEvents := [] } := by
  refine h.tickStep (by rw [hph]; rfl) ?_ ?_
  · funext j
    simp [signals, hph, batch]
  · refine h.time.frame rfl rfl rfl (fun l => ?_) (fun _ => rfl) (fun _ _ _ => id) fun _ _ => Iff.rfl
    rw [hph]
    exact iff_of_false (by simp) (by simp)

lemma Inv.nextPhase (h : Inv s) {ph : TickPhase} (hb : s.phase.batch = []) (hb' : ph.batch = [])
    (hph : ∀ l, s.phase ≠ .expiring l) (hph' : ∀ l, ph ≠ .expiring l) : StepOk s { s with phase := ph } := by
  refine h.tickStep hb ?_ ?_
  · funext j
    simp [signals, hb, hb']
  · exact h.time.frame rfl rfl rfl (fun l => iff_of_false (hph' l) (hph l)) (fun _ => rfl) (fun _ _ _ => id)
      fun _ _ => Iff.rfl

lemma FrontInv.lt_of_command (hf : FrontInv s σ sg) {n : ℕ}
    (ha : (s.timers i).commands[n]? = some a) : i < s.nextTimerId := by
  by_contra hge
  rw [(hf.fresh i (not_lt.mp hge)).1] at ha
  cases ha

lemma getLast?_of_cmd {n : ℕ} (hn : n = t.commands.length)
    (ha : t.commands[n - 1]? = some a) : t.commands.getLast? = some a := by
  rw [getLast?_eq_getElem?, ← hn]
  exact ha

lemma FrontInv.le_sent (hf : FrontInv s σ sg) {n : ℕ} (hs : Sent s i n) : n ≤ sent (s.timers i) (σ i) := by
  obtain ⟨h1, h2⟩ := hs
  cases hσ : σ i with
  | none => exact h1
  | some st =>
    cases st with
    | written =>
      obtain ⟨c, hp⟩ := hf.pushes.pusher i .written hσ
      have hlt := h2 c hp
      show n ≤ (s.timers i).commands.length - 1
      omega
    | exchanged w => exact h1

lemma FrontInv.exec_ne (hf : FrontInv s σ sg) {d : ℤ}
    (hlast : (s.timers i).commands.getLast? = some (.start d)) : (s.timers i).exec ≠ none := by
  intro he
  have hfr := hf.front i
  exact hfr.holder (hfr.exec he).1 d hlast

lemma TimeInv.cmd_of_expired (ht : TimeInv s) {n T : ℕ} (hm : Event.expired i n T ∈ s.log) :
    ∃ d, (s.timers i).commands[n - 1]? = some (.start d) ∧ n ≤ (s.timers i).backend.cmdId := by
  obtain ⟨d, T', h1, -⟩ := ht.expired i n T hm
  obtain ⟨h2, h3⟩ := ht.started i n d T' h1
  refine ⟨d, h2, ?_⟩
  rcases h3 with h3 | ⟨h3, -⟩
  · exact h3.le
  · exact h3.le

def Timer.popped (t : Timer) (n : ℕ) : Timer :=
  { t with channel := t.channel.pop, backend := { t.backend with cmdId := n } }

lemma TimeInv.not_running_of_create (ht : TimeInv s) {n : ℕ} (hn : (s.timers i).backend.cmdId < n)
    (hfr : FrontOk (s.timers i) (callback i (s.timers i).commands.length ∈ s.log))
    (hcmd : (s.timers i).commands[n - 1]? = some .create) : ¬ Running s i := by
  intro hr
  obtain ⟨d, T, h1, -⟩ := ht.run i hr
  obtain ⟨h2, -⟩ := ht.started i _ d T h1
  have hzero := hfr.create _ hcmd
  rw [hzero] at hcmd
  rw [show (s.timers i).backend.cmdId - 1 = 0 by omega] at h2
  cases hcmd.symm.trans h2

/-- What handling the commands of the timer `i` does. -/
structure Handled (s : TimerManager) (i n : ℕ) (s' : TimerManager) : Prop where
  inv : Inv s'
  phase : s'.phase = s.phase
  pushes : s'.pushes = s.pushes
  commands : ∀ j, (s'.timers j).commands = (s.timers j).commands
  other : ∀ j, j ≠ i → (s'.timers j).backend = (s.timers j).backend
  cmdId : (s'.timers i).backend.cmdId = n

section Handled

variable {n : ℕ} {s₁ : TimerManager}

lemma Handled.halt (hf : FrontInv (s.setTimer i ((s.timers i).popped n)) σ s.signals) (ht : TimeInv s)
    (hk : TaskInv s) (hph : ∀ l, s.phase ≠ .expiring l) (hn : (s.timers i).backend.cmdId < n) :
    Handled s i n (halted s i ((s.timers i).popped n)) where
  inv := by
    refine ⟨⟨σ, hf.frame rfl rfl rfl rfl (fun j => ?_) (fun _ _ => id) fun _ => rfl⟩,
      ht.quiet rfl (fun _ => rfl) rfl rfl rfl hph hph (haltState_ne _) rfl (.inl hn),
      hk.frame rfl rfl rfl (live_le_of_quiet rfl (haltState_ne _))⟩
    by_cases hj : j = i
    · simp [hj, halted, setTimer, update_self]
    · simp [halted, setTimer, update_of_ne hj]
  phase := rfl
  pushes := rfl
  commands := field_update Timer.commands rfl
  other j hj := congrArg Timer.backend (update_of_ne hj _ _)
  cmdId := by
    simp only [halted, update_self]
    rfl

lemma Handled.start (h : Handled s i n s₁) (hph : ∀ l, s.phase ≠ .expiring l)
    (hnr : (s₁.timers i).backend.state ≠ .running) {d : ℤ} (hdur : 0 ≤ d ∧ d ≤ maxTimerDuration)
    (hcmd : (s.timers i).commands[n - 1]? = some (.start d)) (hno : ∀ d' T, started i n d' T ∉ s₁.log) :
    ∃ s2, s₁.startTimerBackend i d = .ok s2 ∧ Handled s i n s2 := by
  obtain ⟨σ, hf⟩ := h.inv.front
  obtain ⟨s2, h1, h2⟩ := h.inv.time.start (by rw [h.phase]; exact hph) hnr hdur
    (by rw [h.cmdId, h.commands]; exact hcmd) (by rw [h.cmdId]; exact hno)
  have h3 : TaskInv s2 := by
    refine h.inv.tasks.start (fun T hm => ?_) h1
    rw [h.cmdId] at hm
    obtain ⟨d', T', h4, -⟩ := h.inv.time.expired i n T hm
    exact hno d' T' h4
  refine ⟨s2, h1, ?_⟩
  rw [TimerManager.startTimerBackend] at h1
  dsimp only at h1
  rw [if_neg hnr] at h1
  cases h1
  refine ⟨⟨⟨σ, hf.frame rfl rfl rfl rfl (fun j => ?_) (fun _ _ hm => mem_cons_of_mem _ hm) fun _ => rfl⟩, h2, h3⟩,
    h.phase, h.pushes, fun j => ?_, fun j hj => ?_, ?_⟩
  · by_cases hj : j = i
    · simp [hj, update_self]
    · simp [update_of_ne hj]
  · rw [← h.commands j]
    exact field_update Timer.commands (by rfl) j
  · simp [update_of_ne hj, h.other j hj]
  · simp only [update_self]
    exact h.cmdId

lemma Handled.destroy (h : Handled s i n s₁) (hph : ∀ l, s.phase ≠ .expiring l)
    (hnr : (s₁.timers i).backend.state ≠ .running) (hlt : i < s₁.nextTimerId) (hlen : n = (s.timers i).commands.length)
    (hlast : (s.timers i).commands.getLast? = some .destroy) (hholder : (s₁.timers i).holder = none)
    (hexec : (s₁.timers i).exec ≠ none) : ∃ s2, s₁.destroyTimerBackend i = .ok s2 ∧ Handled s i n s2 := by
  obtain ⟨σ, hf⟩ := h.inv.front
  obtain ⟨s2, hs2⟩ : ∃ s2, s₁.destroyTimerBackend i = .ok s2 := by
    rw [destroyTimerBackend]
    rw [if_neg hnr]
    exact ⟨_, rfl⟩
  have h1 := hf.destroyTimerBackend hlt (by rw [h.commands]; exact hlast) hholder (by rw [h.cmdId, h.commands]; exact hlen)
    hexec hs2
  refine ⟨s2, hs2, ?_⟩
  rw [destroyTimerBackend] at hs2
  dsimp only at hs2
  rw [if_neg hnr] at hs2
  cases hs2
  have hph1 : ∀ l, s₁.phase ≠ .expiring l := by
    rw [h.phase]
    exact hph
  refine ⟨⟨⟨σ, h1⟩, ?_, ?_⟩, h.phase, h.pushes, fun j => ?_, fun j hj => ?_, ?_⟩
  · refine h.inv.time.quiet rfl (fun b => ?_) rfl rfl rfl hph1 hph1 (by simp) rfl (.inr ⟨hnr, rfl⟩)
    exact (h.inv.time.erase_eq fun hr => hnr hr.1).symm
  · exact h.inv.tasks.frame rfl rfl rfl (live_le_of_quiet rfl (by simp))
  · rw [← h.commands j]
    exact field_update Timer.commands (by rfl) j
  · simp [update_of_ne hj, h.other j hj]
  · simp only [update_self]
    exact h.cmdId

/-- **What the backend does with a command that it has popped.** -/
theorem applyCommand_spec (hf : FrontInv (s.setTimer i ((s.timers i).popped n)) σ s.signals) (ht : TimeInv s)
    (hk : TaskInv s) {a : CmdAction} (hph : ∀ l, s.phase ≠ .expiring l) (hlt : i < s.nextTimerId)
    (hfr : FrontOk (s.timers i) (callback i (s.timers i).commands.length ∈ s.log))
    (hn : (s.timers i).backend.cmdId < n) (hcmd : (s.timers i).commands[n - 1]? = some a) :
    ∃ s2, (s.setTimer i ((s.timers i).popped n)).applyCommand i a = .ok s2 ∧ Handled s i n s2 := by
  have hstop : (s.setTimer i ((s.timers i).popped n)).tryStopTimerBackend i = halted s i ((s.timers i).popped n) :=
    ht.tryStop_eq rfl rfl
  have hhalt := Handled.halt hf ht hk hph hn
  have hself : (halted s i ((s.timers i).popped n)).timers i = { (s.timers i).popped n with
      backend := { ((s.timers i).popped n).backend with state := haltState (s.timers i).backend.state } } :=
    update_self _ _ _
  have hnr : ((halted s i ((s.timers i).popped n)).timers i).backend.state ≠ .running := by
    rw [hself]
    exact haltState_ne _
  cases a with
  | create =>
    -- a new timer does not run, so nothing changes
    have hnot : ¬ Running s i := ht.not_running_of_create hn hfr hcmd
    have heq : s.setTimer i ((s.timers i).popped n) = halted s i ((s.timers i).popped n) := by
      rw [← hstop, TimerManager.tryStopTimerBackend]
      rw [if_neg]
      simp only [setTimer, update_self]
      exact hnot
    rw [heq]
    exact ⟨_, rfl, hhalt⟩
  | stop =>
    rw [applyCommand, hstop]
    exact ⟨_, rfl, hhalt⟩
  | start d =>
    rw [applyCommand, hstop]
    refine hhalt.start hph hnr (hfr.durations d (mem_of_getElem? hcmd)) hcmd fun d' T hm => ?_
    obtain ⟨-, h2⟩ := ht.started i n d' T hm
    omega
  | destroy =>
    obtain ⟨hlen, hholder⟩ := hfr.destroyed n hn hcmd
    rw [applyCommand, hstop]
    refine hhalt.destroy hph hnr hlt hlen (getLast?_of_cmd hlen hcmd) (by rw [hself]; exact hholder) ?_
    rw [hself]
    intro he
    have := (hfr.exec he).2
    omega

end Handled

section

variable (h : Inv s)
include h

lemma Inv.handleSignal (hph : s.phase = .commands (i :: l)) :
    ∃ s', ({ s with phase := .commands l } : TimerManager).handleSignal i = .ok s' ∧ StepOk s s' := by
  obtain ⟨σ, hf⟩ := h.front
  have hsig : s.signals i = ({ s with phase := .commands l } : TimerManager).signals i + 1 := by
    simp only [signals, hph, batch, count_cons_self]
    omega
  have hsig' : ∀ j, j ≠ i → ({ s with phase := .commands l } : TimerManager).signals j = s.signals j := by
    intro j hj
    simp only [signals, hph, batch, count_cons_of_ne (Ne.symm hj)]
  -- a timer with a signal has a command
  have hch := hf.chan i
  rw [hsig] at hch
  obtain ⟨cmd, hpend, hn, hle, hcmd, -⟩ := hch.pop
  have hlt := hf.lt_of_command hcmd
  have hf0 : FrontInv { s with phase := .commands l } σ s.signals :=
    hf.frame rfl rfl rfl rfl (fun _ => rfl) (fun _ _ => id) fun _ => rfl
  obtain ⟨s₁, h1, hf1, hcr, hts, hs1⟩ := hf0.connect hlt
  have hts : ∀ j, s₁.timers j = { s.timers j with created := (s₁.timers j).created } := hts
  have hph1 : s₁.phase = .commands l := by rw [hs1]
  have hex1 : ∀ l, s₁.phase ≠ .expiring l := by
    simp [hph1]
  have ht1 : TimeInv s₁ := by
    refine h.time.frame (by rw [hs1]) (by rw [hs1]) (by rw [hs1]) (fun l' => iff_of_false (hex1 l') ?_)
      (fun j => by rw [hts j]) (fun j n x => by rw [hts j]; exact id) (fun e _ => by rw [hs1])
    simp [hph]
  have hk1 : TaskInv s₁ :=
    h.tasks.frame (by rw [hs1]) (by rw [hs1]) (by rw [hs1]) (live_le_of_backend fun j => by rw [hts j])
  have hsg1 : s₁.signals = ({ s with phase := .commands l } : TimerManager).signals := by
    rw [hs1]
    rfl
  have hch1 := hf1.chan i
  rw [hsig, ← hsg1] at hch1
  obtain ⟨cmd1, hpend1, hn1, hle1, hcmd1, hpop1⟩ := hch1.pop
  have hlt1 : i < s₁.nextTimerId := by
    rw [hs1]
    exact hlt
  have hpopped : FrontInv (s₁.setTimer i ((s₁.timers i).popped cmd1.cmdId)) σ s₁.signals := by
    refine hf1.popped hlt1 hpop1 hn1 hle1 fun j hj => ?_
    rw [hsg1]
    exact hsig' j hj
  obtain ⟨s2, h2, hdone⟩ := applyCommand_spec hpopped ht1 hk1 hex1 hlt1 (hf1.front i) hn1 hcmd1
  refine ⟨s2, ?_, hdone.inv, ?_⟩
  · rw [TimerManager.handleSignal, h1, ok_bind, if_pos hcr, TimerManager.handleTimerUpdates]
    rw [hpend1]
    exact h2
  · intro j n hn' hd
    have hpush : s2.pushes = s.pushes := by
      rw [hdone.pushes, hs1]
    have hcmds : ∀ j, (s2.timers j).commands = (s.timers j).commands := fun j => by rw [hdone.commands, hts]
    have hsent : Sent s2 j n := by
      rw [Sent, hpush, hcmds]
      exact hn'
    refine ⟨hsent, ?_⟩
    rw [hdone.phase, hph1]
    by_cases hj : j = i
    · -- the command that is popped is the last one that was sent
      subst hj
      left
      have hsent1 : Sent s₁ j n := by
        rw [Sent, hts j, hs1]
        exact hn'
      rw [hdone.cmdId, (hch1.pending cmd1 hpend1).1]
      exact hf1.le_sent hsent1
    · rw [hdone.other j hj, hts j]
      refine hd.imp id fun hm => ?_
      rw [hph] at hm
      exact (mem_cons.mp hm).resolve_left hj

lemma Inv.handlePostponedTimeout (hph : s.phase = .postponed) (success : Bool) :
    ∃ s', s.handlePostponedTimeout success = .ok s' ∧ StepOk s s' := by
  obtain ⟨σ, hf⟩ := h.front
  have hbatch : s.phase.batch = [] := by rw [hph]; rfl
  have hex : ∀ l, s.phase ≠ .expiring l := by rw [hph]; exact nofun
  have hready : StepOk s { s with phase := .ready } := h.nextPhase hbatch rfl hex nofun
  -- the front of the list is dispatched or dropped
  have hdrop : ∀ x l tasks, s.failedToTriggerTimers = x :: l → tasks = s.tasks ∨ tasks = s.tasks ++ [x] →
      StepOk s { s with tasks := tasks, failedToTriggerTimers := l } := by
    intro x l tasks hx htasks
    exact ⟨⟨⟨σ, hf.frame rfl rfl rfl rfl (fun _ => rfl) (fun _ _ => id) fun _ => rfl⟩,
      h.time.frame rfl rfl rfl (fun _ => Iff.rfl) (fun _ => rfl) (fun _ _ _ => id) fun _ _ => Iff.rfl,
      h.tasks.postponed hx htasks⟩, Progress.of_same rfl (fun _ => rfl) (fun _ => rfl) fun _ => id⟩
  rw [TimerManager.handlePostponedTimeout]
  split
  · exact ⟨_, rfl, hready⟩
  next i prevCmdId l hfail =>
    dsimp only
    split
    next hen =>
      obtain ⟨heq, heq'⟩ := hen
      obtain ⟨T, hT⟩ := h.tasks.dispatched i prevCmdId (.inr (.inl (hfail ▸ mem_cons_self)))
      obtain ⟨d, hd, -⟩ := h.time.cmd_of_expired hT
      have hlast := getLast?_of_cmd (by rw [← heq, heq', (hf.chan i).cmdId]) hd
      obtain ⟨c, hc⟩ := ne_none_iff_exists'.mp (hf.exec_ne hlast)
      rw [triggerTimeoutHandling, hc]
      rw [ok_bind]
      cases success with
      | true =>
        refine ⟨_, rfl, hdrop (i, prevCmdId) l _ hfail (.inr ?_)⟩
        rw [heq]
        rfl
      | false => exact ⟨_, rfl, hready⟩
    · exact ⟨_, rfl, hdrop _ l _ hfail (.inl rfl)⟩

lemma Inv.advance (hph : s.phase = .ready) : StepOk s { s with
      curTime := (s.curTime + 1) % 2 ^ 32
      nofTicks := s.nofTicks + 1
      phase := .expiring (s.timeWheel ((s.curTime + 1) % 2 ^ 32 % wheelSize)) } := by
  refine h.tickStep (by rw [hph]; rfl) ?_ (h.time.advance hph)
  funext j
  simp [signals, hph, batch]

lemma Inv.passOver {ph : TickPhase} (hph : s.phase = .expiring l) (hb : ph.batch = [])
    (ht : TimeInv { s with phase := ph }) : StepOk s { s with phase := ph } := by
  have hb' : s.phase.batch = [] := by rw [hph]; rfl
  refine h.tickStep hb' ?_ ht
  funext j
  simp [signals, hb, hb']

lemma Inv.expire (hph : s.phase = .expiring (i :: l))
    (heq : s.curTime = (s.timers i).backend.timeout) (success : Bool) :
    ∃ s', ({ s with phase := .expiring l } : TimerManager).expireTimerBackend i success = .ok s' ∧ StepOk s s' := by
  obtain ⟨σ, hf⟩ := h.front
  have hrun : (s.timers i).backend.state = .running := (h.time.visiting _ hph).2 i mem_cons_self
  have ht := h.time.expire hph heq
  -- what is added to the tasks or to the postponed timeouts does not matter for the other invariants
  have hadd : ∀ tasks failed, (tasks = s.tasks ∧ failed = s.failedToTriggerTimers ∨
      tasks = s.tasks ++ [(i, (s.timers i).backend.cmdId)] ∧ failed = s.failedToTriggerTimers ∨
      tasks = s.tasks ∧ failed = s.failedToTriggerTimers ++ [(i, (s.timers i).backend.cmdId)]) →
      StepOk s { expiredState s i l with tasks := tasks, failedToTriggerTimers := failed } := by
    intro tasks failed hnew
    refine ⟨⟨⟨σ, hf.frame rfl rfl rfl rfl (fun j => ?_) (fun _ _ hm => mem_cons_of_mem _ hm) fun j => ?_⟩,
      ht.frame rfl rfl rfl (fun _ => Iff.rfl) (fun _ => rfl) (fun _ _ _ => id) fun _ _ => Iff.rfl, ?_⟩, ?_⟩
    · by_cases hj : j = i
      · simp [hj, expiredState, update_self]
      · simp [expiredState, update_of_ne hj]
    · simp [signals, hph, expiredState, batch]
    · refine h.tasks.expire ?_ ⟨s.nofTicks, mem_cons_self⟩ ?_ ?_ ?_ hnew
      · simp [live, hrun]
      · intro j k
        by_cases hj : j = i
        · subst hj
          by_cases hk : k = (s.timers j).backend.cmdId
          · simp [live, expiredState, hk]
          · simp [live, expiredState, hk, Ne.symm hk]
        · simp [live, expiredState, hj]
      · intro j k
        exact count_cons_of_ne (by simp)
      · exact fun x hx => mem_cons_of_mem _ hx
    · refine Progress.of_same rfl (field_update Timer.commands rfl)
        (field_update (fun t : Timer => t.backend.cmdId) rfl) fun j hj => ?_
      rw [hph] at hj
      exact absurd hj not_mem_nil
  have hwheel := h.time.update_erase (i := i)
  rw [TimerManager.expireTimerBackend]
  dsimp only
  rw [if_neg (not_not.mpr hrun)]
  simp only [hwheel]
  split
  next hcmd =>
    -- the last command is the start command of this run
    obtain ⟨d, T, h1, -⟩ := h.time.run i hrun
    have hlast := getLast?_of_cmd (by rw [hcmd, (hf.chan i).cmdId]) (h.time.started i _ d T h1).1
    obtain ⟨c, hc⟩ := ne_none_iff_exists'.mp (hf.exec_ne hlast)
    have htrig : (expiredState s i l).triggerTimeoutHandling i success = .ok (if success then
        { expiredState s i l with tasks := s.tasks ++ [(i, (s.timers i).backend.cmdId)] } else expiredState s i l) := by
      simp [TimerManager.triggerTimeoutHandling, expiredState, hc]
    show ∃ s', ((expiredState s i l).triggerTimeoutHandling i success >>= fun s₁ => .ok (if success then s₁
      else { s₁ with
        failedToTriggerTimers := s₁.failedToTriggerTimers ++ [(i, (s.timers i).backend.cmdId)] })) = .ok s' ∧ StepOk s s'
    rw [htrig, ok_bind]
    cases success with
    | true => exact ⟨_, rfl, hadd _ _ (.inr (.inl ⟨rfl, rfl⟩))⟩
    | false => exact ⟨_, rfl, hadd _ _ (.inr (.inr ⟨rfl, rfl⟩))⟩
  · exact ⟨_, rfl, hadd _ _ (.inl ⟨rfl, rfl⟩)⟩

lemma Inv.tick (success : Bool) : ∃ s', s.tick success = .ok s' ∧ StepOk s s' := by
  rw [TimerManager.tick]
  cases hph : s.phase with
  | idle => exact ⟨_, rfl, h.tickBegin hph⟩
  | commands l =>
    cases l with
    | nil => exact ⟨_, rfl, h.nextPhase (by rw [hph]; rfl) rfl (by rw [hph]; exact nofun) nofun⟩
    | cons i l => exact h.handleSignal hph
  | postponed => exact h.handlePostponedTimeout hph success
  | ready => exact ⟨_, rfl, h.advance hph⟩
  | expiring l =>
    cases l with
    | nil => exact ⟨_, rfl, h.passOver hph rfl (h.time.endTick hph)⟩
    | cons i l =>
      dsimp only
      split
      next hne => exact ⟨_, rfl, h.passOver hph rfl (h.time.skip hph hne)⟩
      next heq => exact h.expire hph (not_not.mp heq) success

/-! ### Timeout tasks -/

theorem Inv.task {e : ℕ} (hm : (i, e) ∈ s.tasks) (he : (s.timers i).cmdId = e) :
    (s.timers i).state = .running ∧ (∃ d, (s.timers i).commands.getLast? = some (.start d)) ∧
      (∃ T, Event.expired i e T ∈ s.log) ∧ i < s.nextTimerId := by
  obtain ⟨σ, hf⟩ := h.front
  obtain ⟨T, hT⟩ := h.tasks.dispatched i e (.inl hm)
  obtain ⟨d, hd, -⟩ := h.time.cmd_of_expired hT
  have hlen : e = (s.timers i).commands.length := by rw [← he, (hf.chan i).cmdId]
  have hlast := getLast?_of_cmd hlen hd
  refine ⟨((hf.front i).running d hlast).resolve_left fun hdone => ?_, ⟨d, hlast⟩, ⟨T, hT⟩, hf.lt_of_command hd⟩
  -- otherwise the callback would have been called already
  rw [← hlen] at hdone
  have h1 := count_pos_iff.mpr hm
  have h2 := count_pos_iff.mpr hdone
  have h3 := h.tasks.once i e
  omega

lemma Inv.runTask (i e : ℕ) : Post Expected (StepOk s) (s.runTask i e) := by
  obtain ⟨σ, hf⟩ := h.front
  rw [TimerManager.runTask]
  split
  · exact .inl rfl
  rename_i hm
  have hm : (i, e) ∈ s.tasks := by simpa using hm
  dsimp only
  split
  next he =>
    obtain ⟨h1, -, -, hlt⟩ := h.task hm he
    rw [if_neg (not_not.mpr h1)]
    have hlen : e = (s.timers i).commands.length := by rw [← he, (hf.chan i).cmdId]
    have hsame : ∀ j, (Function.update s.timers i { s.timers i with state := .expired } j).backend =
        (s.timers j).backend := field_update Timer.backend rfl
    have hcmds : ∀ j, (Function.update s.timers i { s.timers i with state := .expired } j).commands =
        (s.timers j).commands := field_update Timer.commands rfl
    refine ⟨⟨⟨σ, ?_⟩, ?_, ?_⟩, Progress.of_same rfl hcmds (fun j => by rw [hsame]) fun _ => id⟩
    · have hcb := hf.callback hlt (s.tasks.erase (i, e))
      rw [← hlen] at hcb
      exact hcb
    · refine h.time.frame rfl rfl rfl (fun _ => Iff.rfl) hsame (fun j n x hx => ?_) fun x hx => ?_
      · rw [hcmds j]
        exact hx
      · rw [mem_cons, or_iff_right (hx i e)]
    · exact h.tasks.ran hm rfl rfl (.inr rfl) fun j k => by simp only [live, hsame]
  · exact ⟨⟨⟨σ, hf.frame rfl rfl rfl rfl (fun _ => rfl) (fun _ _ => id) fun _ => rfl⟩,
      h.time.frame rfl rfl rfl (fun _ => Iff.rfl) (fun _ => rfl) (fun _ _ _ => id) fun _ _ => Iff.rfl,
      h.tasks.ran hm rfl rfl (.inl rfl) fun _ _ => rfl⟩, Progress.of_same rfl (fun _ => rfl) (fun _ => rfl) fun _ => id⟩

end

/-! ### Runs -/

theorem Inv.init (capacity : ℕ) : Inv (TimerManager.init capacity) :=
  ⟨⟨_, FrontInv.init capacity⟩, TimeInv.init capacity, TaskInv.init capacity⟩

lemma Inv.step (h : Inv s) (a : TimerAction) (ho : Orderly s a) : Post Expected (StepOk s) (s.step a) := by
  cases a with
  | create c cached => exact h.create cached ho
  | set c i dur => exact Inv.withTimer fun hc hi => h.set hc hi ho
  | run c i => exact Inv.withTimer fun hc hi => h.run hc hi
  | stop c i => exact Inv.withTimer fun hc hi => h.stop hc hi
  | destroy c i => exact Inv.withTimer fun hc hi => h.destroy hc hi
  | exchange c => exact h.exchange c
  | finish c => exact h.finish c
  | tick success =>
    obtain ⟨s', h1, h2⟩ := h.tick success
    show Post Expected (StepOk s) (s.tick success)
    rw [h1]
    exact h2
  | runTask i e => exact h.runTask i e

lemma Inv.of_reach {capacity : ℕ} (hr : Reach TimerManager.step Orderly (TimerManager.init capacity) s) : Inv s :=
  hr.invariant (Inv.init capacity) fun _ a _ hi ho hs => ((hi.step a ho).of_ok hs).1

lemma Inv.signalled (h : Inv s) (hp : (s.timers i).channel.pending ≠ none) :
    i ∈ s.timersWithPendingEvents ∨ i ∈ s.phase.batch ∨
      ∃ c w, s.pushes c = some (i, .exchanged w) ∧ (s.timers i).channel.buffers w = none := by
  obtain ⟨σ, hf⟩ := h.front
  have hsig := (hf.chan i).signal
  rw [if_pos (isSome_iff_ne_none.mpr hp), signals] at hsig
  by_cases h1 : i ∈ s.timersWithPendingEvents
  · exact .inl h1
  by_cases h2 : i ∈ s.phase.batch
  · exact .inr (.inl h2)
  rw [count_eq_zero_of_not_mem h1, count_eq_zero_of_not_mem h2] at hsig
  -- so the signal is owed by a call of `push`
  right
  right
  cases hσ : σ i with
  | none =>
    rw [hσ] at hsig
    cases hsig
  | some st =>
    obtain ⟨c, hc⟩ := hf.pushes.pusher i st hσ
    rw [hσ] at hsig
    cases st with
    | written => cases hsig
    | exchanged w =>
      refine ⟨c, w, hc, ?_⟩
      cases hw : (s.timers i).channel.buffers w with
      | none => rfl
      | some cmd =>
        rw [owed, hw] at hsig
        cases hsig

/-- **The next tick.** The backend has popped the command that was the last one when the tick began, or a later one. -/
theorem Inv.popped_by_next_tick (h : Inv s) (hph : s.phase = .idle) (hno : ∀ c st, s.pushes c ≠ some (i, st))
    {success : Bool} {s₁ s2 : TimerManager} (h1 : s.step (.tick success) = .ok s₁)
    (hr : Reach TimerManager.step Orderly s₁ s2) (hbatch : i ∉ s2.phase.batch) :
    (s.timers i).commands.length ≤ (s2.timers i).backend.cmdId := by
  obtain ⟨σ, hf⟩ := h.front
  have hch := hf.chan i
  rw [hf.pushes.idle_of_not_pushing hno] at hch
  have hsent : Sent s i (s.timers i).commands.length := ⟨le_rfl, fun c hp => absurd hp (hno c _)⟩
  -- in the first state of the tick the command has been popped or its signal is to be handled
  have hdue : Inv s₁ ∧ Sent s₁ i (s.timers i).commands.length ∧
      ((s.timers i).commands.length ≤ (s₁.timers i).backend.cmdId ∨ i ∈ s₁.phase.batch) := by
    have hi1 := ((h.step (.tick success) trivial).of_ok h1).1
    have h1' : s.tick success = .ok s₁ := h1
    rw [TimerManager.tick, hph] at h1'
    cases h1'
    refine ⟨hi1, hsent, ?_⟩
    cases hp : (s.timers i).channel.pending with
    | none => exact .inl (hch.popped hp).ge
    | some cmd =>
      right
      have hsig := hch.signal
      rw [hp] at hsig
      simp only [signals, hph, batch, count_nil, owed, isSome_some, if_true] at hsig
      have hpos : 0 < s.timersWithPendingEvents.count i := by omega
      exact count_pos_iff.mp hpos
  have hfinal := hr.invariant (P := fun s' => Inv s' ∧ Sent s' i (s.timers i).commands.length ∧
    ((s.timers i).commands.length ≤ (s'.timers i).backend.cmdId ∨ i ∈ s'.phase.batch)) hdue (by
      rintro s3 a s4 ⟨hi, hn, hd⟩ ho hs
      obtain ⟨hi', hp⟩ := (hi.step a ho).of_ok hs
      exact ⟨hi', hp i _ hn hd⟩)
  exact hfinal.2.2.resolve_right hbatch

end Steps

/-- **The timer protocol**, in every run in which a timer of the free list is taken only when the call that destroyed it
has returned, and durations are not negative. -/
theorem timer_protocol (capacity : ℕ) (s : TimerManager)
    (hr : Reach TimerManager.step Orderly (TimerManager.init capacity) s) :
    (∀ i e s', s.step (.runTask i e) = .ok s' → s'.log ≠ s.log →
      s'.log = .callback i e :: s.log ∧ (s.timers i).state = .running ∧ e = (s.timers i).commands.length ∧
        (∃ d, (s.timers i).commands.getLast? = some (.start d)) ∧ ∃ T, Event.expired i e T ∈ s.log) ∧
    (∀ i e, s.log.count (.callback i e) ≤ 1) ∧
    (∀ a e, Orderly s a → s.step a = .error e → Expected e) ∧
    (∀ i, (s.timers i).channel.pending ≠ none → i ∈ s.timersWithPendingEvents ∨ i ∈ s.phase.batch ∨
      ∃ c w, s.pushes c = some (i, .exchanged w) ∧ (s.timers i).channel.buffers w = none) ∧
    (∀ i success s₁ s₂, s.phase = .idle → (∀ c st, s.pushes c ≠ some (i, st)) → s.step (.tick success) = .ok s₁ →
      Reach TimerManager.step Orderly s₁ s₂ → i ∉ s₂.phase.batch →
      (s.timers i).commands.length ≤ (s₂.timers i).backend.cmdId) ∧
    (∀ i n d T, Event.started i n d T ∈ s.log → (s.timers i).commands[n - 1]? = some (.start d) ∧
      (∀ T', Event.expired i n T' ∈ s.log → T' = T + max d.toNat 1) ∧
      ((s.timers i).backend.cmdId = n → T + max d.toNat 1 ≤ s.nofTicks → (∀ l, s.phase ≠ .expiring l) →
        Event.expired i n (T + max d.toNat 1) ∈ s.log)) ∧
    (∀ i n T', Event.expired i n T' ∈ s.log → ∃ d T, Event.started i n d T ∈ s.log) ∧
    s.curTime = s.nofTicks % 2 ^ 32 ∧ ∀ i, (s.timers i).cmdId = (s.timers i).commands.length := by
  have h := Inv.of_reach hr
  obtain ⟨σ, hf⟩ := h.front
  refine ⟨fun i e s' hs hne => ?_, fun i e => ?_, fun a e ho hs => (h.step a ho).of_error hs, fun i => h.signalled,
    fun i success s₁ s₂ hph hno h1 hr' hb => h.popped_by_next_tick hph hno h1 hr' hb, fun i n d T hm => ?_,
    fun i n T' hm => ?_, h.time.time, fun i => (hf.chan i).cmdId⟩
  · have hs' : s.runTask i e = .ok s' := hs
    rw [TimerManager.runTask] at hs'
    split at hs'
    · cases hs'
    rename_i hm
    have hm : (i, e) ∈ s.tasks := by simpa using hm
    dsimp only at hs'
    split at hs'
    next he =>
      obtain ⟨h1, h2, h3, -⟩ := h.task hm he
      rw [if_neg (not_not.mpr h1)] at hs'
      cases hs'
      exact ⟨rfl, h1, by rw [← he, (hf.chan i).cmdId], h2, h3⟩
    · cases hs'
      exact absurd rfl hne
  · have := h.tasks.once i e
    omega
  · obtain ⟨h1, h2⟩ := h.time.started i n d T hm
    refine ⟨h1, fun T' hT' => ?_, fun hb hle hph => ?_⟩
    · obtain ⟨d', T'', h3, h4⟩ := h.time.expired i n T' hT'
      obtain ⟨rfl, rfl⟩ := h.time.unique i n d T d' T'' hm h3
      exact h4
    · -- a run that goes on has not reached its end
      rcases h2 with h2 | ⟨-, hrun | hexp⟩
      · omega
      · obtain ⟨d', T', h3, -, -, -, h4⟩ := h.time.run i hrun
        rw [hb] at h3
        obtain ⟨rfl, rfl⟩ := h.time.unique i n d T d' T' hm h3
        rcases h4 with h4 | ⟨-, l, hl, -⟩
        · exact absurd hle (not_le.mpr h4)
        · exact absurd hl (hph l)
      · exact hexp
  · obtain ⟨d, T, h1, -⟩ := h.time.expired i n T' hm
    exact ⟨d, T, h1⟩

def orderlyCheck (_ : TimerManager) : TimerAction → Bool
  | .create _ (some _) => false
  | .set _ _ dur => decide (0 ≤ dur)
  | _ => true

lemma orderly_of_check (s : TimerManager) (a : TimerAction) (h : orderlyCheck s a = true) : Orderly s a := by
  cases a with
  | create c cached =>
    cases cached with
    | none => trivial
    | some i => cases h
  | set c i dur =>
    show 0 ≤ dur
    exact of_decide_eq_true h
  | _ => trivial

/-- A new timer with a duration of one tick: its run begins before the first tick and expires in it, and the callback is
called once. -/
theorem timer_protocol_one_run : ∃ s : TimerManager,
    s.log = [.callback 0 2, .expired 0 2 1, .started 0 2 1 0] ∧ s.log.count (.callback 0 2) ≤ 1 := by
  obtain ⟨s, hs⟩ : ∃ s, Lib.Run.run TimerManager.step orderlyCheck (TimerManager.init 0)
      ([.create 3 none, .exchange 3, .finish 3, .set 3 0 1, .run 3 0, .exchange 3, .finish 3] ++
        replicate 7 (.tick true) ++ [.runTask 0 2]) = some s := ⟨_, rfl⟩
  have hr : Reach TimerManager.step Orderly (TimerManager.init 0) s := Reach.of_run orderly_of_check .init hs
  refine ⟨s, ?_, (timer_protocol 0 s hr).2.1 0 2⟩
  obtain rfl := some.inj hs
  decide

/-- A whole tick in which at most one signal is handled and no run expires. -/
def wholeTick (signals : ℕ) : List TimerAction := List.replicate (5 + signals) (.tick true)

/-- The context 1 stops after the exchange of `push`; the context 2 takes the timer meanwhile. -/
def overlappingCalls : List TimerAction :=
  [.create 1 (some 0), .set 1 0 500, .run 1 0, .exchange 1, .finish 1, .destroy 1 0, .exchange 1] ++ wholeTick 1 ++
    [.create 2 (some 0), .set 2 0 500, .run 2 0, .exchange 2, .finish 2, .finish 1] ++ wholeTick 1 ++
    [.stop 2 0, .exchange 2, .finish 2] ++ wholeTick 1

/-- A start command gets into the middle buffer without a signal, and a run of a negative duration does not expire. -/
theorem timer_command_lost :
    (∃ s, Reach TimerManager.step (fun _ _ => True) (TimerManager.init 1) s ∧ s.phase = .idle ∧ s.pushes 1 = none ∧
      s.pushes 2 = none ∧ (s.timers 0).state = .running ∧ (s.timers 0).channel.pending = some ⟨5, .start 500⟩ ∧
      s.timersWithPendingEvents = [] ∧ (s.timers 0).backend.cmdId = 4) ∧
    ∃ s, Reach TimerManager.step (fun _ _ => True) (TimerManager.init 1) s ∧ s.phase = .idle ∧ s.nofTicks = 1 ∧
      s.log = [.started 0 1 (-1) 0] ∧ (s.timers 0).backend = ⟨1, .running, 2 ^ 32 - 1⟩ :=
  ⟨Reach.exists_run (overlappingCalls ++ [.run 2 0, .exchange 2, .finish 2] ++ wholeTick 0) (by decide +kernel),
    Reach.exists_run ([.create 1 (some 0), .set 1 0 (-1), .run 1 0, .exchange 1, .finish 1] ++ wholeTick 1)
      (by decide +kernel)⟩

end SrsRan.Timers
