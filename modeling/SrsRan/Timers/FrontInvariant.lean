import SrsRan.Timers.Manager
import SrsRan.Lib.ExactList

/-!
# The channels between the frontends and the backend

`ChanOk` says how far the commands of a timer have come, and `FrontOk` relates the state of the frontend to them.  In
`FrontInv`, `σ i` is the stage of the call of `push` that is under way for the timer `i`.
-/

namespace SrsRan.Timers

open Support Lib.Run Lib Lib.ExactList List Option
open Function (update update_self update_of_ne update_idem)
open TimerManager (createFrontendTimer exchange finish handlePendingTimerCreations setTimer stop)

def heldBuffer (t : Timer) : Option PushStage → Fin 3
  | some (.exchanged w) => w
  | _ => t.channel.write

def sent (t : Timer) : Option PushStage → ℕ
  | some .written => t.commands.length - 1
  | _ => t.commands.length

/-- A call of `push` is about to notify the backend. -/
def owed (t : Timer) : Option PushStage → ℕ
  | some (.exchanged w) => if (t.channel.buffers w).isNone then 1 else 0
  | _ => 0

/-- **The channel of a timer**, with the signals to handle. -/
structure ChanOk (t : Timer) (σ : Option PushStage) (signals : ℕ) : Prop where
  cmdId : t.cmdId = t.commands.length
  wf : t.channel.Wf (heldBuffer t σ)
  written : σ = some .written → ∃ a, t.channel.buffers t.channel.write = some ⟨t.commands.length, a⟩ ∧
    t.commands.getLast? = some a
  signal : signals + owed t σ = if t.channel.pending.isSome then 1 else 0
  pending : ∀ cmd, t.channel.pending = some cmd → cmd.cmdId = sent t σ ∧ t.backend.cmdId < cmd.cmdId ∧
    t.commands[cmd.cmdId - 1]? = some cmd.action
  popped : t.channel.pending = none → t.backend.cmdId = sent t σ

/-- **The frontend of a timer**, with `done` that the callback has been called. -/
structure FrontOk (t : Timer) (done : Prop) : Prop where
  exec : t.exec = none → t.holder = none ∧ t.backend.cmdId = t.commands.length
  holder : t.holder = none → ∀ d, t.commands.getLast? ≠ some (.start d)
  destroyed : ∀ n, t.backend.cmdId < n → t.commands[n - 1]? = some .destroy → n = t.commands.length ∧ t.holder = none
  running : ∀ d, t.commands.getLast? = some (.start d) → done ∨ t.state = .running
  duration : ∀ d, t.duration = some d → 0 ≤ d ∧ d ≤ maxTimerDuration
  durations : ∀ d, .start d ∈ t.commands → 0 ≤ d ∧ d ≤ maxTimerDuration
  create : ∀ n : ℕ, t.commands[n]? = some .create → n = 0

/-! ### One channel -/

section Channel

variable {t : Timer} {σ : Option PushStage} {k : ℕ}

lemma sent_le (t : Timer) (σ : Option PushStage) : sent t σ ≤ t.commands.length := by
  cases σ with
  | none => exact le_rfl
  | some st =>
    cases st with
    | written => exact Nat.sub_le _ _
    | exchanged w => exact le_rfl

lemma ChanOk.congr {t' : Timer} (h : ChanOk t σ k) (h1 : t'.cmdId = t.cmdId) (h2 : t'.channel = t.channel)
    (h3 : t'.backend.cmdId = t.backend.cmdId) (h4 : t'.commands = t.commands) : ChanOk t' σ k := by
  have hheld : heldBuffer t' σ = heldBuffer t σ := by simp only [heldBuffer, h2]
  have hsent : sent t' σ = sent t σ := by simp only [sent, h4]
  have howed : owed t' σ = owed t σ := by simp only [owed, h2]
  constructor
  · rw [h1, h4, h.cmdId]
  · rw [h2, hheld]
    exact h.wf
  · rw [h2, h4]
    exact h.written
  · rw [h2, howed]
    exact h.signal
  · rw [h2, h3, h4, hsent]
    exact h.pending
  · rw [h2, h3, hsent]
    exact h.popped

lemma ChanOk.push (h : ChanOk t none k) (a : CmdAction) : ChanOk { t with
      cmdId := t.cmdId + 1
      channel := t.channel.fill ⟨t.cmdId + 1, a⟩
      commands := t.commands ++ [a] } (some .written) k := by
  have hpend := h.wf.pending_fill ⟨t.cmdId + 1, a⟩
  have hlen : (t.commands ++ [a]).length = t.commands.length + 1 := List.length_append
  constructor
  · rw [hlen, h.cmdId]
  · exact h.wf.fill _
  · intro _
    refine ⟨a, ?_, List.getLast?_concat⟩
    rw [TripleBuffer.buffers_fill, hlen, h.cmdId]
  · rw [hpend]
    exact h.signal
  · intro cmd hcmd
    have hcmd' : t.channel.pending = some cmd := hpend.symm.trans hcmd
    obtain ⟨h1, h2, h3⟩ := h.pending cmd hcmd'
    refine ⟨?_, h2, ?_⟩
    · show cmd.cmdId = (t.commands ++ [a]).length - 1
      rw [hlen]
      exact h1
    · show (t.commands ++ [a])[cmd.cmdId - 1]? = some cmd.action
      rw [List.getElem?_append_left (List.getElem?_eq_some_iff.mp h3).1]
      exact h3
  · intro hcmd
    have hcmd' : t.channel.pending = none := hpend.symm.trans hcmd
    show t.backend.cmdId = (t.commands ++ [a]).length - 1
    rw [hlen]
    exact h.popped hcmd'

lemma ChanOk.exchange (h : ChanOk t (some .written) k) :
    ChanOk { t with channel := t.channel.exchange } (some (.exchanged t.channel.middle)) k := by
  obtain ⟨a, h1, h2⟩ := h.written rfl
  have hpend : t.channel.exchange.pending = some ⟨t.commands.length, a⟩ := h1
  have hpos : 0 < t.commands.length := length_pos_iff.mpr fun hnil => by
    rw [hnil] at h2
    cases h2
  constructor
  · exact h.cmdId
  · exact h.wf.exchange
  · exact nofun
  · have hk := h.signal
    show k + (if t.channel.pending.isNone then 1 else 0) = if t.channel.exchange.pending.isSome then 1 else 0
    rw [hpend]
    have hk' : k = if t.channel.pending.isSome then 1 else 0 := hk
    rw [hk']
    cases t.channel.pending <;> rfl
  · intro cmd hcmd
    have hcmd' : cmd = ⟨t.commands.length, a⟩ := some.inj (hcmd.symm.trans hpend)
    subst hcmd'
    refine ⟨rfl, ?_, ?_⟩
    · -- what was sent before has a smaller number
      show t.backend.cmdId < t.commands.length
      cases hp : t.channel.pending with
      | none =>
        have := h.popped hp
        simp only [sent] at this
        omega
      | some cmd =>
        obtain ⟨h3, h4, -⟩ := h.pending cmd hp
        simp only [sent] at h3
        omega
    · rw [← getLast?_eq_getElem?, h2]
  · intro hcmd
    cases hpend.symm.trans hcmd

lemma ChanOk.finish {w : Fin 3} (h : ChanOk t (some (.exchanged w)) k) :
    ChanOk { t with channel := t.channel.adopt w } none
      (k + if (t.channel.buffers w).isNone then 1 else 0) where
  cmdId := h.cmdId
  wf := h.wf.adopt
  written := nofun
  signal := h.signal
  pending := h.pending
  popped := h.popped

lemma ChanOk.pop (h : ChanOk t σ (k + 1)) :
    ∃ cmd, t.channel.pending = some cmd ∧ t.backend.cmdId < cmd.cmdId ∧ cmd.cmdId ≤ t.commands.length ∧
      t.commands[cmd.cmdId - 1]? = some cmd.action ∧
      ChanOk { t with channel := t.channel.pop, backend := { t.backend with cmdId := cmd.cmdId } } σ k := by
  have hsig := h.signal
  cases hp : t.channel.pending with
  | none =>
    rw [hp] at hsig
    simp at hsig
  | some cmd =>
    obtain ⟨h1, h2, h3⟩ := h.pending cmd hp
    rw [hp] at hsig
    simp only [isSome_some, if_true] at hsig
    have hpop := h.wf.pending_pop
    refine ⟨cmd, rfl, h2, h1.le.trans (sent_le t σ), h3, ?_⟩
    have howed : owed { t with channel := t.channel.pop, backend := { t.backend with cmdId := cmd.cmdId } } σ =
        owed t σ := by
      cases σ with
      | none => rfl
      | some st =>
        cases st with
        | written => rfl
        | exchanged w =>
          have hw := h.wf.buffers_pop
          simp only [heldBuffer] at hw
          simp [owed, hw]
    constructor
    · exact h.cmdId
    · cases σ with
      | none => exact h.wf.pop
      | some st =>
        cases st with
        | written => exact h.wf.pop
        | exchanged w => exact h.wf.pop
    · intro hσ
      subst hσ
      obtain ⟨a, h4, h5⟩ := h.written rfl
      exact ⟨a, h.wf.buffers_pop.trans h4, h5⟩
    · rw [howed]
      simp only [hpop, isSome_none, Bool.false_eq_true, if_false]
      omega
    · intro cmd' hcmd'
      cases hpop.symm.trans hcmd'
    · intro _
      exact h1

end Channel

/-! ### One frontend -/

section Frontend

variable {t t' : Timer} {done done' : Prop}

lemma FrontOk.congr (h : FrontOk t done) (h1 : t'.exec = t.exec) (h2 : t'.holder = t.holder)
    (h3 : t'.backend.cmdId = t.backend.cmdId) (h4 : t'.commands = t.commands) (h5 : t'.state = t.state)
    (h6 : t'.duration = t.duration) (hd : done → done') : FrontOk t' done' := by
  constructor
  · rw [h1, h2, h3, h4]
    exact h.exec
  · rw [h2, h4]
    exact h.holder
  · rw [h2, h3, h4]
    exact h.destroyed
  · rw [h4, h5]
    exact fun d hlast => (h.running d hlast).imp hd id
  · rw [h6]
    exact h.duration
  · rw [h4]
    exact h.durations
  · rw [h4]
    exact h.create

lemma FrontOk.push {a : CmdAction} (h : FrontOk t done) (hold : t.holder ≠ none ∨ t.commands = [])
    (hcmds : t'.commands = t.commands ++ [a]) (hb : t'.backend = t.backend) (hexec : t'.exec ≠ none)
    (hholder : t'.holder = none ↔ a = .destroy)
    (hrun : ∀ d, a = .start d → t'.state = .running ∧ 0 ≤ d ∧ d ≤ maxTimerDuration)
    (hdur : ∀ d, t'.duration = some d → 0 ≤ d ∧ d ≤ maxTimerDuration) (hcreate : a = .create → t.commands = []) :
    FrontOk t' done' := by
  have hlast : t'.commands.getLast? = some a := by rw [hcmds, getLast?_concat]
  have hget : ∀ n : ℕ, ∀ x, t'.commands[n]? = some x → t.commands[n]? = some x ∨ n = t.commands.length ∧ x = a := by
    intro n x hx
    rw [hcmds] at hx
    rcases Nat.lt_trichotomy n t.commands.length with hn | hn | hn
    · rw [getElem?_append_left hn] at hx
      exact .inl hx
    · subst hn
      rw [getElem?_concat_length] at hx
      exact .inr ⟨rfl, (some.inj hx).symm⟩
    · rw [getElem?_eq_none (by rw [length_append, length_singleton]; omega)] at hx
      cases hx
  have hlen : t'.commands.length = t.commands.length + 1 := by rw [hcmds, length_append, length_singleton]
  constructor
  · intro he
    exact absurd he hexec
  · intro hh d hd
    rw [hholder.mp hh] at hlast
    cases hlast.symm.trans hd
  · intro n hn hx
    rw [hb] at hn
    rcases hget (n - 1) _ hx with hx' | ⟨hn', ha⟩
    · -- an earlier command destroyed the timer, so nobody has it
      obtain ⟨-, hnone⟩ := h.destroyed n hn hx'
      rcases hold with hold | hold
      · exact absurd hnone hold
      · rw [hold] at hx'
        cases hx'
    · exact ⟨by omega, hholder.mpr ha.symm⟩
  · intro d hd
    exact .inr (hrun d (some.inj (hlast.symm.trans hd))).1
  · exact hdur
  · intro d hd
    rw [hcmds, mem_append, mem_singleton] at hd
    rcases hd with hd | hd
    · exact h.durations d hd
    · exact (hrun d hd.symm).2
  · intro n hn
    rcases hget n _ hn with hn' | ⟨hn', ha⟩
    · exact h.create n hn'
    · rw [hn', hcreate ha.symm]
      rfl

lemma FrontOk.pop (h : FrontOk t done) {n : ℕ} (hlt : t.backend.cmdId < n) (hle : n ≤ t.commands.length)
    {ch : TripleBuffer Cmd} : FrontOk { t with channel := ch, backend := { t.backend with cmdId := n } } done where
  exec he := by
    have := (h.exec he).2
    omega
  holder := h.holder
  destroyed m hm hx := h.destroyed m (hlt.trans hm) hx
  running := h.running
  duration := h.duration
  durations := h.durations
  create := h.create

end Frontend

/-! ### All timers -/

def TickPhase.batch : TickPhase → List ℕ
  | .commands l => l
  | _ => []

def TimerManager.signals (s : TimerManager) (i : ℕ) : ℕ := s.timersWithPendingEvents.count i + s.phase.batch.count i

/-- The calls of `push` under way: at most one for each timer. -/
structure PushInv (pushes : ℕ → Option (ℕ × PushStage)) (holder : ℕ → Option ℕ) (σ : ℕ → Option PushStage)
    (next : ℕ) : Prop where
  push : ∀ c i st, pushes c = some (i, st) → σ i = some st ∧ (holder i = some c ∨ holder i = none) ∧ i < next
  pusher : ∀ i st, σ i = some st → ∃ c, pushes c = some (i, st)
  unique : ∀ c c' i st st', pushes c = some (i, st) → pushes c' = some (i, st') → c = c'

/-- **The frontends and their channels**, with the signals of the timers. -/
structure FrontInv (s : TimerManager) (σ : ℕ → Option PushStage) (sg : ℕ → ℕ) : Prop where
  pushes : PushInv s.pushes (fun i => (s.timers i).holder) σ s.nextTimerId
  chan : ∀ i, ChanOk (s.timers i) (σ i) (sg i)
  front : ∀ i, FrontOk (s.timers i) (Event.callback i (s.timers i).commands.length ∈ s.log)
  fresh : ∀ i, s.nextTimerId ≤ i →
    (s.timers i).commands = [] ∧ (s.timers i).created = false ∧ (s.timers i).holder = none
  uncreated : Exactly s.pendingTimersToCreate fun i => i < s.nextTimerId ∧ (s.timers i).created = false
  free : Exactly s.timerFreeList fun i => i < s.nextTimerId ∧ (s.timers i).exec = none

section Pushes

variable {pushes : ℕ → Option (ℕ × PushStage)} {holder holder' : ℕ → Option ℕ} {σ : ℕ → Option PushStage}
  {next : ℕ} {c i : ℕ}

section

variable (h : PushInv pushes holder σ next)
include h

lemma PushInv.update (x : Option PushStage)
    (hc : (pushes c = none ∧ σ i = none) ∨ ∃ st, pushes c = some (i, st)) (hother : ∀ j, j ≠ i → holder' j = holder j)
    (hi : holder' i = some c ∨ holder' i = none) (hlt : i < next) :
    PushInv (update pushes c (x.map fun st => (i, st))) holder' (update σ i x) next := by
  -- no other context pushes a command of this timer
  have hne : ∀ c' j st, c' ≠ c → pushes c' = some (j, st) → j ≠ i := by
    rintro c' j st hc' hp rfl
    rcases hc with ⟨-, hσ⟩ | ⟨st', hp'⟩
    · rw [(h.push c' j st hp).1] at hσ
      cases hσ
    · exact hc' (h.unique c' c j st st' hp hp')
  have hmap : ∀ j st, (x.map fun st => (i, st)) = some (j, st) → j = i ∧ x = some st := by
    intro j st hx
    obtain ⟨st', hst, heq⟩ := map_eq_some_iff.mp hx
    cases heq
    exact ⟨rfl, hst⟩
  constructor
  · intro c' j st hp
    by_cases hcc : c' = c
    · rw [hcc, update_self] at hp
      obtain ⟨rfl, rfl⟩ := hmap j st hp
      rw [update_self, hcc]
      exact ⟨rfl, hi, hlt⟩
    · rw [update_of_ne hcc] at hp
      have hj := hne c' j st hcc hp
      rw [update_of_ne hj, hother j hj]
      exact h.push c' j st hp
  · intro j st hσ
    by_cases hj : j = i
    · rw [hj, update_self] at hσ
      refine ⟨c, ?_⟩
      rw [update_self, hσ, hj]
      rfl
    · rw [update_of_ne hj] at hσ
      obtain ⟨c', hp⟩ := h.pusher j st hσ
      refine ⟨c', ?_⟩
      rw [update_of_ne, hp]
      rintro rfl
      rcases hc with ⟨hp', -⟩ | ⟨st', hp'⟩
      · rw [hp'] at hp
        cases hp
      · rw [hp'] at hp
        cases hp
        exact hj rfl
  · intro c1 c2 j st st' h1 h2
    by_cases hc1 : c1 = c
    · by_cases hc2 : c2 = c
      · rw [hc1, hc2]
      · rw [hc1, update_self] at h1
        rw [update_of_ne hc2] at h2
        exact absurd (hmap j st h1).1 (hne c2 j st' hc2 h2)
    · rw [update_of_ne hc1] at h1
      by_cases hc2 : c2 = c
      · rw [hc2, update_self] at h2
        exact absurd (hmap j st' h2).1 (hne c1 j st hc1 h1)
      · rw [update_of_ne hc2] at h2
        exact h.unique c1 c2 j st st' h1 h2

lemma PushInv.idle (hc : pushes c = none) (hi : holder i = some c) : σ i = none := by
  cases hσ : σ i with
  | none => rfl
  | some st =>
    obtain ⟨c', hp⟩ := h.pusher i st hσ
    obtain ⟨-, hh, -⟩ := h.push c' i st hp
    rw [hi] at hh
    rcases hh with hh | hh
    · cases hh
      rw [hc] at hp
      cases hp
    · cases hh

lemma PushInv.idle_of_not_pushing (hi : ∀ c st, pushes c ≠ some (i, st)) : σ i = none := by
  cases hσ : σ i with
  | none => rfl
  | some st =>
    obtain ⟨c', hp⟩ := h.pusher i st hσ
    exact absurd hp (hi c' st)

end

end Pushes

section Steps

variable {s s' : TimerManager} {σ σ' : ℕ → Option PushStage} {sg sg' : ℕ → ℕ} {i : ℕ} {t : Timer}

lemma FrontInv.set (h : FrontInv s σ sg) (hts : s'.timers = update s.timers i t) (hσ : ∀ j, j ≠ i → σ' j = σ j)
    (hpush : PushInv s'.pushes (fun j => (s'.timers j).holder) σ' s'.nextTimerId)
    (hsig : ∀ j, j ≠ i → sg' j = sg j) (hchan : ChanOk t (σ' i) (sg' i))
    (hfront : FrontOk t (Event.callback i t.commands.length ∈ s'.log))
    (hlog : ∀ j e, Event.callback j e ∈ s.log → Event.callback j e ∈ s'.log)
    (hnext : s.nextTimerId ≤ s'.nextTimerId) (hlt : i < s'.nextTimerId)
    (hun : Exactly s'.pendingTimersToCreate fun j => j < s'.nextTimerId ∧ (s'.timers j).created = false)
    (hfree : Exactly s'.timerFreeList fun j => j < s'.nextTimerId ∧ (s'.timers j).exec = none) :
    FrontInv s' σ' sg' := by
  have hself : s'.timers i = t := by rw [hts, update_self]
  have hother : ∀ j, j ≠ i → s'.timers j = s.timers j := fun j hj => by rw [hts, update_of_ne hj]
  refine ⟨hpush, fun j => ?_, fun j => ?_, fun j hj => ?_, hun, hfree⟩
  · by_cases hj : j = i
    · rw [hj, hself]
      exact hchan
    · rw [hother j hj, hσ j hj, hsig j hj]
      exact h.chan j
  · by_cases hj : j = i
    · rw [hj, hself]
      exact hfront
    · rw [hother j hj]
      exact (h.front j).congr rfl rfl rfl rfl rfl rfl (hlog j _)
  · rw [hother j (by omega)]
    exact h.fresh j (hnext.trans hj)

lemma field_update {α : Type} (f : Timer → α) {ts : ℕ → Timer} (hf : f t = f (ts i)) (j : ℕ) :
    f (update ts i t j) = f (ts j) := by
  by_cases hj : j = i
  · rw [hj, update_self, hf]
  · rw [update_of_ne hj]

section

variable (h : FrontInv s σ sg)
include h

lemma FrontInv.pushes_keep (hts : s'.timers = update s.timers i t)
    (hp : s'.pushes = s.pushes) (hn : s'.nextTimerId = s.nextTimerId) (ht : t.holder = (s.timers i).holder) :
    PushInv s'.pushes (fun j => (s'.timers j).holder) σ s'.nextTimerId := by
  rw [hp, hn, hts, funext (field_update Timer.holder ht)]
  exact h.pushes

lemma FrontInv.uncreated_keep (hts : s'.timers = update s.timers i t)
    (hn : s'.nextTimerId = s.nextTimerId) (ht : t.created = (s.timers i).created) :
    Exactly s.pendingTimersToCreate fun j => j < s'.nextTimerId ∧ (s'.timers j).created = false := by
  refine h.uncreated.congr fun j => ?_
  rw [hn, hts, field_update Timer.created ht]

lemma FrontInv.free_keep (hts : s'.timers = update s.timers i t)
    (hn : s'.nextTimerId = s.nextTimerId) (ht : t.exec = (s.timers i).exec) :
    Exactly s.timerFreeList fun j => j < s'.nextTimerId ∧ (s'.timers j).exec = none := by
  refine h.free.congr fun j => ?_
  rw [hn, hts, field_update Timer.exec ht]

lemma FrontInv.lt_of_holder {c : ℕ} (hi : (s.timers i).holder = some c) : i < s.nextTimerId := by
  by_contra hge
  rw [(h.fresh i (not_lt.mp hge)).2.2] at hi
  cases hi

end

lemma FrontInv.init (capacity : ℕ) :
    FrontInv (TimerManager.init capacity) (fun _ => none) (TimerManager.init capacity).signals where
  pushes := ⟨nofun, nofun, nofun⟩
  chan _ := ⟨rfl, TripleBuffer.Wf.init, nofun, rfl, nofun, fun _ => rfl⟩
  front _ := ⟨fun _ => ⟨rfl, rfl⟩, nofun, nofun, nofun, nofun, nofun, nofun⟩
  fresh _ hj := ⟨rfl, decide_eq_false (not_lt.mpr hj), rfl⟩
  uncreated := Exactly.nil fun _ hj => of_decide_eq_false hj.2 hj.1
  free := ⟨nodup_range, fun _ => mem_range.trans ⟨fun hj => ⟨hj, rfl⟩, And.left⟩⟩

/-! ### The calls of a frontend -/

def Timer.pushed (t : Timer) (a : CmdAction) : Timer :=
  { t with cmdId := t.cmdId + 1, channel := t.channel.fill ⟨t.cmdId + 1, a⟩, commands := t.commands ++ [a] }

lemma push_setTimer (s : TimerManager) (c i : ℕ) (t : Timer) (a : CmdAction) :
    (s.setTimer i t).push c i a = { s with
        timers := update s.timers i (t.pushed a)
        pushes := update s.pushes c (some (i, .written)) } := by
  simp [TimerManager.push, setTimer, update_self, update_idem, Timer.pushed]

lemma FrontInv.push (h : FrontInv s σ sg) {c : ℕ} {a : CmdAction} (hc : s.pushes c = none)
    (hi : (s.timers i).holder = some c) (hch : ChanOk t none (sg i)) (hcr : t.created = (s.timers i).created)
    (hex : t.exec = (s.timers i).exec) (hcmds : t.commands = (s.timers i).commands)
    (hb : t.backend = (s.timers i).backend) (hholder : t.holder = some c ∧ a ≠ .destroy ∨ t.holder = none ∧ a = .destroy)
    (hrun : ∀ d, a = .start d → t.state = .running ∧ 0 ≤ d ∧ d ≤ maxTimerDuration)
    (hdur : ∀ d, t.duration = some d → 0 ≤ d ∧ d ≤ maxTimerDuration) (hcreate : a ≠ .create) :
    FrontInv ((s.setTimer i t).push c i a) (update σ i (some .written)) sg := by
  have hf := h.front i
  have hσ := h.pushes.idle hc hi
  have hlt := h.lt_of_holder hi
  have hexec : t.exec ≠ none := by
    intro he
    rw [hex] at he
    rw [(hf.exec he).1] at hi
    cases hi
  rw [push_setTimer]
  refine h.set rfl (fun j hj => update_of_ne hj _ _) ?_ (fun _ _ => rfl) ?_ ?_ (fun _ _ => id)
    le_rfl hlt (h.uncreated_keep rfl rfl hcr) (h.free_keep rfl rfl hex)
  · refine h.pushes.update (some .written) (.inl ⟨hc, hσ⟩) ?_ ?_ hlt
    · intro j hj
      simp [update_of_ne hj]
    · simp only [update_self]
      exact hholder.imp And.left And.left
  · rw [update_self]
    exact hch.push a
  · refine hf.push ?_ ?_ hb hexec ?_ hrun hdur ?_
    · refine .inl fun hnone => ?_
      rw [hnone] at hi
      cases hi
    · show t.commands ++ [a] = _
      rw [hcmds]
    · show t.holder = none ↔ a = .destroy
      rcases hholder with ⟨h1, h2⟩ | ⟨h1, h2⟩
      · rw [h1]
        exact iff_of_false nofun h2
      · exact iff_of_true h1 h2
    · intro ha
      exact absurd ha hcreate

lemma FrontInv.setDuration (h : FrontInv s σ sg) {c : ℕ} (hi : (s.timers i).holder = some c) {d : ℤ} (hd : 0 ≤ d)
    (hd' : d ≤ maxTimerDuration) : FrontInv (s.setTimer i { s.timers i with duration := some d }) σ sg := by
  have hch := h.chan i
  have hf := h.front i
  refine h.set rfl (fun _ _ => rfl) (h.pushes_keep rfl rfl rfl rfl) (fun _ _ => rfl) (hch.congr rfl rfl rfl rfl)
    { hf with duration := ?_ } (fun _ _ => id) le_rfl (h.lt_of_holder hi)
    (h.uncreated_keep rfl rfl rfl) (h.free_keep rfl rfl rfl)
  intro d' hd''
  cases hd''
  exact ⟨hd, hd'⟩

section

variable (h : FrontInv s σ s.signals) {c : ℕ} (hc : s.pushes c = none) (hi : (s.timers i).holder = some c)
include h hc hi

lemma FrontInv.chan_idle : ChanOk (s.timers i) none (s.signals i) := by
  have hch := h.chan i
  rwa [h.pushes.idle hc hi] at hch

/-- **`set`, `run`, `stop` and `destroy`.** -/
theorem FrontInv.setStep {dur : ℤ} (hd : 0 ≤ dur) (hs : s.set c i dur = .ok s') : ∃ σ', FrontInv s' σ' s'.signals := by
  have hch := h.chan_idle hc hi
  rw [TimerManager.set] at hs
  split at hs
  · cases hs
  rename_i hle
  have hle := not_not.mp hle
  simp only [Except.ok.injEq] at hs
  split at hs
  next hrun =>
    subst hs
    refine ⟨_, h.push hc hi (hch.congr rfl rfl rfl rfl) rfl rfl rfl rfl
      (.inl ⟨hi, nofun⟩) ?_ ?_ nofun⟩
    · intro d hd'
      cases hd'
      refine ⟨?_, hd, hle⟩
      simp only [setTimer, update_self] at hrun
      exact hrun
    · intro d hd'
      cases hd'
      exact ⟨hd, hle⟩
  · subst hs
    exact ⟨σ, h.setDuration hi hd hle⟩

lemma FrontInv.runStep (hs : s.run c i = .ok s') : ∃ σ', FrontInv s' σ' s'.signals := by
  have hch := h.chan_idle hc hi
  rw [TimerManager.run] at hs
  split at hs
  · cases hs
  next d hd =>
    cases hs
    refine ⟨_, h.push hc hi (hch.congr rfl rfl rfl rfl) rfl rfl rfl rfl
      (.inl ⟨hi, nofun⟩) ?_ (h.front i).duration nofun⟩
    intro d' hd'
    cases hd'
    exact ⟨rfl, (h.front i).duration d hd⟩

lemma FrontInv.stopStep (hs : s.stop c i = .ok s') : ∃ σ', FrontInv s' σ' s'.signals := by
  have hch := h.chan_idle hc hi
  rw [stop] at hs
  split at hs
  · cases hs
    exact ⟨_, h.push hc hi (hch.congr rfl rfl rfl rfl) rfl rfl rfl rfl
      (.inl ⟨hi, nofun⟩) nofun (h.front i).duration nofun⟩
  · cases hs
    exact ⟨σ, h⟩

lemma FrontInv.destroyStep (hs : s.destroy c i = .ok s') : ∃ σ', FrontInv s' σ' s'.signals := by
  have hch := h.chan_idle hc hi
  cases hs
  exact ⟨_, h.push hc hi (hch.congr rfl rfl rfl rfl) rfl rfl rfl rfl
    (.inr ⟨rfl, rfl⟩) nofun (h.front i).duration nofun⟩

end

lemma PushInv.mono {pushes : ℕ → Option (ℕ × PushStage)} {holder : ℕ → Option ℕ} {n m : ℕ}
    (h : PushInv pushes holder σ n) (hnm : n ≤ m) : PushInv pushes holder σ m :=
  ⟨fun c j st hp => ⟨(h.push c j st hp).1, (h.push c j st hp).2.1, (h.push c j st hp).2.2.trans_le hnm⟩, h.pusher, h.unique⟩

section

variable (h : FrontInv s σ s.signals)
include h

/-- **`create_frontend_timer`**, with a timer of the free list. -/
theorem FrontInv.createCached {c : ℕ} (hno : ∀ c' st, s.pushes c' ≠ some (i, st))
    (hs : s.createFrontendTimer c (some i) = .ok s') : FrontInv s' σ s'.signals := by
  rw [createFrontendTimer] at hs
  split at hs
  · cases hs
  rename_i hen
  obtain ⟨hc, hmem⟩ := not_not.mp hen
  split at hs
  · cases hs
  cases hs
  obtain ⟨hlt, hexec⟩ := (h.free.mem i).mp hmem
  have hch := h.chan i
  have hf := h.front i
  obtain ⟨hnone, hpopped⟩ := hf.exec hexec
  refine h.set rfl (fun _ _ => rfl) ?_ (fun _ _ => rfl)
    (hch.congr rfl rfl rfl rfl) ?_ (fun _ _ => id) le_rfl hlt
    (h.uncreated_keep rfl rfl rfl) ?_
  · -- nobody is pushing a command of this timer
    refine ⟨fun c' j st hp => ?_, h.pushes.pusher, h.pushes.unique⟩
    have hj : j ≠ i := by
      rintro rfl
      exact hno c' st hp
    simp only [update_of_ne hj]
    exact h.pushes.push c' j st hp
  · refine { hf with exec := nofun, holder := nofun, destroyed := fun n hn hx => ?_ }
    have hlen := (List.getElem?_eq_some_iff.mp hx).1
    have hn' : (s.timers i).backend.cmdId < n := hn
    have hlen' : n - 1 < (s.timers i).commands.length := hlen
    omega
  · refine (h.free.erase i).congr fun j => ?_
    by_cases hj : j = i
    · subst hj
      simp
    · simp [hj]

/-- **`create_frontend_timer`**, with a new timer. -/
theorem FrontInv.createNew {c : ℕ} (hs : s.createFrontendTimer c none = .ok s') : ∃ σ', FrontInv s' σ' s'.signals := by
  rw [createFrontendTimer] at hs
  split at hs
  · cases hs
  rename_i hc
  have hc := not_not.mp hc
  cases hs
  obtain ⟨hcmds, hcreated, hholder⟩ := h.fresh s.nextTimerId le_rfl
  have hch := h.chan s.nextTimerId
  have hσ : σ s.nextTimerId = none := h.pushes.idle_of_not_pushing fun c' st hp =>
    absurd (h.pushes.push c' _ st hp).2.2 (lt_irrefl _)
  rw [hσ] at hch
  refine ⟨update σ s.nextTimerId (some .written), h.set
    (t := ({ s.timers s.nextTimerId with exec := some c, holder := some c } : Timer).pushed .create) ?_
    (fun j hj => update_of_ne hj _ _) ?_ (fun _ _ => rfl) ?_ ?_ (fun _ _ => id) (Nat.le_succ _) (Nat.lt_succ_self _)
    ?_ ?_⟩
  · simp [TimerManager.push, update_self, update_idem, Timer.pushed]
  · refine (h.pushes.mono (Nat.le_succ _)).update (some .written) (.inl ⟨hc, hσ⟩) ?_ ?_ (Nat.lt_succ_self _)
    · intro j hj
      simp [TimerManager.push, update_of_ne hj]
    · simp [TimerManager.push, update_self]
  · rw [update_self]
    exact ChanOk.push (t := { s.timers s.nextTimerId with exec := some c, holder := some c })
      (hch.congr rfl rfl rfl rfl) .create
  · exact (h.front s.nextTimerId).push (a := .create) (.inr hcmds) rfl rfl nofun (iff_of_false nofun nofun) nofun
      (h.front s.nextTimerId).duration fun _ => hcmds
  · refine (h.uncreated.concat (x := s.nextTimerId) fun hlt => absurd hlt.1 (lt_irrefl _)).congr fun j => ?_
    by_cases hj : j = s.nextTimerId
    · subst hj
      simp [TimerManager.push, hcreated]
    · simp only [TimerManager.push, update_self, update_of_ne hj, hj, false_or]
      have : j < s.nextTimerId + 1 ↔ j < s.nextTimerId := by omega
      rw [this]
  · refine h.free.congr fun j => ?_
    by_cases hj : j = s.nextTimerId
    · subst hj
      simp [TimerManager.push]
    · simp only [TimerManager.push, update_self, update_of_ne hj]
      have : j < s.nextTimerId + 1 ↔ j < s.nextTimerId := by omega
      rw [this]

/-- **The exchange of `push`.** -/
theorem FrontInv.exchangeStep {c : ℕ} (hs : s.exchange c = .ok s') : ∃ σ', FrontInv s' σ' s'.signals := by
  rw [exchange] at hs
  split at hs
  next i hp =>
    cases hs
    obtain ⟨hσ, hholder, hlt⟩ := h.pushes.push c i .written hp
    have hch := h.chan i
    have hf := h.front i
    rw [hσ] at hch
    refine ⟨update σ i (some (.exchanged (s.timers i).channel.middle)), h.set
      rfl (fun j hj => update_of_ne hj _ _) ?_
      (fun _ _ => rfl) ?_ (hf.congr rfl rfl rfl rfl rfl rfl id)
      (fun _ _ => id) le_rfl hlt (h.uncreated_keep rfl rfl rfl) (h.free_keep rfl rfl rfl)⟩
    · refine h.pushes.update (some (.exchanged _)) (.inr ⟨_, hp⟩) ?_ ?_ hlt
      · intro j hj
        simp [update_of_ne hj]
      · simp only [update_self]
        exact hholder
    · rw [update_self]
      exact hch.exchange
  · cases hs

/-- **The end of `push`.** -/
theorem FrontInv.finishStep {c : ℕ} (hs : s.finish c = .ok s') : ∃ σ', FrontInv s' σ' s'.signals := by
  rw [finish] at hs
  split at hs
  next i w hp =>
    cases hs
    obtain ⟨hσ, hholder, hlt⟩ := h.pushes.push c i (.exchanged w) hp
    have hch := h.chan i
    have hf := h.front i
    rw [hσ] at hch
    refine ⟨update σ i none, h.set
      rfl (fun j hj => update_of_ne hj _ _) ?_
      (fun j hj => ?_) ?_ (hf.congr rfl rfl rfl rfl rfl rfl id)
      (fun _ _ => id) le_rfl hlt (h.uncreated_keep rfl rfl rfl) (h.free_keep rfl rfl rfl)⟩
    · refine h.pushes.update none (.inr ⟨_, hp⟩) ?_ ?_ hlt
      · intro j hj
        simp [update_of_ne hj]
      · simp only [update_self]
        exact hholder
    · simp only [TimerManager.signals]
      split
      · rw [count_append, count_singleton, if_neg (by simpa using Ne.symm hj), Nat.add_zero]
      · rfl
    · rw [update_self]
      have hfin := hch.finish
      have hsig : ({ s with
          timers := update s.timers i { s.timers i with channel := (s.timers i).channel.adopt w }
          timersWithPendingEvents := if ((s.timers i).channel.buffers w).isNone then s.timersWithPendingEvents ++ [i]
            else s.timersWithPendingEvents
          pushes := update s.pushes c none } : TimerManager).signals i =
          s.signals i + if ((s.timers i).channel.buffers w).isNone then 1 else 0 := by
        simp only [TimerManager.signals]
        split
        · rw [count_append, count_singleton_self]
          omega
        · rfl
      rw [hsig]
      exact hfin
  · cases hs

end

/-! ### The backend -/

theorem FrontInv.frame (h : FrontInv s σ sg) (hp : s'.pushes = s.pushes) (hn : s'.nextTimerId = s.nextTimerId)
    (hu : s'.pendingTimersToCreate = s.pendingTimersToCreate) (hf : s'.timerFreeList = s.timerFreeList)
    (ht : ∀ j, s'.timers j = { s.timers j with
      backend := { (s'.timers j).backend with cmdId := (s.timers j).backend.cmdId } })
    (hlog : ∀ j e, Event.callback j e ∈ s.log → Event.callback j e ∈ s'.log) (hsg : ∀ j, sg' j = sg j) :
    FrontInv s' σ sg' := by
  have hholder : (fun j => (s'.timers j).holder) = fun j => (s.timers j).holder := funext fun j => by rw [ht j]
  have hcreated : ∀ j, (s'.timers j).created = (s.timers j).created := fun j => by rw [ht j]
  have hexec : ∀ j, (s'.timers j).exec = (s.timers j).exec := fun j => by rw [ht j]
  have hcmds : ∀ j, (s'.timers j).commands = (s.timers j).commands := fun j => by rw [ht j]
  have hb : ∀ j, (s'.timers j).backend.cmdId = (s.timers j).backend.cmdId := fun j => by rw [ht j]
  constructor
  · rw [hp, hn, hholder]
    exact h.pushes
  · intro j
    rw [hsg j]
    exact (h.chan j).congr (by rw [ht j]) (by rw [ht j]) (hb j) (hcmds j)
  · intro j
    rw [hcmds j]
    exact (h.front j).congr (hexec j) (by rw [ht j]) (hb j) (hcmds j) (by rw [ht j]) (by rw [ht j]) (hlog j _)
  · intro j hj
    rw [hcmds j, hcreated j, congrFun hholder j]
    exact h.fresh j (hn ▸ hj)
  · rw [hu, hn]
    exact h.uncreated.congr fun j => by rw [hcreated j]
  · rw [hf, hn]
    exact h.free.congr fun j => by rw [hexec j]

lemma handlePendingTimerCreations_eq : ∀ (l : List ℕ) (s : TimerManager), l.Nodup →
    (∀ j ∈ l, (s.timers j).created = false) →
    handlePendingTimerCreations l s = .ok { s with
      timers := fun j => if j ∈ l then { s.timers j with created := true } else s.timers j
      pendingTimersToCreate := [] }
  | [], s, _, _ => by
    simp [handlePendingTimerCreations]
  | i :: l, s, hnd, hl => by
    obtain ⟨hi, hnd⟩ := nodup_cons.mp hnd
    have hne : ∀ j ∈ l, j ≠ i := fun j hj heq => hi (heq ▸ hj)
    rw [handlePendingTimerCreations, hl i mem_cons_self, if_neg (by simp), handlePendingTimerCreations_eq l _ hnd]
    · congr 2
      funext j
      by_cases hj : j = i
      · subst hj
        simp [setTimer, hi]
      · simp [setTimer, hj]
    · intro j hj
      show (update s.timers i _ j).created = false
      rw [update_of_ne (hne j hj)]
      exact hl j (mem_cons_of_mem i hj)

section

variable (h : FrontInv s σ sg)
include h

lemma FrontInv.connect (hlt : i < s.nextTimerId) : ∃ s1, s.connect i = .ok s1 ∧
    FrontInv s1 σ sg ∧ (s1.timers i).created = true ∧ (∀ j, s1.timers j = { s.timers j with created := (s1.timers j).created }) ∧
    s1 = { s with timers := s1.timers, pendingTimersToCreate := s1.pendingTimersToCreate } := by
  rw [TimerManager.connect]
  split
  next hcr => exact ⟨s, rfl, h, hcr, fun _ => rfl, rfl⟩
  rename_i hcr
  have hmem : i ∈ s.pendingTimersToCreate := (h.uncreated.mem i).mpr ⟨hlt, Bool.eq_false_of_not_eq_true hcr⟩
  obtain ⟨timers, hs1, hsame, hcreated⟩ : ∃ timers, handlePendingTimerCreations s.pendingTimersToCreate s =
        .ok { s with timers, pendingTimersToCreate := [] } ∧
      (∀ j, timers j = { s.timers j with created := (timers j).created }) ∧
      ∀ j, (timers j).created = true ↔ j ∈ s.pendingTimersToCreate ∨ (s.timers j).created = true := by
    refine ⟨_, handlePendingTimerCreations_eq _ s h.uncreated.nodup fun j hj => ((h.uncreated.mem j).mp hj).2, ?_, ?_⟩
    · intro j
      split <;> rfl
    · intro j
      split <;> simp_all
  refine ⟨_, hs1, ?_, (hcreated i).mpr (.inl hmem), hsame, rfl⟩
  constructor <;> dsimp only
  · rw [show (fun j => (timers j).holder) = fun j => (s.timers j).holder from funext fun j => by rw [hsame]]
    exact h.pushes
  · intro j
    rw [hsame]
    exact (h.chan j).congr rfl rfl rfl rfl
  · intro j
    rw [hsame]
    exact (h.front j).congr rfl rfl rfl rfl rfl rfl id
  · intro j hj
    obtain ⟨h1, h2, h3⟩ := h.fresh j hj
    refine ⟨by rw [hsame]; exact h1, Bool.eq_false_iff.mpr fun hc => ?_, by rw [hsame]; exact h3⟩
    obtain hm | hc := (hcreated j).mp hc
    · exact absurd ((h.uncreated.mem j).mp hm).1 (not_lt.mpr hj)
    · rw [h2] at hc
      cases hc
  · refine Exactly.nil fun j hj => Bool.eq_false_iff.mp hj.2 ((hcreated j).mpr ?_)
    cases hc : (s.timers j).created with
    | false => exact .inl ((h.uncreated.mem j).mpr ⟨hj.1, hc⟩)
    | true => exact .inr rfl
  · exact h.free.congr fun j => by rw [hsame]

lemma FrontInv.popped (hlt : i < s.nextTimerId) {n : ℕ}
    (hch : ChanOk { s.timers i with
      channel := (s.timers i).channel.pop, backend := { (s.timers i).backend with cmdId := n } } (σ i) (sg' i))
    (hn : (s.timers i).backend.cmdId < n) (hle : n ≤ (s.timers i).commands.length)
    (hsig : ∀ j, j ≠ i → sg' j = sg j) :
    FrontInv (s.setTimer i { s.timers i with
      channel := (s.timers i).channel.pop, backend := { (s.timers i).backend with cmdId := n } }) σ sg' := by
  exact h.set rfl (fun _ _ => rfl) (h.pushes_keep rfl rfl rfl rfl) hsig hch ((h.front i).pop hn hle) (fun _ _ => id)
    le_rfl hlt (h.uncreated_keep rfl rfl rfl) (h.free_keep rfl rfl rfl)

/-- **`destroy_timer_backend`.** -/
theorem FrontInv.destroyTimerBackend (hlt : i < s.nextTimerId)
    (hlast : (s.timers i).commands.getLast? = some .destroy) (hholder : (s.timers i).holder = none)
    (hb : (s.timers i).backend.cmdId = (s.timers i).commands.length) (hexec : (s.timers i).exec ≠ none)
    (hs : s.destroyTimerBackend i = .ok s') : FrontInv s' σ sg := by
  rw [TimerManager.destroyTimerBackend] at hs
  dsimp only at hs
  split at hs
  · cases hs
  cases hs
  have hf := h.front i
  refine h.set rfl (fun _ _ => rfl) (h.pushes_keep rfl rfl rfl rfl) (fun _ _ => rfl) ((h.chan i).congr rfl rfl rfl rfl) ?_
    (fun _ _ => id) le_rfl hlt (h.uncreated_keep rfl rfl rfl) ?_
  · refine { hf with exec := fun _ => ⟨hholder, hb⟩, running := ?_, duration := nofun }
    intro d hd
    cases hlast.symm.trans hd
  · refine (h.free.concat fun hi => hexec hi.2).congr fun j => ?_
    by_cases hj : j = i
    · subst hj
      simp [hlt]
    · simp [hj]

lemma FrontInv.callback (hlt : i < s.nextTimerId) (l : List (ℕ × ℕ)) : FrontInv { s with
      tasks := l
      timers := update s.timers i { s.timers i with state := .expired }
      log := .callback i (s.timers i).commands.length :: s.log } σ sg := by
  have hf := h.front i
  exact h.set rfl (fun _ _ => rfl) (h.pushes_keep rfl rfl rfl rfl) (fun _ _ => rfl) ((h.chan i).congr rfl rfl rfl rfl)
    { hf with running := fun _ _ => .inl mem_cons_self }
    (fun j e hm => mem_cons_of_mem _ hm) le_rfl hlt (h.uncreated_keep rfl rfl rfl) (h.free_keep rfl rfl rfl)

end

end Steps

end SrsRan.Timers
