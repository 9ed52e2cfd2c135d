import SrsRan.Lib.Run
import SrsRan.Support.SlotPoint

/-!
# DRX active time

`ue_drx_controller` folds the timers of a UE into one slot, `active_time_end`.  The specification keeps the slots at which
all started timers end and knows the on-duration windows; slots are counted there without wrapping.

The steps that are not `Regular` are those the code gets wrong.
-/

namespace SrsRan.Sched

open Support Lib.Run List Nat

structure DrxConfig where
  longCycle : ℕ
  longStartOffset : ℕ
  onDurationTimer : ℕ
  inactivityTimer : ℕ
  retxTimerDl : ℕ
  retxTimerUl : ℕ
deriving DecidableEq

/-- `ue_drx_controller`; an invalid slot point is `none`. -/
structure DrxController where
  numerology : ℕ
  conresTimer : ℕ
  ulCcchSlotRx : Option ℕ
  drxCfg : Option DrxConfig := none
  activeWindowPeriod : ℕ := 0
  activeWindowStart : ℕ := 0
  activeWindowStop : ℕ := 0
  inactivityDur : ℕ := 0
  activeTimeEnd : Option ℕ := none

namespace DrxController

/-! ### The controller -/

variable (c : DrxController)

def nofSlots : ℕ := nofSlotsPerHyperSystemFrame c.numerology

def reconfigure (newDrxCfg : Option DrxConfig) : DrxController :=
  if c.drxCfg = newDrxCfg then c
  else
    match newDrxCfg with
    | none => { c with drxCfg := none }
    | some cfg =>
      let nofSlotsPerSf := 2 ^ c.numerology
      let winStart := cfg.longStartOffset * nofSlotsPerSf
      { c with
        drxCfg := some cfg
        activeWindowPeriod := cfg.longCycle * nofSlotsPerSf
        activeWindowStart := winStart
        activeWindowStop := winStart + cfg.onDurationTimer * nofSlotsPerSf
        inactivityDur := cfg.inactivityTimer * nofSlotsPerSf }

def make (numerology conresTimer : ℕ) (drxCfg : Option DrxConfig) (ulCcchSlotRx : Option ℕ) : DrxController :=
  reconfigure { numerology, conresTimer, ulCcchSlotRx } drxCfg

def expire (dlSlot : ℕ) : Option ℕ :=
  match c.activeTimeEnd with
  | some e => if slotLt c.nofSlots dlSlot e then some e else none
  | none => none

def isSlotInOnDurationTimerWindow (slotMod : ℕ) : Bool :=
  if c.activeWindowStart ≤ slotMod ∧ slotMod < c.activeWindowStop then true
  else if c.activeWindowStop ≥ c.activeWindowPeriod then slotMod < c.activeWindowStop % c.activeWindowPeriod
  else false

def slotIndication (dlSlot : ℕ) : DrxController :=
  if c.drxCfg.isNone then c
  else
    let activeTimeEnd := c.expire dlSlot
    if activeTimeEnd.isSome then { c with activeTimeEnd }
    else
      let slotMod := dlSlot % c.activeWindowPeriod
      if c.isSlotInOnDurationTimerWindow slotMod then
        { c with activeTimeEnd := some (slotAdd c.nofSlots dlSlot (c.activeWindowStop - slotMod)) }
      else { c with activeTimeEnd := none }

def isActiveTime (hasPendingSr : Bool) : Bool := c.activeTimeEnd.isSome || hasPendingSr

def isPdcchEnabled (hasPendingSr : Bool) : Bool := c.drxCfg.isNone || c.isActiveTime hasPendingSr

/-- `if (not active_time_end.valid() or active_time_end < new_end) active_time_end = new_end` -/
def extendActiveTime (newEnd : ℕ) : DrxController :=
  match c.activeTimeEnd with
  | some e => if slotLt c.nofSlots e newEnd then { c with activeTimeEnd := some newEnd } else c
  | none => { c with activeTimeEnd := some newEnd }

def updateInactivityTimer (pdcchSlot : ℕ) : DrxController :=
  if c.inactivityDur ≠ 0 then c.extendActiveTime (slotAdd c.nofSlots pdcchSlot c.inactivityDur) else c

def onNewDlPdcchAlloc (hasPendingSr : Bool) (pdcchSlot : ℕ) : DrxController :=
  match c.drxCfg with
  | none => c
  | some _ => if c.isActiveTime hasPendingSr then c.updateInactivityTimer pdcchSlot else c

def onNewUlPdcchAlloc (hasPendingSr : Bool) (pdcchSlot puschSlot : ℕ) : DrxController :=
  match c.drxCfg with
  | none => c
  | some cfg =>
    if c.isActiveTime hasPendingSr then
      let c := c.updateInactivityTimer pdcchSlot
      if cfg.retxTimerUl ≠ 0 then c.extendActiveTime (slotAdd c.nofSlots puschSlot cfg.retxTimerUl) else c
    else c

def onDlHarqNack (uciSlot : ℕ) : DrxController :=
  match c.drxCfg with
  | none => c
  | some cfg => if cfg.retxTimerDl ≠ 0 then c.extendActiveTime (slotAdd c.nofSlots uciSlot cfg.retxTimerDl) else c

def onConResStart : DrxController :=
  match c.drxCfg, c.ulCcchSlotRx with
  | some _, some ulCcchSlotRx => c.extendActiveTime (slotAdd c.nofSlots ulCcchSlotRx (c.conresTimer * 2 ^ c.numerology))
  | _, _ => c

end DrxController

/-! ### The specification -/

/-- The configuration of a UE.  The UL-CCCH slot is counted without wrapping. -/
structure DrxSetup where
  numerology : ℕ
  conresTimer : ℕ
  cfg : DrxConfig
  ulCcchSlot : Option ℕ
  offset_lt : cfg.longStartOffset < cfg.longCycle
  onDuration_le : cfg.onDurationTimer ≤ cfg.longCycle

namespace DrxSetup

variable (p : DrxSetup)

def nofSlots : ℕ := nofSlotsPerHyperSystemFrame p.numerology

def period : ℕ := p.cfg.longCycle * 2 ^ p.numerology
def start : ℕ := p.cfg.longStartOffset * 2 ^ p.numerology
def onDuration : ℕ := p.cfg.onDurationTimer * 2 ^ p.numerology
def inactivity : ℕ := p.cfg.inactivityTimer * 2 ^ p.numerology
def conres : ℕ := p.conresTimer * 2 ^ p.numerology

def slotMod (t : ℕ) : ℕ := t % p.nofSlots % p.period

/-- The slot is fewer than `onDuration` slots after the start of a window. -/
def InWindow (t : ℕ) : Prop := (p.slotMod t + p.period - p.start) % p.period < p.onDuration

instance (t : ℕ) : Decidable (p.InWindow t) := inferInstanceAs (Decidable (_ < _))

def controller (activeTimeEnd : Option ℕ) : DrxController :=
  { DrxController.make p.numerology p.conresTimer (some p.cfg) (p.ulCcchSlot.map (· % p.nofSlots)) with activeTimeEnd }

end DrxSetup

/-- What happens in a slot. -/
inductive DrxEvent
  | slotIndication
  | newDlPdcchAlloc (pdcchSlot : ℕ)
  | newUlPdcchAlloc (pdcchSlot puschSlot : ℕ)
  | dlHarqNack (uciSlot : ℕ)
  | conResStart
  | setSr
  | resetSr

def DrxEvent.isSlotIndication : DrxEvent → Bool
  | .slotIndication => true
  | _ => false

/-- The controller, and the inputs it reads. -/
structure DrxSystem where
  drx : DrxController
  slot : ℕ
  started : Bool := false
  hasPendingSr : Bool := false
  ends : List ℕ := []

namespace DrxSystem

variable (p : DrxSetup)

/-- No slot was indicated yet; the first one is the slot after `slot`. -/
def init (slot : ℕ) : DrxSystem := { drx := p.controller none, slot }

variable (s : DrxSystem)

/-- **Active time**: an on-duration window, a timer that has not ended, or a pending SR. -/
def ActiveTime : Prop := (s.started = true ∧ p.InWindow s.slot) ∨ (∃ e ∈ s.ends, s.slot < e) ∨ s.hasPendingSr = true

instance (s : DrxSystem) : Decidable (s.ActiveTime p) := inferInstanceAs (Decidable (_ ∨ _ ∨ _))

/-- The end of a timer of the given duration; a duration of zero switches it off. -/
def timer (slot duration : ℕ) : List ℕ := if duration ≠ 0 then [slot + duration] else []

/-- The active times that the event starts. -/
def newEnds : DrxEvent → List ℕ
  | .newDlPdcchAlloc pdcchSlot => if s.ActiveTime p then timer pdcchSlot p.inactivity else []
  | .newUlPdcchAlloc pdcchSlot puschSlot =>
    if s.ActiveTime p then timer pdcchSlot p.inactivity ++ timer puschSlot p.cfg.retxTimerUl else []
  | .dlHarqNack uciSlot => timer uciSlot p.cfg.retxTimerDl
  | .conResStart => (p.ulCcchSlot.map (· + p.conres)).toList
  | _ => []

def control : DrxEvent → DrxController
  | .slotIndication => s.drx.slotIndication ((s.slot + 1) % p.nofSlots)
  | .newDlPdcchAlloc pdcchSlot => s.drx.onNewDlPdcchAlloc s.hasPendingSr (pdcchSlot % p.nofSlots)
  | .newUlPdcchAlloc pdcchSlot puschSlot =>
    s.drx.onNewUlPdcchAlloc s.hasPendingSr (pdcchSlot % p.nofSlots) (puschSlot % p.nofSlots)
  | .dlHarqNack uciSlot => s.drx.onDlHarqNack (uciSlot % p.nofSlots)
  | .conResStart => s.drx.onConResStart
  | _ => s.drx

def step (ev : DrxEvent) : Except Empty DrxSystem :=
  let s' : DrxSystem := { s with drx := s.control p ev, ends := s.ends ++ s.newEnds p ev }
  match ev with
  | .slotIndication => .ok { s' with slot := s.slot + 1, started := true }
  | .setSr => .ok { s' with hasPendingSr := true }
  | .resetSr => .ok { s' with hasPendingSr := false }
  | _ => .ok s'

/-- The whole cycle is active, or the window is short, within the cycle and the hyper system frame. -/
def OpensRegular (t : ℕ) : Prop :=
  p.onDuration = p.period ∨
    (p.start ≤ p.slotMod t ∧ 4 * p.onDuration ≤ p.nofSlots ∧
      (p.period ∣ p.nofSlots ∨ t % p.nofSlots + (p.start + p.onDuration - p.slotMod t) ≤ p.nofSlots))

/-- An active time ends in a quarter of the frame cycle, and a slot indication comes in each slot. -/
def Regular (ev : DrxEvent) : Prop :=
  (∀ e ∈ s.newEnds p ev, 4 * s.slot < 4 * e + p.nofSlots ∧ 4 * e ≤ 4 * s.slot + p.nofSlots ∧
      (s.drx.activeTimeEnd = none → s.slot < e)) ∧
    (ev.isSlotIndication = true → s.drx.expire ((s.slot + 1) % p.nofSlots) = none → p.InWindow (s.slot + 1) →
      OpensRegular p (s.slot + 1))

instance (t : ℕ) : Decidable (OpensRegular p t) := inferInstanceAs (Decidable (_ ∨ _ ∧ _ ∧ (_ ∨ _)))

instance (s : DrxSystem) (ev : DrxEvent) : Decidable (s.Regular p ev) := inferInstanceAs (Decidable (_ ∧ (_ → _ → _ → _)))

end DrxSystem

/-! ### Windows -/

namespace DrxSetup

variable {p : DrxSetup} {t : ℕ}

lemma start_lt_period (p : DrxSetup) : p.start < p.period := Nat.mul_lt_mul_of_pos_right p.offset_lt (Nat.two_pow_pos _)

lemma onDuration_le_period (p : DrxSetup) : p.onDuration ≤ p.period := Nat.mul_le_mul_right _ p.onDuration_le

lemma slotMod_lt (p : DrxSetup) (t : ℕ) : p.slotMod t < p.period := mod_lt _ (zero_lt_of_lt p.start_lt_period)

lemma nofSlots_pos (p : DrxSetup) : 0 < p.nofSlots := by
  have := Nat.two_pow_pos p.numerology
  unfold nofSlots nofSlotsPerHyperSystemFrame
  omega

lemma four_dvd_nofSlots (p : DrxSetup) : 4 ∣ p.nofSlots := ⟨2 ^ p.numerology * 2560, by
  unfold nofSlots nofSlotsPerHyperSystemFrame
  omega⟩

lemma mod_period_of_le {m : ℕ} (hm : p.start ≤ m) (hlt : m < p.start + p.period) :
    (m % p.period + p.period - p.start) % p.period = m - p.start := by
  have hs := p.start_lt_period
  rcases Nat.lt_or_ge m p.period with h | h
  · rw [mod_eq_of_lt h, show m + p.period - p.start = (m - p.start) + p.period by omega, add_mod_right,
      mod_eq_of_lt (by omega)]
  · have hmod : m % p.period = m - p.period := by rw [mod_eq_sub_mod h, mod_eq_of_lt (by omega)]
    rw [hmod, show m - p.period + p.period - p.start = m - p.start by omega, mod_eq_of_lt (by omega)]

lemma inWindow_of_le (hm : p.start ≤ p.slotMod t) : p.InWindow t ↔ p.slotMod t < p.start + p.onDuration := by
  have hlt := p.slotMod_lt t
  have h := mod_period_of_le hm (by omega)
  rw [mod_eq_of_lt hlt] at h
  rw [InWindow, h]
  omega

lemma inWindow_of_lt (hm : p.slotMod t < p.start) : p.InWindow t ↔ p.slotMod t + p.period < p.start + p.onDuration := by
  have hs := p.start_lt_period
  rw [InWindow, mod_eq_of_lt (by omega)]
  omega

lemma isSlotInOnDurationTimerWindow_eq (e : Option ℕ) :
    (p.controller e).isSlotInOnDurationTimerWindow (p.slotMod t) = decide (p.InWindow t) := by
  have hs := p.start_lt_period
  have hd := p.onDuration_le_period
  have hlt := p.slotMod_lt t
  have hstart : (p.controller e).activeWindowStart = p.start := rfl
  have hstop : (p.controller e).activeWindowStop = p.start + p.onDuration := rfl
  have hperiod : (p.controller e).activeWindowPeriod = p.period := rfl
  rw [DrxController.isSlotInOnDurationTimerWindow, hstart, hstop, hperiod]
  rcases Nat.lt_or_ge (p.slotMod t) p.start with hm | hm
  · rw [if_neg (by omega), Bool.eq_iff_iff, decide_eq_true_eq, inWindow_of_lt hm]
    split
    next hge =>
      rcases Nat.lt_or_ge (p.start + p.onDuration) (2 * p.period) with h2 | h2
      · rw [mod_eq_sub_mod hge, mod_eq_of_lt (by omega), decide_eq_true_eq]
        omega
      · omega
    · simp only [Bool.false_eq_true, false_iff]
      omega
  · rw [Bool.eq_iff_iff, decide_eq_true_eq, inWindow_of_le hm]
    split
    · simp only [true_iff]
      omega
    next hnot =>
      have hout : p.start + p.onDuration ≤ p.slotMod t := by omega
      rw [if_neg (by omega)]
      simp only [Bool.false_eq_true, false_iff]
      omega

lemma inWindow_until_stop (hm : p.start ≤ p.slotMod t)
    (hframe : p.period ∣ p.nofSlots ∨ t % p.nofSlots + (p.start + p.onDuration - p.slotMod t) ≤ p.nofSlots)
    {t' : ℕ} (hle : t ≤ t') (hlt : t' < t + (p.start + p.onDuration - p.slotMod t)) : p.InWindow t' := by
  have hd := p.onDuration_le_period
  obtain ⟨j, rfl⟩ := Nat.exists_eq_add_of_le hle
  have hmod : p.slotMod (t + j) = (p.slotMod t + j) % p.period := by
    unfold slotMod
    rcases hframe with hdvd | hfit
    · rw [mod_mod_of_dvd _ hdvd, mod_mod_of_dvd _ hdvd, mod_add_mod]
    · have hj : (t + j) % p.nofSlots = t % p.nofSlots + j := by
        rw [← mod_add_mod, mod_eq_of_lt (by omega)]
      rw [hj, mod_add_mod]
  rw [InWindow, hmod, mod_period_of_le (by omega) (by omega)]
  omega

end DrxSetup

/-! ### The end of the active time -/

namespace DrxSystem

variable {p : DrxSetup}

/-- The last slot up to which the window and the timers keep the UE active. -/
def Tracks (p : DrxSetup) (started : Bool) (t : ℕ) (ends : List ℕ) : Option ℕ → Prop
  | none => (started = true → ¬ p.InWindow t) ∧ ∀ e ∈ ends, e ≤ t
  | some x => ∃ last, x = last % p.nofSlots ∧ t < last ∧ 4 * last ≤ 4 * t + p.nofSlots ∧
      (∀ t', t ≤ t' → t' < last → (started = true ∧ p.InWindow t') ∨ ∃ e ∈ ends, t' < e) ∧ ∀ e ∈ ends, e ≤ last

variable {started : Bool} {t : ℕ} {ends : List ℕ} {x : Option ℕ}

lemma Tracks.isSome_iff (h : Tracks p started t ends x) :
    x.isSome = true ↔ (started = true ∧ p.InWindow t) ∨ ∃ e ∈ ends, t < e := by
  cases x with
  | none =>
    simp only [Option.isSome_none, Bool.false_eq_true, false_iff]
    rintro (⟨h1, h2⟩ | ⟨e, he, hlt⟩)
    · exact h.1 h1 h2
    · exact absurd (h.2 e he) (by omega)
  | some x =>
    obtain ⟨last, -, hlt, -, hsound, -⟩ := h
    exact iff_of_true rfl (hsound t le_rfl hlt)

variable (nofSlots : ℕ)

/-- The later of the two ends. -/
def extend (x : Option ℕ) (e : ℕ) : Option ℕ :=
  match x with
  | some y => if slotLt nofSlots y e then some e else some y
  | none => some e

lemma Tracks.extend (h : Tracks p started t ends x) {e : ℕ} (hlow : 4 * t < 4 * e + p.nofSlots)
    (hhigh : 4 * e ≤ 4 * t + p.nofSlots) (hnone : x = none → t < e) :
    Tracks p started t (ends ++ [e]) (extend p.nofSlots x (e % p.nofSlots)) := by
  have hmem : e ∈ ends ++ [e] := mem_append_right _ (mem_singleton.mpr rfl)
  have hall {last : ℕ} (hle : ∀ e' ∈ ends, e' ≤ last) (he : e ≤ last) : ∀ e' ∈ ends ++ [e], e' ≤ last := by
    intro e' he'
    rcases mem_append.mp he' with h' | h'
    · exact hle e' h'
    · rw [mem_singleton.mp h']
      exact he
  cases x with
  | none =>
    refine ⟨e, rfl, hnone rfl, hhigh, fun t' _ hlt => .inr ⟨e, hmem, hlt⟩, hall (fun e' he' => ?_) le_rfl⟩
    exact (h.2 e' he').trans (hnone rfl).le
  | some x =>
    obtain ⟨last, rfl, hlt, hbound, hsound, hcomplete⟩ := h
    have hdvd := p.four_dvd_nofSlots
    have hcmp : slotLt p.nofSlots (last % p.nofSlots) (e % p.nofSlots) = decide (last < e) :=
      slotLt_mod (by omega) (by omega) (by omega)
    rw [DrxSystem.extend, hcmp]
    by_cases hle : last < e
    · rw [if_pos (decide_eq_true hle)]
      refine ⟨e, rfl, by omega, hhigh, fun t' _ hlt' => .inr ⟨e, hmem, hlt'⟩, hall (fun e' he' => ?_) le_rfl⟩
      exact (hcomplete e' he').trans hle.le
    · rw [if_neg (by rw [decide_eq_false hle]; exact Bool.false_ne_true)]
      refine ⟨last, rfl, hlt, hbound, fun t' h1 h2 => ?_, hall hcomplete (by omega)⟩
      rcases hsound t' h1 h2 with h' | ⟨e', he', h'⟩
      · exact .inl h'
      · exact .inr ⟨e', mem_append_left _ he', h'⟩

def expired (x : Option ℕ) (slot : ℕ) : Option ℕ :=
  match x with
  | some e => if slotLt nofSlots slot e then some e else none
  | none => none

lemma Tracks.expired (h : Tracks p started t ends x) :
    (expired p.nofSlots x ((t + 1) % p.nofSlots) = none ∧ ∀ e ∈ ends, e ≤ t + 1) ∨
      (expired p.nofSlots x ((t + 1) % p.nofSlots) = x ∧ x.isSome = true ∧ Tracks p true (t + 1) ends x) := by
  cases x with
  | none => exact .inl ⟨rfl, fun e he => (h.2 e he).trans (le_succ t)⟩
  | some x =>
    obtain ⟨last, rfl, hlt, hbound, hsound, hcomplete⟩ := h
    have hdvd := p.four_dvd_nofSlots
    have hpos := p.nofSlots_pos
    have hcmp : slotLt p.nofSlots ((t + 1) % p.nofSlots) (last % p.nofSlots) = decide (t + 1 < last) :=
      slotLt_mod (by omega) (by omega) (by omega)
    rw [DrxSystem.expired, hcmp]
    by_cases hle : t + 1 < last
    · rw [if_pos (decide_eq_true hle)]
      refine .inr ⟨rfl, rfl, last, rfl, hle, by omega, fun t' h1 h2 => ?_, hcomplete⟩
      exact (hsound t' (by omega) h2).imp_left fun h' => ⟨rfl, h'.2⟩
    · rw [if_neg (by rw [decide_eq_false hle]; exact Bool.false_ne_true)]
      exact .inl ⟨rfl, fun e he => (hcomplete e he).trans (by omega)⟩

lemma tracks_open (hends : ∀ e ∈ ends, e ≤ t) (hopen : p.InWindow t) (hm : p.start ≤ p.slotMod t)
    (hshort : 4 * p.onDuration ≤ p.nofSlots)
    (hframe : p.period ∣ p.nofSlots ∨ t % p.nofSlots + (p.start + p.onDuration - p.slotMod t) ≤ p.nofSlots) :
    Tracks p true t ends (some ((t + (p.start + p.onDuration - p.slotMod t)) % p.nofSlots)) := by
  have hlt := (DrxSetup.inWindow_of_le hm).mp hopen
  refine ⟨_, rfl, by omega, by omega, fun t' h1 h2 => .inl ⟨rfl, ?_⟩, fun e he => (hends e he).trans (by omega)⟩
  exact DrxSetup.inWindow_until_stop hm hframe h1 h2

/-! ### Steps -/

/-- Once a cycle without pause has started, only the presence of an end matters. -/
def Time (p : DrxSetup) (started : Bool) (t : ℕ) (ends : List ℕ) (x : Option ℕ) : Prop :=
  Tracks p started t ends x ∨ (p.onDuration = p.period ∧ started = true ∧ x.isSome = true)

/-- What all reachable states satisfy. -/
structure Inv (p : DrxSetup) (s : DrxSystem) : Prop where
  drx : s.drx = p.controller s.drx.activeTimeEnd
  time : Time p s.started s.slot s.ends s.drx.activeTimeEnd

variable {s : DrxSystem}

lemma inWindow_of_full (hfull : p.onDuration = p.period) (t : ℕ) : p.InWindow t := by
  rw [DrxSetup.InWindow, hfull]
  exact mod_lt _ (zero_lt_of_lt p.start_lt_period)

lemma Inv.isActiveTime_iff (h : s.Inv p) : s.drx.isActiveTime s.hasPendingSr = true ↔ s.ActiveTime p := by
  rw [DrxController.isActiveTime, Bool.or_eq_true, ActiveTime, ← or_assoc]
  refine or_congr_left ?_
  rcases h.time with ht | ⟨hfull, hstarted, hsome⟩
  · exact ht.isSome_iff
  · exact iff_of_true hsome (.inl ⟨hstarted, inWindow_of_full hfull _⟩)

lemma init_inv (p : DrxSetup) (slot : ℕ) : (init p slot).Inv p where
  drx := rfl
  time := .inl ⟨fun h => (Bool.false_ne_true h).elim, nofun⟩

lemma extendActiveTime_controller (x : Option ℕ) (e : ℕ) :
    (p.controller x).extendActiveTime e = p.controller (extend p.nofSlots x e) := by
  cases x with
  | none => rfl
  | some y =>
    have hn : (p.controller (some y)).nofSlots = p.nofSlots := rfl
    have hy : (p.controller (some y)).activeTimeEnd = some y := rfl
    simp only [DrxController.extendActiveTime, hn, hy, extend]
    split <;> rfl

lemma slotIndication_controller (x : Option ℕ) (t : ℕ) : (p.controller x).slotIndication (t % p.nofSlots) = p.controller
      (if (expired p.nofSlots x (t % p.nofSlots)).isSome then expired p.nofSlots x (t % p.nofSlots)
      else if p.InWindow t then some ((t + (p.start + p.onDuration - p.slotMod t)) % p.nofSlots) else none) := by
  have hexp : (p.controller x).expire (t % p.nofSlots) = expired p.nofSlots x (t % p.nofSlots) := rfl
  have hmod : t % p.nofSlots % (p.controller x).activeWindowPeriod = p.slotMod t := rfl
  have hcfg : (p.controller x).drxCfg.isNone = false := rfl
  have hadd : slotAdd (p.controller x).nofSlots (t % p.nofSlots) ((p.controller x).activeWindowStop - p.slotMod t) =
      (t + (p.start + p.onDuration - p.slotMod t)) % p.nofSlots := mod_add_mod _ _ _
  simp only [DrxController.slotIndication, hcfg, hexp, hmod, hadd, DrxSetup.isSlotInOnDurationTimerWindow_eq,
    decide_eq_true_eq, Bool.false_eq_true, if_false]
  split
  · rfl
  · split <;> rfl

lemma isSome_extend (x : Option ℕ) (e : ℕ) : (extend nofSlots x e).isSome = true := by
  cases x with
  | none => rfl
  | some y => unfold extend; simp only; split <;> rfl

lemma Time.extend (h : Time p started t ends x) {e : ℕ} (hlow : 4 * t < 4 * e + p.nofSlots)
    (hhigh : 4 * e ≤ 4 * t + p.nofSlots) (hnone : x = none → t < e) :
    Time p started t (ends ++ [e]) (DrxSystem.extend p.nofSlots x (e % p.nofSlots)) := by
  rcases h with h | ⟨hfull, hstarted, -⟩
  · exact .inl (h.extend hlow hhigh hnone)
  · exact .inr ⟨hfull, hstarted, isSome_extend _ _ _⟩

def extendBy (x : Option ℕ) (slot duration : ℕ) : Option ℕ :=
  if duration ≠ 0 then extend nofSlots x ((slot + duration) % nofSlots) else x

/-- The end of a timer is within the range of the comparisons. -/
def InRange (p : DrxSetup) (t : ℕ) (x : Option ℕ) (e : ℕ) : Prop :=
  4 * t < 4 * e + p.nofSlots ∧ 4 * e ≤ 4 * t + p.nofSlots ∧ (x = none → t < e)

lemma Time.extendBy (h : Time p started t ends x) {slot duration : ℕ}
    (hreg : ∀ e ∈ timer slot duration, InRange p t x e) :
    Time p started t (ends ++ timer slot duration) (extendBy p.nofSlots x slot duration) := by
  unfold timer at hreg ⊢
  unfold DrxSystem.extendBy
  split
  next hd =>
    rw [if_pos hd] at hreg
    obtain ⟨h1, h2, h3⟩ := hreg _ (mem_singleton.mpr rfl)
    exact h.extend h1 h2 h3
  · rw [append_nil]
    exact h

lemma extendBy_eq_none {nofSlots slot duration : ℕ} (h : extendBy nofSlots x slot duration = none) : x = none := by
  unfold extendBy at h
  split at h
  · have := isSome_extend nofSlots x ((slot + duration) % nofSlots)
    rw [h] at this
    cases this
  · exact h

lemma slotAdd_controller (x : Option ℕ) (slot n : ℕ) :
    slotAdd (p.controller x).nofSlots (slot % p.nofSlots) n = (slot + n) % p.nofSlots := mod_add_mod _ _ _

lemma updateInactivityTimer_controller (x : Option ℕ) (slot : ℕ) :
    (p.controller x).updateInactivityTimer (slot % p.nofSlots) =
      p.controller (extendBy p.nofSlots x slot p.inactivity) := by
  have hdur : (p.controller x).inactivityDur = p.inactivity := rfl
  rw [DrxController.updateInactivityTimer, hdur, slotAdd_controller, extendActiveTime_controller, extendBy]
  split <;> rfl

lemma retxTimer_controller (x : Option ℕ) (slot duration : ℕ) : (if duration ≠ 0 then
        (p.controller x).extendActiveTime (slotAdd (p.controller x).nofSlots (slot % p.nofSlots) duration)
      else p.controller x) = p.controller (extendBy p.nofSlots x slot duration) := by
  rw [slotAdd_controller, extendActiveTime_controller, extendBy]
  split <;> rfl

lemma ulCcchSlotRx_controller (x : Option ℕ) : p.ulCcchSlot.map (· % p.nofSlots) = (p.controller x).ulCcchSlotRx := rfl

lemma Inv.slotIndication (h : s.Inv p)
    (hreg : s.drx.expire ((s.slot + 1) % p.nofSlots) = none → p.InWindow (s.slot + 1) → OpensRegular p (s.slot + 1)) :
    ∃ x, s.drx.slotIndication ((s.slot + 1) % p.nofSlots) = p.controller x ∧ Time p true (s.slot + 1) s.ends x := by
  obtain ⟨hdrx, htime⟩ := h
  have hexp : s.drx.expire ((s.slot + 1) % p.nofSlots) =
      expired p.nofSlots s.drx.activeTimeEnd ((s.slot + 1) % p.nofSlots) := by rw [hdrx]; rfl
  rw [hexp] at hreg
  rw [hdrx, slotIndication_controller]
  refine ⟨_, rfl, ?_⟩
  rcases htime with ht | ⟨hfull, -, -⟩
  · rcases ht.expired with ⟨hnone, hends⟩ | ⟨hkeep, hsome, ht'⟩
    · rw [hnone] at hreg ⊢
      by_cases hopen : p.InWindow (s.slot + 1)
      · simp only [Option.isSome_none, Bool.false_eq_true, if_false, if_pos hopen]
        rcases hreg rfl hopen with hfull | ⟨hm, hshort, hframe⟩
        · exact .inr ⟨hfull, rfl, rfl⟩
        · exact .inl (tracks_open hends hopen hm hshort hframe)
      · simp only [Option.isSome_none, Bool.false_eq_true, if_false, if_neg hopen]
        exact .inl ⟨fun _ => hopen, hends⟩
    · rw [hkeep, if_pos hsome]
      exact .inl ht'
  · -- the whole cycle is active
    refine .inr ⟨hfull, rfl, ?_⟩
    split
    · assumption
    · rw [if_pos (inWindow_of_full hfull _)]
      rfl

lemma Inv.startTimers (h : s.Inv p) {ev : DrxEvent} (hslot : ev.isSlotIndication = false)
    (hreg : ∀ e ∈ s.newEnds p ev, InRange p s.slot s.drx.activeTimeEnd e) :
    ∃ x, s.control p ev = p.controller x ∧ Time p s.started s.slot (s.ends ++ s.newEnds p ev) x := by
  have hactive := h.isActiveTime_iff
  obtain ⟨hdrx, htime⟩ := h
  have hcfg : (p.controller s.drx.activeTimeEnd).drxCfg = some p.cfg := rfl
  cases ev with
  | slotIndication => cases hslot
  | newDlPdcchAlloc pdcchSlot =>
    have hcode : s.control p (.newDlPdcchAlloc pdcchSlot) =
        if s.drx.isActiveTime s.hasPendingSr then s.drx.updateInactivityTimer (pdcchSlot % p.nofSlots) else s.drx := by
      rw [control, DrxController.onNewDlPdcchAlloc, hdrx]
      rfl
    rw [hcode]
    simp only [newEnds] at hreg ⊢
    by_cases ha : s.ActiveTime p
    · rw [if_pos ha] at hreg ⊢
      rw [if_pos (hactive.mpr ha), hdrx, updateInactivityTimer_controller]
      exact ⟨_, rfl, htime.extendBy hreg⟩
    · rw [if_neg ha, append_nil, if_neg (mt hactive.mp ha)]
      exact ⟨_, hdrx, htime⟩
  | newUlPdcchAlloc pdcchSlot puschSlot =>
    have hcode : s.control p (.newUlPdcchAlloc pdcchSlot puschSlot) = if s.drx.isActiveTime s.hasPendingSr then
          p.controller (extendBy p.nofSlots (extendBy p.nofSlots s.drx.activeTimeEnd pdcchSlot p.inactivity) puschSlot
            p.cfg.retxTimerUl)
        else s.drx := by
      rw [control, hdrx]
      have hend : (p.controller s.drx.activeTimeEnd).activeTimeEnd = s.drx.activeTimeEnd := rfl
      simp only [DrxController.onNewUlPdcchAlloc, hcfg, updateInactivityTimer_controller, retxTimer_controller, hend]
    rw [hcode]
    simp only [newEnds] at hreg ⊢
    by_cases ha : s.ActiveTime p
    · rw [if_pos ha] at hreg ⊢
      rw [if_pos (hactive.mpr ha), ← append_assoc]
      have h1 := htime.extendBy fun e he => hreg e (mem_append_left _ he)
      refine ⟨_, rfl, h1.extendBy fun e he => ?_⟩
      obtain ⟨hlow, hhigh, hnone⟩ := hreg e (mem_append_right _ he)
      exact ⟨hlow, hhigh, fun hx => hnone (extendBy_eq_none hx)⟩
    · rw [if_neg ha, append_nil, if_neg (mt hactive.mp ha)]
      exact ⟨_, hdrx, htime⟩
  | dlHarqNack uciSlot =>
    have hcode : s.control p (.dlHarqNack uciSlot) =
        p.controller (extendBy p.nofSlots s.drx.activeTimeEnd uciSlot p.cfg.retxTimerDl) := by
      rw [control, hdrx]
      exact retxTimer_controller _ _ _
    exact ⟨_, hcode, htime.extendBy hreg⟩
  | conResStart =>
    cases hccch : p.ulCcchSlot with
    | none =>
      have hcode : s.control p .conResStart = s.drx := by
        rw [control, hdrx]
        simp [DrxController.onConResStart, ← ulCcchSlotRx_controller, hccch, hcfg]
      rw [hcode]
      simp only [newEnds, hccch, Option.map_none, Option.toList_none, append_nil]
      exact ⟨_, hdrx, htime⟩
    | some c =>
      have hcode : s.control p .conResStart =
          p.controller (extend p.nofSlots s.drx.activeTimeEnd ((c + p.conres) % p.nofSlots)) := by
        rw [← slotAdd_controller s.drx.activeTimeEnd, ← extendActiveTime_controller, control, hdrx]
        simp only [DrxController.onConResStart, ← ulCcchSlotRx_controller, hccch, hcfg]
        rfl
      simp only [newEnds, hccch, Option.map_some, Option.toList_some] at hreg ⊢
      obtain ⟨h1, h2, h3⟩ := hreg _ (mem_singleton.mpr rfl)
      exact ⟨_, hcode, htime.extend h1 h2 h3⟩
  | setSr => exact ⟨_, hdrx, (append_nil s.ends).symm ▸ htime⟩
  | resetSr => exact ⟨_, hdrx, (append_nil s.ends).symm ▸ htime⟩

lemma Inv.step (h : s.Inv p) {ev : DrxEvent} {s' : DrxSystem} (hreg : s.Regular p ev) (hs : step p s ev = .ok s') :
    s'.Inv p := by
  cases hslot : ev.isSlotIndication with
  | true =>
    cases ev with
    | slotIndication =>
      obtain ⟨x, hx, htime⟩ := h.slotIndication (hreg.2 rfl)
      have hnil : s.ends ++ s.newEnds p .slotIndication = s.ends := append_nil _
      cases hs
      refine ⟨?_, ?_⟩
      · show s.drx.slotIndication _ = p.controller (s.drx.slotIndication _).activeTimeEnd
        rw [hx]
        rfl
      · show Time p true (s.slot + 1) (s.ends ++ s.newEnds p .slotIndication) (s.drx.slotIndication _).activeTimeEnd
        rw [hnil, hx]
        exact htime
    | _ => cases hslot
  | false =>
    obtain ⟨x, hx, htime⟩ := h.startTimers hslot hreg.1
    have hctrl : s.control p ev = p.controller (s.control p ev).activeTimeEnd := by
      rw [hx]
      rfl
    have htime' : Time p s.started s.slot (s.ends ++ s.newEnds p ev) (s.control p ev).activeTimeEnd := by
      rw [hx]
      exact htime
    cases ev with
    | slotIndication => cases hslot
    | _ => cases hs; exact ⟨hctrl, htime'⟩

/-- **DRX active time.** In every run of regular steps the PDCCH is enabled exactly in the active time. -/
theorem drx_active_time (p : DrxSetup) (slot : ℕ) (s : DrxSystem) (h : Reach (step p) (Regular p) (init p slot) s)
    (hstarted : s.started = true) :
    s.drx.isPdcchEnabled s.hasPendingSr = true ↔
      p.InWindow s.slot ∨ (∃ e ∈ s.ends, s.slot < e) ∨ s.hasPendingSr = true := by
  have hinv : s.Inv p := h.invariant (init_inv p slot) fun s ev s' hi hreg hs => hi.step hreg hs
  have hcfg : s.drx.drxCfg.isNone = false := by
    rw [hinv.drx]
    rfl
  rw [DrxController.isPdcchEnabled, hcfg, Bool.false_or, hinv.isActiveTime_iff, ActiveTime]
  simp [hstarted]

/-- A cycle of 10 ms whose window covers the subframes 8, 9, 0 and 1. -/
def wrappedSetup (retxTimerDl : ℕ) : DrxSetup where
  numerology := 0
  conresTimer := 64
  cfg := { longCycle := 10, longStartOffset := 8, onDurationTimer := 4, inactivityTimer := 5, retxTimerDl, retxTimerUl := 0 }
  ulCcchSlot := none
  offset_lt := show 8 < 10 by decide
  onDuration_le := show 4 ≤ 10 by decide

theorem drx_active_time_run : ∃ s, Reach (step (wrappedSetup 8)) (Regular (wrappedSetup 8)) (init (wrappedSetup 8) 16) s ∧
    s.slot = 19 ∧ s.ends = [24, 26] ∧ (s.drx.isPdcchEnabled s.hasPendingSr = true ↔
      (wrappedSetup 8).InWindow s.slot ∨ (∃ e ∈ s.ends, s.slot < e) ∨ s.hasPendingSr = true) := by
  obtain ⟨s, hreach, hs, hslot, hends⟩ : ∃ s, Reach (step (wrappedSetup 8)) (Regular (wrappedSetup 8))
      (init (wrappedSetup 8) 16) s ∧ s.started = true ∧ s.slot = 19 ∧ s.ends = [24, 26] :=
    Reach.exists_run [.slotIndication, .slotIndication, .slotIndication, .newDlPdcchAlloc 19, .dlHarqNack 18]
      (by decide +kernel)
  exact ⟨s, hreach, hslot, hends, drx_active_time _ _ s hreach hs⟩

/-- A window entered beyond the end of the cycle stays open, and a NACK after the retransmission timer opens slot 25. -/
theorem enabled_outside_active_time :
    (∃ s, Reach (step (wrappedSetup 0)) (fun _ _ => True) (init (wrappedSetup 0) 19) s ∧ s.slot = 22 ∧
      s.drx.isPdcchEnabled s.hasPendingSr = true ∧ ¬ s.ActiveTime (wrappedSetup 0)) ∧
    (∃ s, Reach (step (wrappedSetup 1)) (fun _ _ => True) (init (wrappedSetup 1) 24) s ∧ s.slot = 25 ∧ s.ends = [24] ∧
      s.drx.isPdcchEnabled s.hasPendingSr = true ∧ ¬ s.ActiveTime (wrappedSetup 1)) :=
  ⟨Reach.exists_run [.slotIndication, .slotIndication, .slotIndication] (by decide +kernel),
    Reach.exists_run [.slotIndication, .dlHarqNack 23] (by decide +kernel)⟩

end DrxSystem

end SrsRan.Sched
