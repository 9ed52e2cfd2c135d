import SrsRan.Sched.HarqPartition
import SrsRan.Sched.SliceRbCounters

/-!
# HARQ timeouts

The timeout wheel is emptied bucket by bucket and the slot of a timeout is not compared.  A timeout is on time as long as
every one that is set is at most one turn of the wheel ahead (`Timed`).  The size of the wheel follows from the ACK timeout,
while the timeout of a retransmission is configured on its own.
-/

namespace SrsRan.Sched

open Support Lib.Run List
open Function (update update_self update_of_ne)

/-! ### The configuration of a cell -/

def schedulerMaxK0 : ℕ := 15

def schedulerMaxK1 : ℕ := 15

def maxMsg3Delta : ℕ := 6

def ntnCellSpecificKoffsetMax : ℕ := 512

def defaultAckTimeoutSlots : ℕ := 256

def ntnAckWaitTimeout : ℕ := 1

/-- How far ahead the scheduler allocates resources of the UL grid -/
def getMaxSlotUlAllocDelay (ntnCsKoffset : ℕ) : ℕ :=
  schedulerMaxK0 + max schedulerMaxK1 (schedulerMaxK2 + maxMsg3Delta) + ntnCsKoffset

/-- What the HARQ repositories of a cell are made from; `harqRetxTimeout` is in milliseconds. -/
structure HarqCell where
  maxUes : ℕ
  maxHarqsPerUe : ℕ
  numerology : ℕ
  harqRetxTimeout : ℕ
  ntnCsKoffset : ℕ
  ntnCsKoffset_le : ntnCsKoffset ≤ ntnCellSpecificKoffsetMax
  timeout_pos : 0 < harqRetxTimeout

namespace HarqCell

variable (cell : HarqCell)

/-- The parameters that `cell_harq_repository` computes -/
def config : HarqConfig where
  maxUes := cell.maxUes
  maxHarqsPerUe := cell.maxHarqsPerUe
  maxAckWaitInSlots := if cell.ntnCsKoffset = 0 then defaultAckTimeoutSlots else ntnAckWaitTimeout
  harqRetxTimeout := cell.harqRetxTimeout * nofSlotsPerSubframe cell.numerology
  ntnCsKoffset := cell.ntnCsKoffset
  wheelSize := getAllocatorRingSizeGtMin (defaultAckTimeoutSlots + getMaxSlotUlAllocDelay cell.ntnCsKoffset)
  nofSlots := nofSlotsPerHyperSystemFrame cell.numerology

/-- The timeout of a retransmission is at most one turn of the wheel. -/
def Fits : Prop := cell.config.harqRetxTimeout ≤ cell.config.wheelSize

end HarqCell

namespace HarqRepository

/-- The slots come one after the other, and an ACK is expected within the delay of the UL grid. -/
def InGrid (cell : HarqCell) (s : HarqRepository) : HarqAction → Prop
  | .slotIndication slotTx => slotTx = cell.config.plus s.lastSlInd 1
  | .alloc _ _ slotAck _ | .newRetx _ _ slotAck =>
    ∃ k ≤ getMaxSlotUlAllocDelay 0, slotAck = cell.config.plus s.lastSlInd ((k + cell.ntnCsKoffset : ℕ) : ℤ)
  | _ => True

/-- A timeout that is at most one turn of the wheel ahead -/
def Near (cfg : HarqConfig) (now : ℕ) (timeout : Option ℕ) : Prop :=
  ∃ d : ℕ, 1 ≤ d ∧ d ≤ cfg.wheelSize ∧ timeout = some (cfg.plus now d)

/-- Every process that waits has a timeout that satisfies `P`. -/
structure Timed (P : ℕ × ℕ → Option ℕ → Prop) (now : ℕ) (s : HarqRepository) : Prop where
  last : s.lastSlInd = now
  timeout : ∀ p, s.Exists p → (s.harqs p).status ≠ .empty → P p (s.harqs p).slotTimeout

variable {cfg : HarqConfig} {s s' : HarqRepository} {p : ℕ × ℕ} {now : ℕ} {P : ℕ × ℕ → Option ℕ → Prop}

lemma plus_plus (hpos : 0 < cfg.nofSlots) (slot : ℕ) (m n : ℤ) : cfg.plus (cfg.plus slot m) n = cfg.plus slot (m + n) := by
  have hne : (cfg.nofSlots : ℤ) ≠ 0 := by exact_mod_cast hpos.ne'
  rw [HarqConfig.plus, HarqConfig.plus, HarqConfig.plus, Int.toNat_of_nonneg (Int.emod_nonneg _ hne), Int.emod_add_emod,
    add_assoc]

/-! ### What one operation does to the timeouts -/

/-- Processes are freed, keep their timeout, or get one with the property. -/
lemma Timed.of_harqs (h : Timed P now s) (hlast : s'.lastSlInd = s.lastSlInd) (hn : s'.nofHarqs = s.nofHarqs)
    (hh : ∀ q, (s'.harqs q).status ≠ .empty →
      ((s.harqs q).status ≠ .empty ∧ (s'.harqs q).slotTimeout = (s.harqs q).slotTimeout) ∨
        P q (s'.harqs q).slotTimeout) : Timed P now s' := by
  refine ⟨hlast.trans h.last, fun q hq hne => ?_⟩
  rcases hh q hne with ⟨hold, heq⟩ | hnear
  · rw [Exists, hn] at hq
    rw [heq]
    exact h.timeout q hq hold
  · exact hnear

lemma Timed.setHarq (h : Timed P now s) {x : HarqProcess}
    (hx : x.status ≠ .empty → ((s.harqs p).status ≠ .empty ∧ x.slotTimeout = (s.harqs p).slotTimeout) ∨
      P p x.slotTimeout) : Timed P now (s.setHarq p x) := by
  refine h.of_harqs rfl rfl fun q hne => ?_
  simp only [HarqRepository.setHarq] at hne ⊢
  by_cases hq : q = p
  · subst hq
    rw [update_self] at hne ⊢
    exact hx hne
  · rw [update_of_ne hq] at hne ⊢
    exact .inl ⟨hne, rfl⟩

lemma Timed.wheelPop (h : Timed P now s) (p : ℕ × ℕ) :
    Post (fun _ => True) (fun s' => Timed P now s' ∧ s'.harqs = s.harqs) (s.wheelPop cfg p) := by
  rw [HarqRepository.wheelPop]
  split
  · trivial
  · refine Post.bind (Q := fun _ => True) ?_ fun bucket _ => ⟨h.of_harqs rfl rfl fun q hne => .inl ⟨hne, rfl⟩, rfl⟩
    rw [popElement]
    split <;> trivial

lemma Timed.pendingPop (h : Timed P now s) (p : ℕ × ℕ) :
    Post (fun _ => True) (fun s' => Timed P now s' ∧ s'.harqs = s.harqs) (s.pendingPop p) := by
  rw [HarqRepository.pendingPop]
  refine Post.bind (Q := fun _ => True) ?_ fun l _ => ⟨h.of_harqs rfl rfl fun q hne => .inl ⟨hne, rfl⟩, rfl⟩
  rw [popElement]
  split <;> trivial

lemma Timed.wheelPush (h : Timed P now s) (p : ℕ × ℕ) {t : ℕ} (ht : P p (some t)) :
    Timed P now (s.wheelPush cfg p t) := by
  refine h.of_harqs rfl rfl fun q hne => ?_
  simp only [HarqRepository.wheelPush] at hne ⊢
  by_cases hq : q = p
  · subst hq
    rw [update_self]
    exact .inr ht
  · rw [update_of_ne hq] at hne ⊢
    exact .inl ⟨hne, rfl⟩

lemma Timed.deallocHarq (h : Timed P now s) (p : ℕ × ℕ) :
    Post (fun _ => True) (Timed P now) (s.deallocHarq cfg p) := by
  rw [HarqRepository.deallocHarq]
  split
  · exact h
  have hunlink : Post (fun _ => True) (Timed P now) (s.unlinkPending p) := by
    rw [unlinkPending]
    split
    · exact (h.pendingPop p).mono fun _ h => h.1
    · exact h
  refine hunlink.bind fun s1 h1 => (h1.wheelPop p).bind fun s2 h2 => ?_
  have h3 : Timed P now (s2.setHarq p { s.harqs p with slotTimeout := none, status := .empty }) :=
    h2.1.setHarq fun hne => absurd rfl hne
  exact h3.of_harqs rfl rfl fun q hne => .inl ⟨hne, rfl⟩

/-- A timeout is moved: the process leaves its bucket and enters another. -/
lemma Timed.retime (h : Timed P now s) (p : ℕ × ℕ) {t : ℕ → ℕ} (ht : P p (some (t now))) :
    Post (fun _ => True) (Timed P now) (do
      let s ← s.wheelPop cfg p
      .ok (s.wheelPush cfg p (t s.lastSlInd))) := by
  refine (h.wheelPop p).bind fun s1 h1 => ?_
  rw [h1.1.last]
  exact h1.1.wheelPush p ht

lemma Timed.setPendingRetx (h : Timed P now s) (p : ℕ × ℕ) (ht : P p (some (cfg.plus now cfg.harqRetxTimeout))) :
    Post (fun _ => True) (Timed P now) (s.setPendingRetx cfg p) := by
  rw [HarqRepository.setPendingRetx]
  split
  · exact h
  refine (h.wheelPop p).bind fun s1 h1 => ?_
  rw [h1.1.last]
  have h2 : Timed P now (s1.wheelPush cfg p (cfg.plus now cfg.harqRetxTimeout)) := h1.1.wheelPush p ht
  set s2 := s1.wheelPush cfg p (cfg.plus now cfg.harqRetxTimeout) with hs2
  have h3 : Timed P now { s2 with harqPendingRetxList := s2.harqPendingRetxList ++ [p] } :=
    h2.of_harqs rfl rfl fun q hne => .inl ⟨hne, rfl⟩
  refine h3.setHarq fun _ => .inr ?_
  simp only [hs2, HarqRepository.wheelPush, update_self]
  exact ht

lemma Timed.handleAck (h : Timed P now s) (p : ℕ × ℕ) (ack : Bool)
    (ht : P p (some (cfg.plus now cfg.harqRetxTimeout))) :
    Post (fun _ => True) (Timed P now) (s.handleAck cfg p ack) := by
  rw [HarqRepository.handleAck]
  split
  · trivial
  split
  · exact h.deallocHarq p
  · exact h.setPendingRetx p ht

lemma Timed.handleNewRetx (h : Timed P now s) (p : ℕ × ℕ) (slotTx : ℕ) {slotAck : ℕ}
    (ht : P p (some (cfg.plus slotAck cfg.maxAckWaitInSlots))) :
    Post (fun _ => True) (Timed P now) (s.handleNewRetx cfg p slotTx slotAck) := by
  rw [HarqRepository.handleNewRetx]
  split
  · exact h
  refine (h.pendingPop p).bind fun s1 h1 => (h1.1.wheelPop p).bind fun s2 h2 => ?_
  refine h2.1.of_harqs rfl rfl fun q hne => ?_
  simp only [HarqRepository.wheelPush, HarqRepository.setHarq] at hne ⊢
  by_cases hq : q = p
  · subst hq
    rw [update_self]
    exact .inr ht
  · rw [update_of_ne hq, update_of_ne hq] at hne ⊢
    exact .inl ⟨hne, rfl⟩

lemma Timed.dlAckInfo (h : Timed P now s) (p : ℕ × ℕ) (report : HarqAckReport) (snr : Option Lib.Binary32.F32)
    (ht : P p (some (cfg.plus now cfg.harqRetxTimeout)))
    (hshort : P p (some (cfg.plus now shortAckTimeoutDtx))) :
    Post (fun _ => True) (Timed P now) (s.dlAckInfo cfg p report snr) := by
  rw [HarqRepository.dlAckInfo]
  split
  · exact h
  next hwait =>
  have hne : (s.harqs p).status ≠ .empty := by
    rw [not_not.mp hwait]
    decide
  dsimp only
  set x := if prefers (s.harqs p) report snr then
    { s.harqs p with chosenAck := report, lastPucchSnr := snr } else s.harqs p with hx
  obtain ⟨hxs, hxt⟩ : x.status = (s.harqs p).status ∧ x.slotTimeout = (s.harqs p).slotTimeout := by
    rw [hx]
    split <;> exact ⟨rfl, rfl⟩
  have h1 : Timed P now (s.setHarq p x) := h.setHarq fun _ => .inl ⟨hne, hxt⟩
  split
  · exact h1.handleAck p _ ht
  · have hset : (s.setHarq p x).harqs p = x := update_self ..
    have h2 : Timed P now ((s.setHarq p x).setHarq p
        { x with pucchAckToReceive := x.pucchAckToReceive - 1, ackOnTimeout := x.chosenAck = .ack }) :=
      h1.setHarq fun _ => .inl (by rw [hset]; exact ⟨hxs ▸ hne, rfl⟩)
    split
    · exact h2
    · exact h2.retime p (t := fun now => cfg.plus now shortAckTimeoutDtx) hshort

lemma Timed.timeoutLoop (h : Timed P now s) (b n : ℕ) :
    Post (fun _ => True) (Timed P now) (timeoutLoop cfg b n s) := by
  induction n generalizing s with
  | zero => exact h
  | succ n ih =>
    rw [HarqRepository.timeoutLoop]
    split
    · exact h
    next p _ _ =>
      have hstep : Post (fun _ => True) (Timed P now) (s.handleHarqAckTimeout cfg p) := by
        rw [handleHarqAckTimeout]
        split
        · trivial
        · exact h.deallocHarq p
      exact hstep.bind fun s1 h1 => ih h1

lemma Timed.trappedLoop (h : Timed P now s) (n : ℕ) :
    Post (fun _ => True) (Timed P now) (trappedLoop cfg n s) := by
  induction n generalizing s with
  | zero => exact h
  | succ n ih =>
    rw [HarqRepository.trappedLoop]
    split
    · exact h
    next p _ _ =>
      split
      · trivial
      split
      · exact h
      · exact (h.deallocHarq p).bind fun s1 h1 => ih h1

lemma Timed.uciSchedFailed (h : Timed P now s) (ue uciSlot : ℕ)
    (ht : ∀ p, P p (some (cfg.plus now cfg.harqRetxTimeout)))
    (hshort : ∀ p, P p (some (cfg.plus now shortAckTimeoutDtx))) :
    Post (fun _ => True) (Timed P now) (s.uciSchedFailed cfg ue uciSlot) := by
  rw [HarqRepository.uciSchedFailed]
  refine Post.foldlM h fun s1 hId _ h1 => ?_
  dsimp only
  split
  · exact Post.foldlM h1 fun s2 _ _ h2 => h2.dlAckInfo _ _ _ (ht _) (hshort _)
  · exact h1

lemma Timed.allocHarq (h : Timed P now s) (ue slotTx maxNofHarqRetxs : ℕ) {slotAck : ℕ}
    (ht : ∀ p, P p (some (cfg.plus slotAck (cfg.maxAckWaitInSlots - cfg.ntnCsKoffset)))) :
    Timed P now (s.allocHarq cfg ue slotTx slotAck maxNofHarqRetxs).1 := by
  rw [HarqRepository.allocHarq]
  split
  · exact h
  next hId _ =>
  refine h.of_harqs rfl rfl fun q hne => ?_
  simp only [HarqRepository.wheelPush, HarqRepository.setHarq] at hne ⊢
  by_cases hq : q = (ue, hId)
  · subst hq
    rw [update_self]
    exact .inr (ht _)
  · rw [update_of_ne hq, update_of_ne hq] at hne ⊢
    exact .inl ⟨hne, rfl⟩

lemma Timed.addUe (h : Timed P now s) (ue nofHarqs : ℕ) : Post (fun _ => True) (Timed P now) (s.addUe cfg ue nofHarqs) := by
  rw [HarqRepository.addUe]
  split
  · trivial
  split
  · trivial
  split
  · trivial
  · refine ⟨h.last, fun q hq hne => ?_⟩
    by_cases hue : q.1 = ue
    · simp only [if_pos hue] at hne
      exact absurd rfl hne
    · simp only [if_neg hue] at hne ⊢
      have hold : q.2 < update s.nofHarqs ue nofHarqs q.1 := hq
      rw [update_of_ne hue] at hold
      exact h.timeout q hold hne

lemma Timed.destroyUe (h : Timed P now s) (ue : ℕ) : Post (fun _ => True) (Timed P now) (s.destroyUe cfg ue) := by
  rw [HarqRepository.destroyUe]
  refine (Post.foldlM h fun s1 hId _ h1 => h1.deallocHarq (ue, hId)).bind fun s1 h1 => ?_
  refine ⟨h1.last, fun q hq hne => h1.timeout q ?_ hne⟩
  have hold : q.2 < update s1.nofHarqs ue 0 q.1 := hq
  by_cases hue : q.1 = ue
  · rw [hue, update_self] at hold
    exact absurd hold (Nat.not_lt_zero _)
  · rwa [update_of_ne hue] at hold

/-! ### Runs -/

lemma Timed.slotIndication (hi : HarqInv cfg s) (h : Timed (fun _ => Near cfg now) now s) (hpos : 0 < cfg.nofSlots) :
    Post (fun _ => True) (Timed (fun _ => Near cfg (cfg.plus now 1)) (cfg.plus now 1))
      (s.slotIndication cfg (cfg.plus now 1)) := by
  set slot := cfg.plus now 1 with hslot
  set bucket := s.harqTimeoutWheel (slot % cfg.wheelSize) with hbucket
  -- a timeout in this slot is in the bucket, and the others are one slot nearer
  have hbefore : Timed (fun q t => Near cfg slot t ∨ q ∈ bucket) slot { s with lastSlInd := slot } := by
    refine ⟨rfl, fun q hq hne => ?_⟩
    obtain ⟨d, h1, h2, ht⟩ := h.timeout q hq hne
    by_cases hd : d = 1
    · subst hd
      exact .inr (((hi.wheel _).mem q).mpr ⟨hq, hne, _, ht, by rw [hslot, Nat.cast_one]⟩)
    · refine .inl ⟨d - 1, by omega, by omega, ht.trans (congrArg some ?_)⟩
      rw [hslot, plus_plus hpos]
      congr 1
      omega
  have hi0 : HarqInv cfg { s with lastSlInd := slot } := { hi with }
  obtain ⟨s1, hs1, -, hf1, hstatus⟩ := hi0.timeoutLoop (slot % cfg.wheelSize) bucket.length le_rfl
  have hafter : Timed (fun _ => Near cfg slot) slot s1 := by
    have hloop := (hbefore.timeoutLoop (slot % cfg.wheelSize) bucket.length).of_ok hs1
    refine ⟨hloop.last, fun q hq hne => (hloop.timeout q hq hne).resolve_right fun hmem => hne ?_⟩
    rw [hstatus, if_pos hmem]
  rw [HarqRepository.slotIndication]
  show Post _ _ (HarqRepository.timeoutLoop cfg (slot % cfg.wheelSize) bucket.length { s with lastSlInd := slot } >>= _)
  rw [hs1, ok_bind]
  exact hafter.trappedLoop _

section Cell

variable {cell : HarqCell}

lemma wheelSize_ge (cell : HarqCell) : 288 + cell.ntnCsKoffset ≤ cell.config.wheelSize := by
  refine le_trans ?_ (RbRun.le_getAllocatorRingSizeGtMin _)
  rw [getMaxSlotUlAllocDelay, ← Nat.add_assoc]
  exact Nat.add_le_add_right (by decide) _

lemma nofSlots_pos (cell : HarqCell) : 0 < cell.config.nofSlots :=
  Nat.mul_pos (Nat.mul_pos (Nat.two_pow_pos _) (by decide)) (by decide)

/-- Timeouts from `n` slots after the ACK slot -/
lemma near_ack {slotAck : ℕ} {n : ℤ} (h : ∃ k ≤ getMaxSlotUlAllocDelay 0,
      slotAck = cell.config.plus now ((k + cell.ntnCsKoffset : ℕ) : ℤ)) (h1 : 1 ≤ cell.ntnCsKoffset + n) (h2 : n ≤ 256) :
    Near cell.config now (some (cell.config.plus slotAck n)) := by
  obtain ⟨k, hk, rfl⟩ := h
  have hsize := wheelSize_ge cell
  have hdelay : getMaxSlotUlAllocDelay 0 = 32 := rfl
  refine ⟨(k + cell.ntnCsKoffset + n).toNat, by omega, by omega, ?_⟩
  rw [plus_plus (nofSlots_pos cell)]
  congr 2
  omega

lemma Timed.at_last (h : Timed (fun _ => Near cfg now) now s) :
    Timed (fun _ => Near cfg s.lastSlInd) s.lastSlInd s := by
  rw [h.last]
  exact h

/-- A call through a handle, which is an error if there is no such process -/
lemma Timed.withHandle {x : Except Abort HarqRepository}
    (hx : Post (fun _ => True) (Timed (fun _ => Near cfg s.lastSlInd) s.lastSlInd) x) :
    Post (fun _ => True) (fun s' => Timed (fun _ => Near cfg s'.lastSlInd) s'.lastSlInd s') (s.withHandle p x) := by
  rw [HarqRepository.withHandle]
  split
  · exact hx.mono fun _ => Timed.at_last
  · trivial

lemma Timed.step (hfits : cell.Fits) (hi : HarqInv cell.config s) (h : Timed (fun _ => Near cell.config s.lastSlInd) s.lastSlInd s)
    {a : HarqAction} (ha : InGrid cell s a) :
    Post (fun _ => True) (fun s' => Timed (fun _ => Near cell.config s'.lastSlInd) s'.lastSlInd s')
      (s.step cell.config a) := by
  have hsize := wheelSize_ge cell
  have hack : cell.config.maxAckWaitInSlots = if cell.ntnCsKoffset = 0 then 256 else 1 := rfl
  have hkoffset : cell.config.ntnCsKoffset = cell.ntnCsKoffset := rfl
  have ht : Near cell.config s.lastSlInd (some (cell.config.plus s.lastSlInd cell.config.harqRetxTimeout)) :=
    ⟨_, Nat.mul_pos cell.timeout_pos (nofSlotsPerSubframe_pos _), hfits, rfl⟩
  have hshort : Near cell.config s.lastSlInd (some (cell.config.plus s.lastSlInd shortAckTimeoutDtx)) :=
    ⟨8, by decide, by omega, rfl⟩
  cases a with
  | slotIndication slotTx =>
    obtain rfl : slotTx = _ := ha
    exact (Timed.slotIndication hi h (nofSlots_pos cell)).mono fun _ => Timed.at_last
  | alloc ue slotTx slotAck max =>
    refine Timed.at_last (h.allocHarq ue slotTx max fun _ => near_ack ha ?_ ?_)
    · rw [hack, hkoffset]
      split <;> push_cast <;> omega
    · rw [hack, hkoffset]
      split <;> push_cast <;> omega
  | newRetx p slotTx slotAck =>
    refine Timed.withHandle (h.handleNewRetx p slotTx (near_ack ha ?_ ?_))
    · rw [hack]
      split <;> push_cast <;> omega
    · rw [hack]
      split <;> decide
  | dlAckInfo p report snr => exact Timed.withHandle (h.dlAckInfo p report snr ht hshort)
  | ulCrcInfo p ack =>
    refine Timed.withHandle ?_
    rw [ulCrcInfo]
    split
    · exact h
    · exact h.handleAck p ack ht
  | uciSchedFailed ue uciSlot => exact (h.uciSchedFailed ue uciSlot (fun _ => ht) fun _ => hshort).mono fun _ => Timed.at_last
  | incrementPucchCounter p => exact Timed.withHandle (h.setHarq fun hne => .inl ⟨hne, rfl⟩)
  | cancelRetxs p =>
    refine Timed.withHandle ?_
    rw [cancelRetxs]
    split
    · exact h
    · exact h.deallocHarq p
    next hst => exact h.setHarq fun _ => .inl ⟨by rw [hst]; decide, rfl⟩
  | reset p => exact Timed.withHandle (h.deallocHarq p)
  | addUe ue nofHarqs => exact (h.addUe ue nofHarqs).mono fun _ => Timed.at_last
  | destroyUe ue => exact (h.destroyUe ue).mono fun _ => Timed.at_last

end Cell

/-! ### Two cells of 30 kHz -/

instance (cell : HarqCell) (a : HarqAction) : Decidable (InGrid cell s a) :=
  match a with
  | .slotIndication _ => inferInstanceAs (Decidable (_ = _))
  | .alloc _ _ slotAck _ | .newRetx _ _ slotAck => inferInstanceAs (Decidable (∃ k ≤ getMaxSlotUlAllocDelay 0,
      slotAck = cell.config.plus s.lastSlInd ((k + cell.ntnCsKoffset : ℕ) : ℤ)))
  | .dlAckInfo .. | .ulCrcInfo .. | .uciSchedFailed .. | .incrementPucchCounter _ | .cancelRetxs _ | .reset _ | .addUe ..
  | .destroyUe _ => inferInstanceAs (Decidable True)

end HarqRepository

end SrsRan.Sched
