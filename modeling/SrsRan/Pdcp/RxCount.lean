import SrsRan.Pdcp.Config
import Mathlib.Data.Nat.Bitwise

/-!
# The COUNT of a received PDCP PDU

`handle_data_pdu` finds the COUNT of a PDU from its SN and from RX_DELIV.  It is right for every PDU within the window around
RX_DELIV.
-/

namespace SrsRan.Pdcp

open Nat

def PdcpSnSize.toUint : PdcpSnSize → ℕ
  | .size12bits => 12
  | .size18bits => 18

def PdcpSnSize.windowSize : PdcpSnSize → ℕ
  | .size12bits => 2048
  | .size18bits => 131072

variable (snSize : PdcpSnSize)

def pdcpComputeSn (count : ℕ) : ℕ := count &&& 0xffffffff >>> (32 - snSize.toUint)

def pdcpComputeHfn (count : ℕ) : ℕ := count >>> snSize.toUint

def pdcpComputeCount (hfn sn : ℕ) : ℕ := (hfn <<< snSize.toUint) % 2 ^ 32 ||| sn

structure MaxCount where
  notify : ℕ
  hard : ℕ

/-- The limits of `pdcp_rx_default_max_count_notify` and `pdcp_rx_default_max_count_hard`. -/
def MaxCount.rxDefault : MaxCount := ⟨0xc0000000, 0xd0000000⟩

/-- What `handle_data_pdu` reads and writes of the entity. -/
structure RxCountState where
  rxDeliv : ℕ
  maxCountNotified : Bool := false
  maxCountOverflow : Bool := false
deriving DecidableEq

inductive RxCountCall where
  | onMaxCountReached
  | onProtocolFailure
  | applySecurity (count : ℕ)
deriving DecidableEq

def rcvdCount (rxDeliv sn : ℕ) : ℕ :=
  let rcvdHfn :=
    if (sn : ℤ) < pdcpComputeSn snSize rxDeliv - snSize.windowSize then (pdcpComputeHfn snSize rxDeliv + 1) % 2 ^ 32
    else if sn ≥ pdcpComputeSn snSize rxDeliv + snSize.windowSize then
      (pdcpComputeHfn snSize rxDeliv + (2 ^ 32 - 1)) % 2 ^ 32
    else pdcpComputeHfn snSize rxDeliv
  pdcpComputeCount snSize rcvdHfn sn

def handleDataPdu (maxCount : MaxCount) (s : RxCountState) (sn : ℕ) : RxCountState × List RxCountCall :=
  let count := rcvdCount snSize s.rxDeliv sn
  let reached := if count > maxCount.notify ∧ !s.maxCountNotified then [.onMaxCountReached] else []
  let s := { s with maxCountNotified := s.maxCountNotified || decide (count > maxCount.notify) }
  if count ≥ maxCount.hard then
    ({ s with maxCountOverflow := true }, reached ++ if s.maxCountOverflow then [] else [.onProtocolFailure])
  else (s, reached ++ [.applySecurity count])

/-! ### The COUNT in arithmetic -/

lemma pdcpComputeSn_eq (count : ℕ) : pdcpComputeSn snSize count = count % 2 ^ snSize.toUint := by
  cases snSize
  · exact and_two_pow_sub_one_eq_mod count 12
  · exact and_two_pow_sub_one_eq_mod count 18

lemma pdcpComputeHfn_eq (count : ℕ) : pdcpComputeHfn snSize count = count / 2 ^ snSize.toUint :=
  shiftRight_eq_div_pow count _

lemma pdcpComputeCount_eq {sn : ℕ} (h : sn < 2 ^ snSize.toUint) (hfn : ℕ) :
    pdcpComputeCount snSize hfn sn = 2 ^ snSize.toUint * (hfn % 2 ^ (32 - snSize.toUint)) + sn := by
  have hshift : (hfn <<< snSize.toUint) % 2 ^ 32 = 2 ^ snSize.toUint * (hfn % 2 ^ (32 - snSize.toUint)) := by
    rw [shiftLeft_eq, Nat.mul_comm, ← mul_mod_mul_left, ← Nat.pow_add]
    cases snSize <;> rfl
  rw [pdcpComputeCount, hshift, two_pow_add_eq_or_of_lt h]

lemma rcvdCount_eq {sn : ℕ} (h : sn < 2 ^ snSize.toUint) (d : ℕ) :
    rcvdCount snSize d sn = 2 ^ snSize.toUint * ((
      if sn + snSize.windowSize < d % 2 ^ snSize.toUint then d / 2 ^ snSize.toUint + 1
      else if d % 2 ^ snSize.toUint + snSize.windowSize ≤ sn then d / 2 ^ snSize.toUint + (2 ^ 32 - 1)
      else d / 2 ^ snSize.toUint) % 2 ^ (32 - snSize.toUint)) + sn := by
  have hdvd : 2 ^ (32 - snSize.toUint) ∣ 2 ^ 32 := pow_dvd_pow 2 (sub_le _ _)
  rw [rcvdCount, pdcpComputeCount_eq snSize h]
  simp only [lt_sub_iff_add_lt, ← cast_add, cast_lt, pdcpComputeSn_eq, pdcpComputeHfn_eq, ge_iff_le]
  split
  · rw [mod_mod_of_dvd _ hdvd]
  split
  · rw [mod_mod_of_dvd _ hdvd]
  · rfl

lemma rcvdCount_of_window {d c : ℕ} (hc : c < 2 ^ 32) (h1 : d ≤ c + snSize.windowSize)
    (h2 : c < d + snSize.windowSize) : rcvdCount snSize d (pdcpComputeSn snSize c) = c := by
  rw [pdcpComputeSn_eq, rcvdCount_eq snSize (mod_lt _ (Nat.two_pow_pos _))]
  -- the COUNT lies in the SN cycle after that of RX_DELIV, in the one before it, or in the same one
  split_ifs with habove hbelow <;> cases snSize <;> simp only [PdcpSnSize.toUint, PdcpSnSize.windowSize] at * <;> omega

lemma rcvdCount_of_lt {d sn : ℕ} (hd : d < snSize.windowSize) (h : sn < 2 ^ snSize.toUint) :
    rcvdCount snSize d sn =
      if d + snSize.windowSize ≤ sn then 2 ^ 32 - 2 ^ snSize.toUint + sn else sn := by
  rw [rcvdCount_eq snSize h]
  split_ifs <;> cases snSize <;> simp only [PdcpSnSize.toUint, PdcpSnSize.windowSize] at * <;> omega

/-- **The reconstruction of COUNT** is right within the window, and before RX_DELIV has left the first window iff the SN
is below `RX_DELIV + Window_Size` or its wrapped COUNT is below the limit. -/
theorem rcvdCount_iff (maxCount : MaxCount) :
    (∀ rxDeliv c, rxDeliv < 2 ^ 32 → c < 2 ^ 32 → rxDeliv ≤ c + snSize.windowSize → c < rxDeliv + snSize.windowSize →
      rcvdCount snSize rxDeliv (pdcpComputeSn snSize c) = c) ∧
    (∀ rxDeliv sn, rxDeliv < snSize.windowSize → sn < 2 ^ snSize.toUint →
      (rcvdCount snSize rxDeliv sn = sn ∨ rcvdCount snSize rxDeliv sn < maxCount.notify ↔
        sn < rxDeliv + snSize.windowSize ∨ 2 ^ 32 - 2 ^ snSize.toUint + sn < maxCount.notify)) ∧
    ∀ rxDeliv sn, rxDeliv < snSize.windowSize → sn < 2 ^ snSize.toUint →
      2 ^ snSize.toUint ≤ maxCount.notify → maxCount.notify ≤ maxCount.hard →
      ((handleDataPdu snSize maxCount { rxDeliv } sn).2 = [.applySecurity sn] ↔ sn < rxDeliv + snSize.windowSize) := by
  have hpos : 2 ^ snSize.toUint < 2 ^ 32 := Nat.pow_lt_pow_right (by decide) (by cases snSize <;> decide)
  refine ⟨fun rxDeliv c _ hc h1 h2 => rcvdCount_of_window snSize hc h1 h2, fun rxDeliv sn hd h => ?_,
    fun rxDeliv sn hd h hnotify hhard => ?_⟩
  · rw [rcvdCount_of_lt snSize hd h]
    split <;> omega
  · rcases Nat.lt_or_ge sn (rxDeliv + snSize.windowSize) with hsn | hsn
    · have hcount : rcvdCount snSize rxDeliv sn = sn := by rw [rcvdCount_of_lt snSize hd h, if_neg (by omega)]
      simp [handleDataPdu, hcount, hsn, show ¬ maxCount.notify < sn by omega, show ¬ maxCount.hard ≤ sn by omega]
    · have hcount : rcvdCount snSize rxDeliv sn ≠ sn := by
        rw [rcvdCount_of_lt snSize hd h, if_pos hsn]
        omega
      have hsn' : ¬ sn < rxDeliv + snSize.windowSize := by omega
      simp only [handleDataPdu, hsn', iff_false]
      split_ifs <;> simp [hcount]

/-- The first PDU of a new entity, with the 12-bit SN 2048: the entity asks for new keys and refuses the PDU. -/
theorem handleDataPdu_refuses_first :
    handleDataPdu .size12bits .rxDefault { rxDeliv := 0 } 2048 =
      ({ rxDeliv := 0, maxCountNotified := true, maxCountOverflow := true }, [.onMaxCountReached, .onProtocolFailure]) ∧
    ¬ (rcvdCount .size12bits 0 2048 = 2048 ∨ rcvdCount .size12bits 0 2048 < MaxCount.rxDefault.notify) := by
  decide +kernel

end SrsRan.Pdcp
