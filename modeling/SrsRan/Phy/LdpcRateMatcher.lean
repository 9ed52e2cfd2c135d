import SrsRan.Lib.GapRing
import SrsRan.Support.BitBuffer
import Mathlib.Tactic.IntervalCases

/-!
# LDPC rate matching

`ldpc_rate_matcher_impl` selects bits of a codeblock from a circular buffer, without the filler bits, and interleaves them.
The selection copies chunks, and the interleaver has loops of its own for the modulation orders 1, 6 and 8.
-/

namespace SrsRan.Phy

open Lib Support List Nat
open BitBuffer (bitOf bitOf_set length_setWords setWords)

inductive ModulationScheme where
  | pi2Bpsk
  | bpsk
  | qpsk
  | qam16
  | qam64
  | qam256
deriving DecidableEq

def getBitsPerSymbol : ModulationScheme → ℕ
  | .pi2Bpsk => 1
  | .bpsk => 1
  | .qpsk => 2
  | .qam16 => 4
  | .qam64 => 6
  | .qam256 => 8

namespace Ldpc

inductive BaseGraph where
  | bg1
  | bg2
deriving DecidableEq

def allLiftingSizes : List ℕ :=
  [2, 3, 4, 5, 6, 7, 8, 9, 10, 11, 12, 13, 14, 15, 16, 18, 20, 22, 24, 26, 28, 30, 32, 36, 40, 44, 48, 52, 56, 60, 64, 72,
    80, 88, 96, 104, 112, 120, 128, 144, 160, 176, 192, 208, 224, 240, 256, 288, 320, 352, 384]

def maxCodeblockSize : ℕ := 384 * 66

def maxCodeblockRmSize : ℕ := 384 * 22 * 35

def shiftFactorBg1 : List ℕ := [0, 17, 33, 56]

def shiftFactorBg2 : List ℕ := [0, 13, 25, 43]

/-- The fields of `codeblock_metadata` that rate matching reads. -/
structure CodeblockMetadata where
  rv : ℕ
  mod : ModulationScheme
  nref : ℕ
  nofFillerBits : ℕ
deriving DecidableEq

/-- The data members of the rate matcher and of the rate dematcher. -/
structure Selection where
  modulationOrder : ℕ
  nofSystematicBits : ℕ
  nofFillerBits : ℕ
  bufferLength : ℕ
  shiftK0 : ℕ
deriving DecidableEq

def graphOf (blockLength : ℕ) : Option (List ℕ × ℕ × ℕ) :=
  if blockLength % 66 = 0 then some (shiftFactorBg1, 66, 68 - 46)
  else if blockLength % 50 = 0 then some (shiftFactorBg2, 50, 52 - 42)
  else none

/-- `ldpc_rate_matcher_impl::init`. The `double` quotient of `shift_k0` has the floor of the exact one. -/
def init (cfg : CodeblockMetadata) (blockLength rmLength : ℕ) : Option Selection := do
  if cfg.rv > 3 then none
  let modulationOrder := getBitsPerSymbol cfg.mod
  let bufferLength := if cfg.nref > 0 then min cfg.nref blockLength else blockLength
  if rmLength > maxCodeblockRmSize then none
  if rmLength % modulationOrder ≠ 0 then none
  let (shiftFactor, bgNShort, bgK) ← graphOf blockLength
  let liftingSize := blockLength / bgNShort % 2 ^ 16
  if liftingSize ∉ allLiftingSizes then none
  let nofSystematicBits := (bgK - 2) * liftingSize
  if cfg.nofFillerBits ≥ nofSystematicBits then none
  let shiftK0 := shiftFactor.getD cfg.rv 0 * bufferLength / blockLength * liftingSize
  return ⟨modulationOrder, nofSystematicBits, cfg.nofFillerBits, bufferLength, shiftK0⟩

/-! ### The selection of bits -/

/-- The loop of `select_bits`; none if a chunk is not valid or the loop does not end. -/
def selectLoop (p : Selection) (input : List Bool) : (fuel inIndex remaining : ℕ) → Option (List Bool)
  | _, _, 0 => some []
  | 0, _, _ + 1 => none
  | fuel + 1, inIndex, remaining@(_ + 1) => do
    let fillerStart := p.nofSystematicBits - p.nofFillerBits
    let fillerStop := p.nofSystematicBits
    let inIndex := if fillerStart ≤ inIndex ∧ inIndex < fillerStop then fillerStop else inIndex
    if inIndex > p.bufferLength then none
    let stop :=
      if fillerStart ≠ fillerStop ∧ inIndex ≤ fillerStart ∧ fillerStart < p.bufferLength then fillerStart
      else p.bufferLength
    let count := min (stop - inIndex) remaining
    let rest ← selectLoop p input fuel ((inIndex + count) % p.bufferLength) (remaining - count)
    return (input.drop inIndex).take count ++ rest

/-- `select_bits`; two rounds for every bit are more than enough -/
def selectBits (p : Selection) (outputLength : ℕ) (input : List Bool) : Option (List Bool) :=
  selectLoop p input (2 * outputLength + 1) p.shiftK0 outputLength

/-! ### The interleaver -/

variable (inp : List Bool)

def entry (K q i : ℕ) : Bool := inp.getD (K * q + i) false

def symbolWord (inp : List Bool) (K i : ℕ) : (n : ℕ) → ℕ
  | 0 => (entry inp K 0 i).toNat
  | n + 1 => (symbolWord inp K i n <<< 1 ||| (entry inp K (n + 1) i).toNat) % 2 ^ 8

def insertSymbols (Qm : ℕ) (inp : List Bool) (K : ℕ) : (n i outIndex : ℕ) → BitBuffer → Option BitBuffer
  | 0, _, _, out => some out
  | n + 1, i, outIndex, out => do
    let out ← out.insert (symbolWord inp K i (Qm - 1)) outIndex Qm
    insertSymbols Qm inp K n (i + 1) (outIndex + Qm) out

def interleaveBitsQm (Qm : ℕ) (out : BitBuffer) (inp : List Bool) : Option BitBuffer :=
  insertSymbols Qm inp (out.size / Qm) (out.size / Qm) 0 0 out

def orByte (b₀ b₁ b₂ b₃ b₄ b₅ b₆ b₇ : Bool) : UInt8 :=
  byte (b₀.toNat <<< 7 ||| b₁.toNat <<< 6 ||| b₂.toNat <<< 5 ||| b₃.toNat <<< 4 ||| b₄.toNat <<< 3 ||| b₅.toNat <<< 2 |||
    b₆.toNat <<< 1 ||| b₇.toNat <<< 0)

def writeBatch (K i : ℕ) (words : Bytes) (outPtr : ℕ) : Bytes :=
  let e := entry inp K
  let words := words.set outPtr
    (orByte (e 0 i) (e 1 i) (e 2 i) (e 3 i) (e 4 i) (e 5 i) (e 0 (i + 1)) (e 1 (i + 1)))
  let words := words.set (outPtr + 1)
    (orByte (e 2 (i + 1)) (e 3 (i + 1)) (e 4 (i + 1)) (e 5 (i + 1)) (e 0 (i + 2)) (e 1 (i + 2)) (e 2 (i + 2)) (e 3 (i + 2)))
  words.set (outPtr + 2)
    (orByte (e 4 (i + 2)) (e 5 (i + 2)) (e 0 (i + 3)) (e 1 (i + 3)) (e 2 (i + 3)) (e 3 (i + 3)) (e 4 (i + 3)) (e 5 (i + 3)))

def writeBatches (K : ℕ) (words : Bytes) (n : ℕ) : Bytes :=
  (List.range n).foldl (fun words m => writeBatch inp K (4 * m) words (3 * m)) words

lemma writeBatches_succ (K : ℕ) (words : Bytes) (n : ℕ) :
    writeBatches inp K words (n + 1) = writeBatch inp K (4 * n) (writeBatches inp K words n) (3 * n) := by
  rw [writeBatches, List.range_succ, foldl_append]
  rfl

lemma length_writeBatches (K : ℕ) (words : Bytes) (n : ℕ) : (writeBatches inp K words n).length = words.length := by
  induction n with
  | zero => rfl
  | succ n ih =>
    rw [writeBatches_succ]
    simp [writeBatch, ih]

/-- `interleave_bits_Qm<6>`: batches of four symbols, and the symbols that remain -/
def interleaveBitsQm6 (out : BitBuffer) (inp : List Bool) : Option BitBuffer :=
  let K := out.size / 6
  let packed := out.withWords (writeBatches inp K out.buffer (K / 4)) (length_writeBatches ..)
  insertSymbols 6 inp K (K - K / 4 * 4) (K / 4 * 4) (K / 4 * 4 * 6) packed

def appendRows (inp : List Bool) (K : ℕ) (words : Bytes) : (n : ℕ) → Bytes
  | 0 => BitBuffer.setWords words K fun k => byte (entry inp K 0 k).toNat
  | n + 1 =>
    let words := appendRows inp K words n
    BitBuffer.setWords words K fun k => byte ((words.getD k 0).toNat <<< 1 ||| (entry inp K (n + 1) k).toNat)

lemma length_appendRows (K : ℕ) (words : Bytes) (n : ℕ) : (appendRows inp K words n).length = words.length := by
  induction n with
  | zero => exact length_setWords ..
  | succ n ih => exact (length_setWords ..).trans ih

def interleaveBitsQm8 (out : BitBuffer) (inp : List Bool) : BitBuffer :=
  out.withWords (appendRows inp (out.size / 8) out.buffer 7) (length_appendRows ..)

def interleaveBits (modulationOrder : ℕ) (out : BitBuffer) (inp : List Bool) : Option BitBuffer :=
  match modulationOrder with
  | 1 => out.bitPack inp
  | 2 => interleaveBitsQm 2 out inp
  | 4 => interleaveBitsQm 4 out inp
  | 6 => interleaveBitsQm6 out inp
  | _ => some (interleaveBitsQm8 out inp)

def rateMatch (output : BitBuffer) (input : List Bool) (cfg : CodeblockMetadata) : Option BitBuffer := do
  let p ← init cfg input.length output.size
  let aux ← selectBits p output.size input
  interleaveBits p.modulationOrder output aux

/-! ### The parameters of a codeblock -/

def BaseGraph.nShort : BaseGraph → ℕ
  | .bg1 => 66
  | .bg2 => 50

def BaseGraph.nofSystematicNodes : BaseGraph → ℕ
  | .bg1 => 20
  | .bg2 => 8

def BaseGraph.shiftFactor : BaseGraph → List ℕ
  | .bg1 => shiftFactorBg1
  | .bg2 => shiftFactorBg2

structure Setup where
  baseGraph : BaseGraph
  liftingSize : ℕ
  lifting_mem : liftingSize ∈ allLiftingSizes
  rv : Fin 4
  mod : ModulationScheme
  nofFillerBits : ℕ
  filler_lt : nofFillerBits < baseGraph.nofSystematicNodes * liftingSize
  nref : ℕ
  /-- the systematic part lies inside of the buffer -/
  nref_ge : nref = 0 ∨ baseGraph.nofSystematicNodes * liftingSize ≤ nref
  rmLength : ℕ
  order_dvd : getBitsPerSymbol mod ∣ rmLength

namespace Setup

variable (s : Setup)

def metadata : CodeblockMetadata := ⟨s.rv, s.mod, s.nref, s.nofFillerBits⟩

def blockLength : ℕ := s.baseGraph.nShort * s.liftingSize

def nofSystematicBits : ℕ := s.baseGraph.nofSystematicNodes * s.liftingSize

def nofInfoBits : ℕ := s.nofSystematicBits - s.nofFillerBits

def bufferLength : ℕ := if s.nref > 0 then min s.nref s.blockLength else s.blockLength

def shiftK0 : ℕ := s.baseGraph.shiftFactor.getD s.rv 0 * s.bufferLength / s.blockLength * s.liftingSize

def modulationOrder : ℕ := getBitsPerSymbol s.mod

def nofSymbols : ℕ := s.rmLength / s.modulationOrder

def selection : Selection := ⟨s.modulationOrder, s.nofSystematicBits, s.nofFillerBits, s.bufferLength, s.shiftK0⟩

variable {s}

lemma liftingSize_bounds : 0 < s.liftingSize ∧ s.liftingSize < 2 ^ 16 := by
  have hall : ∀ z ∈ allLiftingSizes, 0 < z ∧ z < 2 ^ 16 := by decide
  exact hall _ s.lifting_mem

lemma nodes_lt : s.baseGraph.nofSystematicNodes < s.baseGraph.nShort := by
  cases s.baseGraph <;> decide

lemma systematic_lt : s.nofSystematicBits < s.blockLength := mul_lt_mul_of_pos_right nodes_lt liftingSize_bounds.1

lemma info_pos : 0 < s.nofInfoBits := Nat.sub_pos_of_lt s.filler_lt

lemma info_le : s.nofInfoBits ≤ s.nofSystematicBits := sub_le _ _

lemma systematic_le_buffer : s.nofSystematicBits ≤ s.bufferLength := by
  have hlt := systematic_lt (s := s)
  unfold bufferLength
  split
  next hpos =>
    apply Nat.le_min.mpr
    refine ⟨?_, hlt.le⟩
    rcases s.nref_ge with h0 | hge
    · omega
    · exact hge
  · exact hlt.le

lemma buffer_le : s.bufferLength ≤ s.blockLength := by
  unfold bufferLength
  split
  · exact Nat.min_le_right _ _
  · exact le_rfl

variable (s) in
/-- **The circular buffer.**  The filler bits are not selected. -/
def ring : GapRing where
  size := s.bufferLength
  start := s.nofInfoBits
  stop := s.nofSystematicBits
  start_pos := info_pos
  start_le := info_le
  stop_le := systematic_le_buffer

variable (s) in
/-- The index of the output `j`: bits are written to rows, and read by columns. -/
def selected (j : ℕ) : ℕ := s.nofSymbols * (j % s.modulationOrder) + j / s.modulationOrder

variable (s) in
/-- **The position of the codeblock** that goes to the output position `j`. -/
def source (j : ℕ) : ℕ := s.ring.pick s.shiftK0 (s.selected j)

lemma factor_lt : s.baseGraph.shiftFactor.getD s.rv 0 < s.baseGraph.nShort := by
  have h1 : ∀ rv : Fin 4, shiftFactorBg1.getD rv 0 < 66 := by decide
  have h2 : ∀ rv : Fin 4, shiftFactorBg2.getD rv 0 < 50 := by decide
  cases s.baseGraph with
  | bg1 => exact h1 s.rv
  | bg2 => exact h2 s.rv

lemma shiftK0_lt : s.shiftK0 < s.bufferLength := by
  have hpos : 0 < s.bufferLength := s.ring.size_pos
  have hn : 0 < s.baseGraph.nShort := zero_lt_of_lt (nodes_lt)
  unfold shiftK0 blockLength
  rw [← Nat.div_div_eq_div_mul]
  apply lt_of_le_of_lt (div_mul_le_self _ _)
  rw [Nat.div_lt_iff_lt_mul hn, mul_comm s.bufferLength]
  exact mul_lt_mul_of_pos_right factor_lt hpos

lemma graphOf_eq : graphOf s.blockLength =
    some (s.baseGraph.shiftFactor, s.baseGraph.nShort, s.baseGraph.nofSystematicNodes + 2) := by
  have hmem := s.lifting_mem
  have hbg2 : ∀ z ∈ allLiftingSizes, 50 * z % 66 ≠ 0 := by decide
  unfold graphOf blockLength
  cases s.baseGraph with
  | bg1 =>
    show (if 66 * s.liftingSize % 66 = 0 then _ else _) = _
    rw [if_pos (mul_mod_right 66 s.liftingSize)]
    rfl
  | bg2 =>
    show (if 50 * s.liftingSize % 66 = 0 then _ else if 50 * s.liftingSize % 50 = 0 then _ else _) = _
    rw [if_neg (hbg2 _ hmem), if_pos (mul_mod_right 50 s.liftingSize)]
    rfl

lemma init_eq : init s.metadata s.blockLength s.rmLength =
    if s.rmLength ≤ maxCodeblockRmSize then some s.selection else none := by
  have hrv : ¬ (s.rv : ℕ) > 3 := by
    have := s.rv.isLt
    omega
  have hz : s.blockLength / s.baseGraph.nShort % 2 ^ 16 = s.liftingSize := by
    rw [blockLength, Nat.mul_div_cancel_left _ (zero_lt_of_lt (nodes_lt)), mod_eq_of_lt liftingSize_bounds.2]
  have hfill : ¬ s.nofFillerBits ≥ s.baseGraph.nofSystematicNodes * s.liftingSize := Nat.not_le.mpr s.filler_lt
  by_cases hlen : s.rmLength ≤ maxCodeblockRmSize
  · rw [if_pos hlen]
    simp only [init, metadata, hrv, if_false, Nat.not_lt.mpr hlen, gt_iff_lt, mod_eq_zero_of_dvd s.order_dvd, ne_eq,
      not_true_eq_false, graphOf_eq, Option.bind_eq_bind, Option.bind_some, hz, s.lifting_mem, Nat.add_sub_cancel, hfill]
    rfl
  · rw [if_neg hlen]
    simp only [init, metadata, hrv, if_false, Nat.not_le.mp hlen, gt_iff_lt, if_true]
    rfl

/-! ### The selection in chunks -/

variable {input : List Bool}

lemma take_drop_eq_map {x c : ℕ} (h : x + c ≤ input.length) :
    (input.drop x).take c = (List.range' x c).map fun y => input.getD y false := by
  apply ext_getElem
  · rw [length_take, length_drop, length_map, length_range']
    omega
  · intro i h1 h2
    rw [getElem_take, getElem_drop, getElem_map, getElem_range', one_mul,
      getD_eq_getElem _ _ (by rw [length_map, length_range'] at h2; omega)]

def rounds (s : Setup) (x remaining : ℕ) : ℕ :=
  2 * remaining + if s.ring.Gap x ∧ s.nofSystematicBits = s.bufferLength then 1 else 0

variable (s) in
def chunkStop (y : ℕ) : ℕ :=
  if s.nofInfoBits ≠ s.nofSystematicBits ∧ y ≤ s.nofInfoBits ∧ s.nofInfoBits < s.bufferLength then s.nofInfoBits
  else s.bufferLength

lemma chunkStop_spec {y : ℕ} (hy : ¬ s.ring.Gap y) (hlt : y < s.bufferLength) :
    y < s.chunkStop y ∧ s.chunkStop y ≤ s.bufferLength ∧ ∀ z, y ≤ z → z < s.chunkStop y → ¬ s.ring.Gap z := by
  have h2 := info_le (s := s)
  have h3 := systematic_le_buffer (s := s)
  have hgap (z : ℕ) : s.ring.Gap z ↔ s.nofInfoBits ≤ z ∧ z < s.nofSystematicBits := Iff.rfl
  rw [hgap] at hy
  unfold chunkStop
  split
  · refine ⟨by omega, by omega, fun z _ hz => ?_⟩
    rw [hgap]
    omega
  · refine ⟨hlt, le_rfl, fun z hyz hz => ?_⟩
    rw [hgap]
    omega

lemma selectLoop_succ (input : List Bool) (fuel x n : ℕ) {y : ℕ}
    (hy : (if s.nofInfoBits ≤ x ∧ x < s.nofSystematicBits then s.nofSystematicBits else x) = y)
    (hle : y ≤ s.bufferLength) :
    selectLoop s.selection input (fuel + 1) x (n + 1) =
      (selectLoop s.selection input fuel ((y + min (s.chunkStop y - y) (n + 1)) % s.bufferLength)
        (n + 1 - min (s.chunkStop y - y) (n + 1))).map
      fun rest => (input.drop y).take (min (s.chunkStop y - y) (n + 1)) ++ rest := by
  rw [selectLoop]
  show (do
    let inIndex := if s.nofInfoBits ≤ x ∧ x < s.nofSystematicBits then s.nofSystematicBits else x
    if inIndex > s.bufferLength then none
    let count := min (s.chunkStop inIndex - inIndex) (n + 1)
    let rest ← selectLoop s.selection input fuel ((inIndex + count) % s.bufferLength) (n + 1 - count)
    return (input.drop inIndex).take count ++ rest) = _
  rw [hy]
  simp only [gt_iff_lt, not_lt.mpr hle, if_false]
  generalize selectLoop s.selection input fuel _ _ = rest
  cases rest <;> rfl

lemma selectLoop_eq (hlen : s.bufferLength ≤ input.length) {fuel x remaining : ℕ}
    (hx : x < s.bufferLength) (hf : rounds s x remaining ≤ fuel) :
    selectLoop s.selection input fuel x remaining =
      some ((s.ring.positions x remaining).map fun y => input.getD y false) := by
  have h1 := info_pos (s := s)
  have h2 := info_le (s := s)
  have h3 := systematic_le_buffer (s := s)
  have hpos : 0 < s.bufferLength := by omega
  induction fuel generalizing x remaining with
  | zero =>
    obtain rfl : remaining = 0 := by
      unfold rounds at hf
      omega
    rfl
  | succ fuel ih =>
    obtain _ | n := remaining
    · rfl
    · by_cases hend : s.ring.Gap x ∧ s.nofSystematicBits = s.bufferLength
      · -- the fillers are the end of the buffer, and the round goes back to its start
        obtain ⟨hgap, hend⟩ := hend
        have hcount : min (s.chunkStop s.nofSystematicBits - s.nofSystematicBits) (n + 1) = 0 := by
          unfold chunkStop
          split <;> omega
        have hmod : (s.nofSystematicBits + 0) % s.bufferLength = s.ring.stop % s.ring.size := rfl
        have hzero : s.ring.stop % s.ring.size = 0 := by
          show s.nofSystematicBits % s.bufferLength = 0
          rw [hend, mod_self]
        rw [selectLoop_succ input fuel x n (if_pos hgap) h3, hcount, hmod, s.ring.positions_of_gap hgap, hzero, ih hpos]
        · rfl
        · have hnot : ¬ (s.ring.Gap 0 ∧ s.nofSystematicBits = s.bufferLength) := fun h => by
            have : s.nofInfoBits ≤ 0 := h.1.1
            omega
          unfold rounds at hf ⊢
          rw [if_pos ⟨hgap, hend⟩] at hf
          rw [if_neg hnot]
          omega
      · obtain ⟨y, hy, hylt, hygap, hpositions⟩ : ∃ y, (if s.nofInfoBits ≤ x ∧ x < s.nofSystematicBits then
            s.nofSystematicBits else x) = y ∧ y < s.bufferLength ∧ ¬ s.ring.Gap y ∧
            s.ring.positions x (n + 1) = s.ring.positions y (n + 1) := by
          by_cases hgap : s.ring.Gap x
          · have hlt : s.nofSystematicBits < s.bufferLength := lt_of_le_of_ne h3 fun h => hend ⟨hgap, h⟩
            have hmod : s.ring.stop % s.ring.size = s.nofSystematicBits := mod_eq_of_lt hlt
            refine ⟨_, if_pos hgap, hlt, ?_, ?_⟩
            · rw [← hmod]
              exact s.ring.not_gap_stop
            · rw [s.ring.positions_of_gap hgap, hmod]
          · exact ⟨x, if_neg hgap, hx, hgap, rfl⟩
        obtain ⟨hlt, hle, hfree⟩ := chunkStop_spec hygap hylt
        rw [selectLoop_succ input fuel x n hy hylt.le]
        generalize hc : min (s.chunkStop y - y) (n + 1) = c
        have hchunk := s.ring.positions_chunk hylt c (n + 1 - c) (show y + c ≤ s.bufferLength by omega)
          fun z hz1 hz2 => hfree z hz1 (by omega)
        rw [Nat.add_sub_cancel' (by omega)] at hchunk
        rw [hpositions, hchunk, ih (mod_lt _ hpos), map_append, take_drop_eq_map (by omega)]
        · rfl
        · unfold rounds at hf ⊢
          split <;> omega

lemma selectBits_eq (hlen : s.bufferLength ≤ input.length) (n : ℕ) :
    selectBits s.selection n input = some ((s.ring.positions s.shiftK0 n).map fun y => input.getD y false) := by
  apply selectLoop_eq hlen shiftK0_lt
  unfold rounds
  split <;> omega

end Setup

/-! ### The interleaver, bit by bit -/

section Interleaver

variable {inp : List Bool} {K : ℕ}

lemma testBit_toNat_succ (b : Bool) (k : ℕ) : b.toNat.testBit (k + 1) = false := by
  cases b
  · exact zero_testBit _
  · rw [testBit_succ]
    exact zero_testBit _

variable {n k : ℕ} {words : Bytes}

lemma symbolWord_lt (i : ℕ) (hn : n < 8) : symbolWord inp K i n < 2 ^ (n + 1) := by
  induction n with
  | zero => exact Bool.toNat_lt _
  | succ n ih =>
    have hlt := ih (by omega)
    have hor : symbolWord inp K i n <<< 1 ||| (entry inp K (n + 1) i).toNat < 2 ^ (n + 2) := by
      apply or_lt_two_pow
      · rw [shiftLeft_eq, Nat.pow_one, pow_succ 2 (n + 1)]
        exact mul_lt_mul_of_pos_right hlt (by decide)
      · calc (entry inp K (n + 1) i).toNat < 2 ^ 1 := Bool.toNat_lt _
          _ ≤ 2 ^ (n + 2) := Nat.pow_le_pow_right (by decide) (by omega)
    exact (mod_le _ _).trans_lt hor

lemma testBit_symbolWord (i : ℕ) {q : ℕ} (hn : n < 8) (hq : q ≤ n) :
    (symbolWord inp K i n).testBit (n - q) = entry inp K q i := by
  induction n with
  | zero =>
    obtain rfl : q = 0 := by omega
    show (entry inp K 0 i).toNat.testBit 0 = _
    cases entry inp K 0 i <;> rfl
  | succ n ih =>
    rw [symbolWord, testBit_mod_two_pow, decide_eq_true (by omega), Bool.true_and, testBit_or, testBit_shiftLeft]
    obtain rfl | hlt := Nat.eq_or_lt_of_le hq
    · rw [Nat.sub_self]
      cases entry inp K (n + 1) i <;> rfl
    · rw [show n + 1 - q = (n - q) + 1 by omega, testBit_toNat_succ, Bool.or_false, Nat.add_sub_cancel,
        ih (by omega) (by omega), decide_eq_true (by omega), Bool.true_and]

lemma insertSymbols_eq (inp : List Bool) (K : ℕ) {Qm : ℕ} (hpos : 0 < Qm) (hle : Qm ≤ 8) (n i outIndex : ℕ) (out : BitBuffer)
    (hfit : outIndex + Qm * n ≤ out.size) :
    ∃ out', insertSymbols Qm inp K n i outIndex out = some out' ∧ out'.size = out.size ∧ ∀ j, out'.bit j =
      if outIndex ≤ j ∧ j < outIndex + Qm * n then entry inp K ((j - outIndex) % Qm) (i + (j - outIndex) / Qm)
      else out.bit j := by
  induction n generalizing i outIndex out with
  | zero => exact ⟨out, rfl, rfl, fun j => (if_neg (by omega)).symm⟩
  | succ n ih =>
    have hmul : Qm * (n + 1) = Qm * n + Qm := mul_succ _ _
    have hword : symbolWord inp K i (Qm - 1) < 2 ^ (Qm - 1 + 1) := symbolWord_lt i (by omega)
    rw [Nat.sub_add_cancel hpos] at hword
    obtain ⟨b, hb, hsize, hbit⟩ := out.insert_eq hpos hle hword (show outIndex + Qm ≤ out.size by omega)
    obtain ⟨out', hout', hsize', hbit'⟩ := ih (i + 1) (outIndex + Qm) b (by omega)
    refine ⟨out', ?_, hsize'.trans hsize, fun j => ?_⟩
    · rw [insertSymbols, hb]
      exact hout'
    · rw [hbit', hbit]
      by_cases h1 : outIndex + Qm ≤ j ∧ j < outIndex + Qm + Qm * n
      · -- a bit of a later symbol
        rw [if_pos h1, if_pos (by omega)]
        have hsub : j - outIndex = (j - (outIndex + Qm)) + Qm := by omega
        rw [hsub, add_mod_right, add_div_right _ hpos]
        congr 1
        omega
      · rw [if_neg h1]
        by_cases h2 : outIndex ≤ j ∧ j < outIndex + Qm
        · rw [if_pos h2, if_pos (by omega), mod_eq_of_lt (by omega), div_eq_of_lt (by omega), Nat.add_zero,
            show outIndex + Qm - 1 - j = Qm - 1 - (j - outIndex) by omega, testBit_symbolWord i (by omega) (by omega)]
        · rw [if_neg h2, if_neg (by omega)]

/-- What an interleaver does with `Qm` rows. -/
def Interleaves (Qm : ℕ) (out : BitBuffer) (inp : List Bool) (result : Option BitBuffer) : Prop :=
  ∃ out', result = some out' ∧ out'.size = out.size ∧
    ∀ j < out.size, out'.bit j = inp.getD (out.size / Qm * (j % Qm) + j / Qm) false

lemma interleaveBitsQm_spec {Qm : ℕ} (hpos : 0 < Qm) (hle : Qm ≤ 8) (out : BitBuffer) (hdvd : Qm ∣ out.size) :
    Interleaves Qm out inp (interleaveBitsQm Qm out inp) := by
  have hmul := Nat.mul_div_cancel' hdvd
  obtain ⟨out', hout', hsize, hbit⟩ := insertSymbols_eq inp (out.size / Qm) hpos hle (out.size / Qm) 0 0 out
    (by omega)
  refine ⟨out', hout', hsize, fun j hj => ?_⟩
  rw [hbit, if_pos (by omega), Nat.sub_zero, Nat.zero_add]
  rfl

lemma testBit_orByte : ∀ b₀ b₁ b₂ b₃ b₄ b₅ b₆ b₇ : Bool, ∀ k : Fin 8,
    (orByte b₀ b₁ b₂ b₃ b₄ b₅ b₆ b₇).toNat.testBit (7 - k) = [b₀, b₁, b₂, b₃, b₄, b₅, b₆, b₇].get k := by
  decide +kernel

lemma testBit_orByte_fun (g : ℕ → Bool) (hk : k < 8) :
    (orByte (g 0) (g 1) (g 2) (g 3) (g 4) (g 5) (g 6) (g 7)).toNat.testBit (7 - k) = g k := by
  rw [testBit_orByte _ _ _ _ _ _ _ _ ⟨k, hk⟩]
  interval_cases k <;> rfl

lemma bitOf_writeBatch (i outPtr : ℕ) (hw : outPtr + 2 < words.length) (j : ℕ) :
    bitOf (writeBatch inp K i words outPtr) j =
      if 8 * outPtr ≤ j ∧ j < 8 * outPtr + 24 then entry inp K ((j - 8 * outPtr) % 6) (i + (j - 8 * outPtr) / 6)
      else bitOf words j := by
  have hk := mod_lt j (by decide : 8 > 0)
  -- the three bytes hold 24 consecutive bits
  let g (c r : ℕ) : Bool := entry inp K ((8 * c + r) % 6) (i + (8 * c + r) / 6)
  have hbyte (c : ℕ) : (orByte (g c 0) (g c 1) (g c 2) (g c 3) (g c 4) (g c 5) (g c 6) (g c 7)).toNat.testBit
      (7 - j % 8) = g c (j % 8) := testBit_orByte_fun (g c) hk
  show bitOf (((words.set outPtr
    (orByte (g 0 0) (g 0 1) (g 0 2) (g 0 3) (g 0 4) (g 0 5) (g 0 6) (g 0 7))).set (outPtr + 1)
    (orByte (g 1 0) (g 1 1) (g 1 2) (g 1 3) (g 1 4) (g 1 5) (g 1 6) (g 1 7))).set (outPtr + 2)
    (orByte (g 2 0) (g 2 1) (g 2 2) (g 2 3) (g 2 4) (g 2 5) (g 2 6) (g 2 7))) j = _
  rw [bitOf_set (by simp only [length_set]; omega), hbyte,
    BitBuffer.bitOf_set (by simp only [length_set]; omega), hbyte, BitBuffer.bitOf_set (by omega), hbyte]
  have hg (c : ℕ) (h : j / 8 = outPtr + c) : g c (j % 8) = entry inp K ((j - 8 * outPtr) % 6) (i + (j - 8 * outPtr) / 6) := by
    show entry inp K ((8 * c + j % 8) % 6) (i + (8 * c + j % 8) / 6) = _
    rw [show 8 * c + j % 8 = j - 8 * outPtr by omega]
  split
  next h => rw [hg 2 h, if_pos (by omega)]
  · split
    next h => rw [hg 1 h, if_pos (by omega)]
    · split
      next h => rw [hg 0 h, if_pos (by omega)]
      · rw [if_neg (by omega)]

lemma bitOf_writeBatches (hn : 3 * n ≤ words.length) (j : ℕ) : bitOf (writeBatches inp K words n) j =
      if j < 24 * n then entry inp K (j % 6) (j / 6) else bitOf words j := by
  induction n with
  | zero => rfl
  | succ n ih =>
    rw [writeBatches_succ, bitOf_writeBatch _ _ (by rw [length_writeBatches]; omega), ih (by omega)]
    by_cases h1 : 8 * (3 * n) ≤ j ∧ j < 8 * (3 * n) + 24
    · rw [if_pos h1, if_pos (by omega)]
      congr 1
      · omega
      · omega
    · rw [if_neg h1]
      by_cases h2 : j < 24 * n
      · rw [if_pos h2, if_pos (by omega)]
      · rw [if_neg h2, if_neg (by omega)]

lemma interleaveBitsQm6_spec (out : BitBuffer) (hdvd : 6 ∣ out.size) :
    Interleaves 6 out inp (interleaveBitsQm6 out inp) := by
  have hle := out.size_le
  unfold interleaveBitsQm6
  dsimp only
  generalize hpacked : out.withWords (writeBatches inp (out.size / 6) out.buffer (out.size / 6 / 4))
    (length_writeBatches ..) = packed
  have hsize : packed.size = out.size := by rw [← hpacked]; rfl
  obtain ⟨out', hout', hsize', hbit⟩ := insertSymbols_eq inp (out.size / 6) (show 0 < 6 by decide) (by decide)
    (out.size / 6 - out.size / 6 / 4 * 4) (out.size / 6 / 4 * 4) (out.size / 6 / 4 * 4 * 6) packed (by omega)
  refine ⟨out', hout', hsize'.trans hsize, fun j hj => ?_⟩
  rw [hbit]
  split
  next hin =>
    show inp.getD _ false = _
    congr 2
    · congr 1
      omega
    · omega
  · rw [← hpacked]
    show bitOf (writeBatches inp (out.size / 6) out.buffer (out.size / 6 / 4)) j = _
    rw [bitOf_writeBatches (by omega), if_pos (by omega)]
    rfl

lemma getD_setWords (f : ℕ → UInt8) (hn : n ≤ words.length) (hk : k < n) : (setWords words n f).getD k 0 = f k := by
  induction n with
  | zero => omega
  | succ n ih =>
    rw [BitBuffer.setWords_succ, getD_eq_getElem?_getD, getElem?_set]
    by_cases h : n = k
    · rw [if_pos h, if_pos (by rw [length_setWords]; omega), h]
      rfl
    · rw [if_neg h, ← getD_eq_getElem?_getD]
      exact ih (by omega) (by omega)

lemma getD_appendRows (hK : K ≤ words.length) (hn : n < 8) (hk : k < K) :
    (appendRows inp K words n).getD k 0 = byte (symbolWord inp K k n) := by
  induction n with
  | zero => exact getD_setWords _ hK hk
  | succ n ih =>
    have hlt : symbolWord inp K k n < 2 ^ (n + 1) := symbolWord_lt k (by omega)
    have h256 : symbolWord inp K k n < 2 ^ 8 := hlt.trans_le (Nat.pow_le_pow_right (by decide) (by omega))
    have hword : (byte (symbolWord inp K k n)).toNat = symbolWord inp K k n := by
      rw [toNat_byte, mod_eq_of_lt h256]
    rw [appendRows, getD_setWords _ (by rw [length_appendRows]; exact hK) hk, ih (by omega), hword, symbolWord]
    apply UInt8.toNat_inj.mp
    rw [toNat_byte, toNat_byte, mod_mod]

lemma interleaveBitsQm8_spec (out : BitBuffer) (hdvd : 8 ∣ out.size) :
    Interleaves 8 out inp (some (interleaveBitsQm8 out inp)) := by
  have hle := out.size_le
  refine ⟨_, rfl, rfl, fun j hj => ?_⟩
  show ((appendRows inp (out.size / 8) out.buffer 7).getD (j / 8) 0).toNat.testBit (7 - j % 8) = _
  rw [getD_appendRows (by omega) (by decide) (by omega), BitBuffer.testBit_byte (by omega),
    testBit_symbolWord _ (by decide) (by omega)]
  rfl

lemma bitPack_spec (out : BitBuffer) (h : out.size = inp.length) : Interleaves 1 out inp (out.bitPack inp) := by
  obtain ⟨out', hout', hsize, hbit⟩ := out.bitPack_eq h
  refine ⟨out', hout', hsize, fun j hj => ?_⟩
  rw [hbit j hj, mod_one, mul_zero, zero_add, Nat.div_one]

/-- **The interleaver**, for all modulation orders. -/
lemma interleaveBits_spec (mod : ModulationScheme) (out : BitBuffer) (h : out.size = inp.length)
    (hdvd : getBitsPerSymbol mod ∣ out.size) :
    Interleaves (getBitsPerSymbol mod) out inp (interleaveBits (getBitsPerSymbol mod) out inp) := by
  cases mod with
  | pi2Bpsk => exact bitPack_spec out h
  | bpsk => exact bitPack_spec out h
  | qpsk => exact interleaveBitsQm_spec (by decide) (by decide) out hdvd
  | qam16 => exact interleaveBitsQm_spec (by decide) (by decide) out hdvd
  | qam64 => exact interleaveBitsQm6_spec out hdvd
  | qam256 => exact interleaveBitsQm8_spec out hdvd

end Interleaver

/-! ### Rate matching -/

namespace Setup

variable {s : Setup}

lemma order_pos : 0 < s.modulationOrder := by
  unfold modulationOrder
  cases s.mod <;> decide

lemma order_mul_symbols : s.modulationOrder * s.nofSymbols = s.rmLength := Nat.mul_div_cancel' s.order_dvd

lemma selected_lt {j : ℕ} (hj : j < s.rmLength) : s.selected j < s.rmLength := by
  have hpos := order_pos (s := s)
  have hq := mod_lt j hpos
  rw [← order_mul_symbols] at hj ⊢
  have hi : j / s.modulationOrder < s.nofSymbols := Nat.div_lt_of_lt_mul hj
  calc s.selected j < s.nofSymbols * (j % s.modulationOrder) + s.nofSymbols := Nat.add_lt_add_left hi _
    _ = s.nofSymbols * (j % s.modulationOrder + 1) := (mul_succ _ _).symm
    _ ≤ s.nofSymbols * s.modulationOrder := Nat.mul_le_mul_left _ hq
    _ = s.modulationOrder * s.nofSymbols := mul_comm _ _

/-- **Rate matching.**  The output bit `j` is the bit of the codeblock at `source j`. -/
theorem rateMatch_eq (hle : s.rmLength ≤ maxCodeblockRmSize) (output : BitBuffer) (hout : output.size = s.rmLength)
    (input : List Bool) (hin : input.length = s.blockLength) :
    ∃ result, rateMatch output input s.metadata = some result ∧ result.size = s.rmLength ∧
      ∀ j < s.rmLength, result.bit j = input.getD (s.source j) false := by
  have hselect := selectBits_eq (hin ▸ buffer_le) output.size
  generalize haux : (s.ring.positions s.shiftK0 output.size).map (fun y => input.getD y false) = aux at hselect
  have hauxlen : output.size = aux.length := by
    rw [← haux, length_map, s.ring.length_positions]
  obtain ⟨result, hresult, hsize, hbit⟩ := interleaveBits_spec s.mod output hauxlen (hout ▸ s.order_dvd)
  refine ⟨result, ?_, hsize.trans hout, fun j hj => ?_⟩
  · rw [rateMatch, hin, hout, init_eq, if_pos hle]
    show (selectBits s.selection s.rmLength input).bind _ = _
    rw [← hout, hselect]
    exact hresult
  · rw [hbit j (hout ▸ hj), hout]
    have hlt := selected_lt hj
    rw [← haux, getD_eq_getElem _ _ (by rw [length_map, s.ring.length_positions, hout]; exact hlt)]
    simp only [GapRing.positions, getElem_map, getElem_range]
    rfl

end Setup

end Ldpc

end SrsRan.Phy
