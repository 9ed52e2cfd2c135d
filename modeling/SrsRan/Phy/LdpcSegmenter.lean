import SrsRan.Phy.LdpcRateMatcher
import SrsRan.Support.BitCopy

/-!
# Transport block segmentation

A transport block with its CRC is cut into codeblocks.  Three functions compute the sizes on their own: `newTransmission`
with `readCodeblock` at the transmitter, `segment` at the receiver, and `concatenateCodeblocks` of the PUSCH decoder.

Without a result, an assertion fails or an array is written beyond its end.  The CRC calculators are given functions.
-/

namespace SrsRan.Phy.Ldpc

open Support Support.BitBuffer

/-! ### Sizes -/

def divideCeil (num den : ℕ) : ℕ := (num + (den - 1)) % 2 ^ 32 / den

def maxTbs : ℕ := 1277992

def maxSegLength : ℕ := 22 * 384

def maxNofSegments : ℕ := 156 * 275 * 4 * 8 / maxSegLength

def segCrcLength : ℕ := 24

variable (tbs : ℕ)

def computeTbCrcSize : ℕ := if tbs ≤ 3824 then 16 else 24

def BaseGraph.maxSegmentLength : BaseGraph → ℕ
  | .bg1 => 8448
  | .bg2 => 3840

def computeNofCodeblocks (bg : BaseGraph) : ℕ :=
  let tbAndCrcBits := tbs + computeTbCrcSize tbs
  if tbAndCrcBits ≤ bg.maxSegmentLength then 1 else divideCeil tbAndCrcBits (bg.maxSegmentLength - 24)

variable (bg : BaseGraph)

def refLength (nofTbBitsIn : ℕ) : ℕ :=
  match bg with
  | .bg1 => 22
  | .bg2 => if nofTbBitsIn > 640 then 10 else if nofTbBitsIn > 560 then 9 else if nofTbBitsIn > 192 then 8 else 6

def computeLiftingSize (bg : BaseGraph) (nofSegments : ℕ) : Option ℕ :=
  let nofTbBitsIn := tbs + computeTbCrcSize tbs
  let totalRefLength := nofSegments * refLength bg nofTbBitsIn
  let nofTbBitsOut := nofTbBitsIn + if nofSegments > 1 then 24 * nofSegments else 0
  allLiftingSizes.find? fun ls => ls * totalRefLength ≥ nofTbBitsOut

def computeCodeblockSize (liftingSize : ℕ) : ℕ := (match bg with | .bg1 => 22 | .bg2 => 10) * liftingSize

def BaseGraph.inverseRate : BaseGraph → ℕ
  | .bg1 => 3
  | .bg2 => 5

def computeFullCodeblockSize (codeblockSize : ℕ) : ℕ := codeblockSize * bg.inverseRate

structure SegmenterConfig where
  baseGraph : BaseGraph
  rv : ℕ
  mod : ModulationScheme
  nref : ℕ
  nofLayers : ℕ
  nofChSymbols : ℕ
deriving DecidableEq

structure CodeblockDescription where
  baseGraph : BaseGraph
  liftingSize : ℕ
  rv : ℕ
  mod : ModulationScheme
  nref : ℕ
  cwLength : ℕ
  fullLength : ℕ
  nofFillerBits : ℕ
  rmLength : ℕ
  cwOffset : ℕ
  nofCrcBits : ℕ
deriving DecidableEq

/-- `segment_parameters`; the arrays are filled from their first element on. -/
structure SegmentParameters where
  segmentLength : ℕ
  nofTbBitsIn : ℕ
  nofTbBitsOut : ℕ
  nofSegments : ℕ
  nofSymbolsPerLayer : ℕ
  nofShortSegments : ℕ
  baseGraph : BaseGraph
  liftingSize : ℕ
  cwLength : ℕ
  nofFillerBits : ℕ
  nofCrcBits : ℕ
  cbInfoBits : ℕ
  cbInfoBitsLast : ℕ
  zeroPad : ℕ
  nofTbCrcBits : ℕ
  cwOffset : List ℕ
  tbOffset : List ℕ
  cbMetadata : List CodeblockDescription
deriving DecidableEq

variable (p : SegmentParameters)

def computeRmLength (mod : ModulationScheme) (nofLayers iSeg : ℕ) : ℕ :=
  (if iSeg < p.nofShortSegments then p.nofSymbolsPerLayer / p.nofSegments
    else divideCeil p.nofSymbolsPerLayer p.nofSegments) * nofLayers * getBitsPerSymbol mod % 2 ^ 32

def generateCbMetadata (cfg : SegmenterConfig) (iSeg : ℕ) : CodeblockDescription where
  baseGraph := p.baseGraph
  liftingSize := p.liftingSize
  rv := cfg.rv
  mod := cfg.mod
  nref := cfg.nref
  cwLength := p.cwLength
  fullLength := computeFullCodeblockSize p.baseGraph p.segmentLength
  nofFillerBits := p.nofFillerBits
  rmLength := computeRmLength p cfg.mod cfg.nofLayers iSeg
  cwOffset := p.cwOffset.getD iSeg 0
  nofCrcBits := if p.nofSegments = 1 then p.nofTbCrcBits else p.nofCrcBits

/-! ### The transmitter -/

/-- The three CRC generators. -/
structure CrcSet where
  crc16 : List Bool → ℕ
  crc24A : List Bool → ℕ
  crc24B : List Bool → ℕ
  crc16_lt : ∀ bits, crc16 bits < 2 ^ 16
  crc24A_lt : ∀ bits, crc24A bits < 2 ^ 24
  crc24B_lt : ∀ bits, crc24B bits < 2 ^ 24

def checkInputsTx (transportBlock : Bytes) (cfg : SegmenterConfig) : Bool :=
  !transportBlock.isEmpty && 8 * transportBlock.length + 24 ≤ maxTbs && cfg.rv ≤ 3 && cfg.nofLayers ≥ 1 &&
    cfg.nofLayers ≤ 4 && cfg.nofChSymbols % cfg.nofLayers = 0

def txParameters (tbBits : ℕ) (cfg : SegmenterConfig) : Option SegmentParameters := do
  let nofTbCrcBits := computeTbCrcSize tbBits
  let nofTbBitsIn := tbBits + nofTbCrcBits
  let nofSegments := computeNofCodeblocks tbBits cfg.baseGraph
  let nofTbBitsOut := nofTbBitsIn + if nofSegments > 1 then nofSegments * segCrcLength else 0
  let liftingSize ← computeLiftingSize tbBits cfg.baseGraph nofSegments
  let segmentLength := computeCodeblockSize cfg.baseGraph liftingSize
  let nofCrcBits := if nofSegments > 1 then segCrcLength else 0
  let cbInfoBits := divideCeil nofTbBitsOut nofSegments - nofCrcBits
  let zeroPad := (cbInfoBits + nofCrcBits) * nofSegments - nofTbBitsOut
  let nofSymbolsPerLayer := cfg.nofChSymbols / cfg.nofLayers
  some
    { segmentLength, nofTbBitsIn, nofTbBitsOut, nofSegments, nofSymbolsPerLayer
      nofShortSegments := nofSegments - nofSymbolsPerLayer % nofSegments
      baseGraph := cfg.baseGraph, liftingSize
      cwLength := cfg.nofChSymbols * getBitsPerSymbol cfg.mod % 2 ^ 32
      nofFillerBits := segmentLength - cbInfoBits - nofCrcBits
      nofCrcBits, cbInfoBits, cbInfoBitsLast := 0, zeroPad, nofTbCrcBits
      cwOffset := [], tbOffset := [], cbMetadata := [] }

def txSegments (cfg : SegmenterConfig) : ℕ → ℕ → ℕ → ℕ → SegmentParameters → Option (SegmentParameters × ℕ × ℕ)
  | 0, _, cwOffset, tbOffset, p => some (p, cwOffset, tbOffset)
  | n + 1, iSegment, cwOffset, tbOffset, p =>
    -- the arrays have `MAX_NOF_SEGMENTS` elements
    if iSegment ≥ maxNofSegments then none
    else
      let lastCb := iSegment = p.nofSegments - 1
      let p := { p with cwOffset := p.cwOffset ++ [cwOffset], tbOffset := p.tbOffset ++ [tbOffset] }
      let metadata := generateCbMetadata p cfg iSegment
      let p := { p with cbMetadata := p.cbMetadata ++ [metadata] }
      if lastCb then
        let nofUsedBits := p.cbInfoBits - (p.nofTbCrcBits + p.zeroPad)
        txSegments cfg n (iSegment + 1) ((cwOffset + metadata.rmLength) % 2 ^ 32)
          (tbOffset + p.nofTbCrcBits + nofUsedBits) { p with cbInfoBitsLast := nofUsedBits }
      else
        txSegments cfg n (iSegment + 1) ((cwOffset + metadata.rmLength) % 2 ^ 32) (tbOffset + p.cbInfoBits) p

def newTransmission (transportBlock : Bytes) (cfg : SegmenterConfig) : Option SegmentParameters :=
  if !checkInputsTx transportBlock cfg then none
  else do
    let p ← txParameters (8 * transportBlock.length) cfg
    let (p, cwOffset, tbOffset) ← txSegments cfg p.nofSegments 0 0 0 p
    if p.nofTbBitsIn ≠ tbOffset then none
    else if p.cwLength ≠ cwOffset then none
    else some p

def getCbInfoBits (cbIndex : ℕ) : ℕ :=
  if cbIndex = p.nofSegments - 1 then p.cbInfoBitsLast else p.cbInfoBits

def insertChecksum (width checksum : ℕ) : ℕ → ℕ → ℕ → BitBuffer → Option BitBuffer
  | 0, _, _, b => some b
  | n + 1, iByte, pos, b => do
    let b ← b.insert ((checksum >>> (width - (iByte + 1) * 8)) &&& 0xff) pos 8
    insertChecksum width checksum n (iByte + 1) (pos + 8) b

def insertZeros : ℕ → ℕ → ℕ → BitBuffer → Option BitBuffer
  | 0, pos, posEnd, b => if pos = posEnd then some b else none
  | fuel + 1, pos, posEnd, b =>
    if pos = posEnd then some b
    else do
      let nofZeros := min 8 (posEnd - pos)
      let b ← b.insert 0 pos nofZeros
      insertZeros fuel (pos + nofZeros) posEnd b

variable (crc : CrcSet)

/-- The transport block CRC and the zero padding behind `nofUsedBits` bits. -/
def appendTbCrc (p : SegmentParameters) (transportBlock : Bytes) (nofUsedBits : ℕ) (b : BitBuffer) :
    Option (BitBuffer × ℕ) := do
  let checksum := if 8 * transportBlock.length ≤ 3824 then crc.crc16 (bytesBits transportBlock)
    else crc.crc24A (bytesBits transportBlock)
  let b ← insertChecksum p.nofTbCrcBits checksum (p.nofTbCrcBits / 8) 0 nofUsedBits b
  let nofUsedBits := nofUsedBits + p.nofTbCrcBits / 8 * 8
  let b ← insertZeros p.zeroPad nofUsedBits (nofUsedBits + p.zeroPad) b
  some (b, nofUsedBits + p.zeroPad)

def readMessage (p : SegmentParameters) (codeblock : BitBuffer) (transportBlock : Bytes)
    (cbIndex : ℕ) : Option (BitBuffer × ℕ) :=
  let nofSegmentBits := getCbInfoBits p cbIndex
  let tbOffset := p.tbOffset.getD cbIndex 0
  if nofSegmentBits > codeblock.size then none
  -- the bits come from the transport block
  else if tbOffset + nofSegmentBits > 8 * transportBlock.length then none
  else
    let b := codeblock.copyFrom transportBlock tbOffset nofSegmentBits
    if tbOffset + nofSegmentBits = 8 * transportBlock.length then appendTbCrc crc p transportBlock nofSegmentBits b
    else some (b, nofSegmentBits)

def completeCodeblock (p : SegmentParameters) (b : BitBuffer) (nofUsedBits : ℕ) : Option BitBuffer :=
  if p.nofCrcBits ≠ 0 then do
    let b ← insertChecksum 24 (crc.crc24B (b.firstBits nofUsedBits)) 3 0 nofUsedBits b
    insertZeros p.segmentLength (nofUsedBits + 24) p.segmentLength b
  else insertZeros p.segmentLength nofUsedBits p.segmentLength b

def readCodeblock (p : SegmentParameters) (codeblock : BitBuffer) (transportBlock : Bytes)
    (cbIndex : ℕ) : Option BitBuffer :=
  if codeblock.size ≠ p.segmentLength then none
  else if cbIndex ≥ p.nofSegments then none
  else do
    let (b, nofUsedBits) ← readMessage crc p codeblock transportBlock cbIndex
    completeCodeblock crc p b nofUsedBits

/-! ### The receiver -/

def checkInputsRx (nofLlrs : ℕ) (cfg : SegmenterConfig) : Bool :=
  nofLlrs ≠ 0 && nofLlrs = cfg.nofChSymbols * getBitsPerSymbol cfg.mod % 2 ^ 32 && cfg.rv ≤ 3 && cfg.nofLayers ≥ 1 &&
    cfg.nofLayers ≤ 4 && cfg.nofChSymbols % cfg.nofLayers = 0

def rxParameters (nofLlrs tbs : ℕ) (cfg : SegmenterConfig) : Option (SegmentParameters × ℕ) := do
  let nofTbCrcBits := computeTbCrcSize tbs
  let nofTbBitsIn := tbs + nofTbCrcBits
  let nofSegments := computeNofCodeblocks tbs cfg.baseGraph
  let nofTbBitsOut := nofTbBitsIn + if nofSegments > 1 then nofSegments * segCrcLength else 0
  let liftingSize ← computeLiftingSize tbs cfg.baseGraph nofSegments
  let segmentLength := computeCodeblockSize cfg.baseGraph liftingSize
  let nofCrcBits := if nofSegments > 1 then segCrcLength else 0
  let maxInfoBits := divideCeil nofTbBitsOut nofSegments - nofCrcBits
  let nofSymbolsPerLayer := cfg.nofChSymbols / cfg.nofLayers
  some
    ({ segmentLength, nofTbBitsIn, nofTbBitsOut, nofSegments, nofSymbolsPerLayer
       nofShortSegments := nofSegments - nofSymbolsPerLayer % nofSegments
       baseGraph := cfg.baseGraph, liftingSize, cwLength := nofLlrs % 2 ^ 32
       nofFillerBits := 0, nofCrcBits, cbInfoBits := 0, cbInfoBitsLast := 0, zeroPad := 0, nofTbCrcBits
       cwOffset := [], tbOffset := [], cbMetadata := [] }, maxInfoBits)

def rxSegments {L : Type} (cfg : SegmenterConfig) (maxInfoBits : ℕ) (codewordLlrs : List L) :
    ℕ → ℕ → ℕ → SegmentParameters → Option (List (List L × CodeblockDescription) × ℕ)
  | 0, _, cwOffset, _ => some ([], cwOffset)
  | n + 1, iSegment, cwOffset, p =>
    -- the arrays and the vector of codeblocks have `MAX_NOF_SEGMENTS` elements
    if iSegment ≥ maxNofSegments then none
    else do
      let p := { p with cwOffset := p.cwOffset ++ [cwOffset],
                        nofFillerBits := p.segmentLength - (maxInfoBits + p.nofCrcBits) }
      let description := generateCbMetadata p cfg iSegment
      let rmLength := description.rmLength
      -- `subspan`
      if cwOffset + rmLength > codewordLlrs.length then none
      else
        let (rest, cwOffsetEnd) ← rxSegments cfg maxInfoBits codewordLlrs n (iSegment + 1)
          ((cwOffset + rmLength) % 2 ^ 32) p
        some (((codewordLlrs.drop cwOffset).take rmLength, description) :: rest, cwOffsetEnd)

def segment {L : Type} (codewordLlrs : List L) (tbs : ℕ) (cfg : SegmenterConfig) :
    Option (List (List L × CodeblockDescription)) :=
  if !checkInputsRx codewordLlrs.length cfg then none
  else do
    let (p, maxInfoBits) ← rxParameters codewordLlrs.length tbs cfg
    let (codeblocks, cwOffset) ← rxSegments cfg maxInfoBits codewordLlrs p.nofSegments 0 0 p
    if p.cwLength ≠ cwOffset then none else some codeblocks

def nofDataBits (d : CodeblockDescription) : ℕ := d.fullLength / d.baseGraph.inverseRate - d.nofCrcBits - d.nofFillerBits

def extractChecksum (b : BitBuffer) (pos : ℕ) : ℕ → ℕ → ℕ → Option ℕ
  | 0, _, checksum => some checksum
  | n + 1, iByte, checksum => do
    let value ← b.extract (pos + iByte * 8) 8
    extractChecksum b pos n (iByte + 1) ((checksum <<< 8 ||| value) % 2 ^ 32)

def concatenateFrom {L : Type} (messages : ℕ → BitBuffer) (nofCbs : ℕ) :
    List (List L × CodeblockDescription) → ℕ → ℕ → ℕ → BitBuffer → Option (BitBuffer × ℕ × ℕ)
  | [], _, tbOffset, tbChecksum, tbData => some (tbData, tbOffset, tbChecksum)
  | (cbLlrs, cbMeta) :: rest, cbId, tbOffset, tbChecksum, tbData =>
    if cbLlrs.length ≠ cbMeta.rmLength then none
    else do
      let freeTbBits := tbData.size - tbOffset
      let nofNewBits := min freeTbBits (nofDataBits cbMeta)
      let cbData ← (messages cbId).first (nofDataBits cbMeta)
      let tbData ← tbData.copyOffset tbOffset cbData 0 nofNewBits
      if cbId = nofCbs - 1 then
        let tbChecksum ← extractChecksum cbData nofNewBits 3 0 tbChecksum
        concatenateFrom messages nofCbs rest (cbId + 1) (tbOffset + nofNewBits) tbChecksum tbData
      else concatenateFrom messages nofCbs rest (cbId + 1) (tbOffset + nofNewBits) tbChecksum tbData

def concatenateCodeblocks {L : Type} (messages : ℕ → BitBuffer) (codeblocks : List (List L × CodeblockDescription))
    (transportBlock : Bytes) : Option (Bytes × ℕ) := do
  let (tbData, tbOffset, tbChecksum) ← concatenateFrom messages codeblocks.length codeblocks 0 0 0
    ⟨transportBlock, 8 * transportBlock.length, le_rfl⟩
  if tbOffset ≠ tbData.size then none else some (tbData.buffer, tbChecksum)

/-! ### The sizes of the segments -/

def segCrcBits (bg : BaseGraph) : ℕ := if computeNofCodeblocks tbs bg > 1 then segCrcLength else 0

def nofBitsOut (bg : BaseGraph) : ℕ :=
  tbs + computeTbCrcSize tbs + if computeNofCodeblocks tbs bg > 1 then computeNofCodeblocks tbs bg * segCrcLength else 0

/-- `cb_info_bits` of the transmitter and `max_info_bits` of the receiver -/
def infoBits (bg : BaseGraph) : ℕ := divideCeil (nofBitsOut tbs bg) (computeNofCodeblocks tbs bg) - segCrcBits tbs bg

def padBits (bg : BaseGraph) : ℕ :=
  (infoBits tbs bg + segCrcBits tbs bg) * computeNofCodeblocks tbs bg - nofBitsOut tbs bg

lemma divideCeil_bounds {num den : ℕ} (hden : 0 < den) (h : num + (den - 1) < 2 ^ 32) :
    num ≤ den * divideCeil num den ∧ den * divideCeil num den < num + den := by
  have hdm := Nat.div_add_mod (num + (den - 1)) den
  have hlt := Nat.mod_lt (num + (den - 1)) hden
  rw [divideCeil, Nat.mod_eq_of_lt h]
  omega

lemma computeTbCrcSize_cases : (tbs ≤ 3824 ∧ computeTbCrcSize tbs = 16) ∨ (3824 < tbs ∧ computeTbCrcSize tbs = 24) := by
  unfold computeTbCrcSize
  split <;> omega

lemma BaseGraph.maxSegmentLength_bounds : 3840 ≤ bg.maxSegmentLength ∧ bg.maxSegmentLength ≤ 8448 := by
  cases bg <;> decide

lemma nofCodeblocks_cases {tbs : ℕ} (htbs : tbs + 24 ≤ maxTbs) (bg : BaseGraph) :
    (computeNofCodeblocks tbs bg = 1 ∧ tbs + computeTbCrcSize tbs ≤ bg.maxSegmentLength) ∨
      (2 ≤ computeNofCodeblocks tbs bg ∧ computeNofCodeblocks tbs bg ≤ 335 ∧ computeTbCrcSize tbs = 24 ∧
        tbs + 24 ≤ computeNofCodeblocks tbs bg * (bg.maxSegmentLength - 24) ∧
        (computeNofCodeblocks tbs bg - 1) * (bg.maxSegmentLength - 24) < tbs + 24) := by
  have hmax := bg.maxSegmentLength_bounds
  have hcrc := computeTbCrcSize_cases tbs
  have htbs' : tbs + 24 ≤ 1277992 := htbs
  by_cases hone : tbs + computeTbCrcSize tbs ≤ bg.maxSegmentLength
  · left
    exact ⟨if_pos hone, hone⟩
  · right
    have h24 : computeTbCrcSize tbs = 24 := by omega
    have hC : computeNofCodeblocks tbs bg = divideCeil (tbs + 24) (bg.maxSegmentLength - 24) := by
      rw [computeNofCodeblocks, if_neg hone, h24]
    obtain ⟨hle, hlt⟩ := divideCeil_bounds (by omega)
      (show tbs + 24 + (bg.maxSegmentLength - 24 - 1) < 2 ^ 32 by omega)
    rw [← hC, mul_comm] at hle hlt
    have htwo : 2 ≤ computeNofCodeblocks tbs bg := by
      by_contra h
      have := Nat.mul_le_mul_right (bg.maxSegmentLength - 24) (show computeNofCodeblocks tbs bg ≤ 1 by omega)
      omega
    have hlast : (computeNofCodeblocks tbs bg - 1) * (bg.maxSegmentLength - 24) < tbs + 24 := by
      rw [Nat.sub_mul]
      omega
    have hmost : computeNofCodeblocks tbs bg ≤ 335 := by
      by_contra h
      have h335 := Nat.mul_le_mul (show 335 ≤ computeNofCodeblocks tbs bg - 1 by omega)
        (show 3816 ≤ bg.maxSegmentLength - 24 by omega)
      omega
    exact ⟨htwo, hmost, h24, hle, hlast⟩

lemma nofBitsOut_eq {tbs : ℕ} (htbs : tbs + 24 ≤ maxTbs) (bg : BaseGraph) :
    nofBitsOut tbs bg = tbs + computeTbCrcSize tbs + computeNofCodeblocks tbs bg * segCrcBits tbs bg := by
  unfold nofBitsOut segCrcBits
  rcases nofCodeblocks_cases htbs bg with ⟨hone, -⟩ | ⟨htwo, -⟩
  · rw [if_neg (by omega), if_neg (by omega), mul_zero]
  · rw [if_pos (by omega), if_pos (by omega)]

/-- How the sizes of a transport block and its codeblocks are related. -/
structure Sizes (tbs : ℕ) (bg : BaseGraph) : Prop where
  nofSegments_pos : 0 < computeNofCodeblocks tbs bg
  info_mul : computeNofCodeblocks tbs bg * infoBits tbs bg = tbs + computeTbCrcSize tbs + padBits tbs bg
  pad_lt : padBits tbs bg < computeNofCodeblocks tbs bg
  /-- the last part has bits of the transport block -/
  last_pos : (computeNofCodeblocks tbs bg - 1) * infoBits tbs bg < tbs
  tbCrc : 1 < computeNofCodeblocks tbs bg → computeTbCrcSize tbs = 24
  lifting : ∃ z, computeLiftingSize tbs bg (computeNofCodeblocks tbs bg) = some z ∧
    infoBits tbs bg + segCrcBits tbs bg ≤ computeCodeblockSize bg z

lemma refLength_mul_le {bg : BaseGraph} {n z : ℕ} : refLength bg n * z ≤ computeCodeblockSize bg z := by
  unfold computeCodeblockSize refLength
  refine Nat.mul_le_mul_right z ?_
  cases bg with
  | bg1 => exact le_rfl
  | bg2 => dsimp only; split_ifs <;> omega

lemma maxSegmentLength_le_refLength {n : ℕ} (hn : 640 < n) : bg.maxSegmentLength ≤ 384 * refLength bg n := by
  cases bg with
  | bg1 => exact le_rfl
  | bg2 => exact le_of_eq (by rw [refLength, if_pos hn]; rfl)

lemma le_refLength_of_short {n : ℕ} (hn : n ≤ 640) : n ≤ 384 * refLength bg n := by
  cases bg with
  | bg1 => exact hn.trans (show 640 ≤ 384 * 22 by decide)
  | bg2 => unfold refLength; dsimp only; split_ifs <;> omega

lemma exists_liftingSize {tbs : ℕ} (htbs : tbs + 24 ≤ maxTbs) (bg : BaseGraph) :
    ∃ z, computeLiftingSize tbs bg (computeNofCodeblocks tbs bg) = some z ∧
      nofBitsOut tbs bg ≤ computeNofCodeblocks tbs bg * computeCodeblockSize bg z := by
  have hout : nofBitsOut tbs bg = tbs + computeTbCrcSize tbs +
      if computeNofCodeblocks tbs bg > 1 then 24 * computeNofCodeblocks tbs bg else 0 := by
    rw [nofBitsOut, segCrcLength, Nat.mul_comm 24]
  have hlargest : 384 * (computeNofCodeblocks tbs bg * refLength bg (tbs + computeTbCrcSize tbs)) ≥
      nofBitsOut tbs bg := by
    have hmax := bg.maxSegmentLength_bounds
    have hlong : 640 < tbs + computeTbCrcSize tbs → _ := maxSegmentLength_le_refLength bg
    have hshort : tbs + computeTbCrcSize tbs ≤ 640 → _ := le_refLength_of_short bg
    generalize refLength bg (tbs + computeTbCrcSize tbs) = r at *
    rw [hout]
    rcases nofCodeblocks_cases htbs bg with ⟨hone, hle⟩ | ⟨htwo, -, h24, hle, hlt⟩
    · rw [hone, if_neg (by omega)]
      omega
    · have hmany := Nat.mul_le_mul (show 1 ≤ computeNofCodeblocks tbs bg - 1 by omega)
        (show 3816 ≤ bg.maxSegmentLength - 24 by omega)
      have hroom := Nat.mul_le_mul_left (computeNofCodeblocks tbs bg) (hlong (by omega))
      have hsplit : computeNofCodeblocks tbs bg * bg.maxSegmentLength =
          computeNofCodeblocks tbs bg * (bg.maxSegmentLength - 24) + 24 * computeNofCodeblocks tbs bg := by
        rw [Nat.mul_comm 24, ← Nat.mul_add, Nat.sub_add_cancel (by omega)]
      rw [if_pos (by omega), h24, Nat.mul_left_comm]
      omega
  obtain ⟨z, hz⟩ : ∃ z, computeLiftingSize tbs bg (computeNofCodeblocks tbs bg) = some z := by
    rw [← Option.isSome_iff_exists, computeLiftingSize, List.find?_isSome]
    exact ⟨384, by decide, by rw [← hout]; exact decide_eq_true hlargest⟩
  refine ⟨z, hz, ?_⟩
  have hfound := List.find?_some hz
  rw [← hout] at hfound
  calc nofBitsOut tbs bg ≤ z * (computeNofCodeblocks tbs bg * refLength bg (tbs + computeTbCrcSize tbs)) :=
        of_decide_eq_true hfound
    _ = computeNofCodeblocks tbs bg * (refLength bg (tbs + computeTbCrcSize tbs) * z) := by ring
    _ ≤ computeNofCodeblocks tbs bg * computeCodeblockSize bg z := Nat.mul_le_mul_left _ refLength_mul_le

/-- **Sizes.**  They are consistent for every transport block within the maximum. -/
theorem sizes {tbs : ℕ} (hpos : 0 < tbs) (htbs : tbs + 24 ≤ maxTbs) (bg : BaseGraph) : Sizes tbs bg := by
  have hcases := nofCodeblocks_cases htbs bg
  have hmax := bg.maxSegmentLength_bounds
  have hcrc := computeTbCrcSize_cases tbs
  have htbs' : tbs + 24 ≤ 1277992 := htbs
  have hout := nofBitsOut_eq htbs bg
  have hC : 0 < computeNofCodeblocks tbs bg := by omega
  have hseg : segCrcBits tbs bg ≤ 24 := by
    unfold segCrcBits segCrcLength
    split <;> omega
  have hsmall : nofBitsOut tbs bg + (computeNofCodeblocks tbs bg - 1) < 2 ^ 32 := by
    have := Nat.mul_le_mul (show computeNofCodeblocks tbs bg ≤ 335 by omega) hseg
    omega
  obtain ⟨hle, hlt⟩ := divideCeil_bounds hC hsmall
  have hge : segCrcBits tbs bg ≤ divideCeil (nofBitsOut tbs bg) (computeNofCodeblocks tbs bg) := by
    refine Nat.le_of_mul_le_mul_left ?_ hC
    omega
  have hinfo : infoBits tbs bg + segCrcBits tbs bg = divideCeil (nofBitsOut tbs bg) (computeNofCodeblocks tbs bg) :=
    Nat.sub_add_cancel hge
  have hpad : padBits tbs bg = (infoBits tbs bg + segCrcBits tbs bg) * computeNofCodeblocks tbs bg - nofBitsOut tbs bg :=
    rfl
  rw [← hinfo, Nat.mul_add] at hle hlt
  rw [Nat.mul_comm, Nat.mul_add] at hpad
  have hmul : computeNofCodeblocks tbs bg * infoBits tbs bg = tbs + computeTbCrcSize tbs + padBits tbs bg := by omega
  refine ⟨hC, hmul, by omega, ?_, fun h => ?_, ?_⟩
  · rcases hcases with ⟨hone, -⟩ | ⟨htwo, hmost, h24, -, hlast⟩
    · rw [hone, Nat.sub_self, Nat.zero_mul]
      exact hpos
    · have hlong : computeNofCodeblocks tbs bg * 1908 ≤ computeNofCodeblocks tbs bg * infoBits tbs bg :=
        calc computeNofCodeblocks tbs bg * 1908 ≤ (computeNofCodeblocks tbs bg - 1) * 3816 := by omega
          _ ≤ (computeNofCodeblocks tbs bg - 1) * (bg.maxSegmentLength - 24) := Nat.mul_le_mul_left _ (by omega)
          _ ≤ tbs + computeTbCrcSize tbs + padBits tbs bg := by omega
          _ = computeNofCodeblocks tbs bg * infoBits tbs bg := hmul.symm
      have hinfo := Nat.le_of_mul_le_mul_left hlong hC
      rw [Nat.sub_mul, Nat.one_mul]
      omega
  · omega
  · obtain ⟨z, hz, hfit⟩ := exists_liftingSize htbs bg
    refine ⟨z, hz, ?_⟩
    have hround : computeNofCodeblocks tbs bg * (infoBits tbs bg + segCrcBits tbs bg) <
        computeNofCodeblocks tbs bg * (computeCodeblockSize bg z + 1) := by
      rw [Nat.mul_add, Nat.mul_add, Nat.mul_one]
      omega
    exact Nat.lt_succ_iff.mp (Nat.lt_of_mul_lt_mul_left hround)

end SrsRan.Phy.Ldpc
