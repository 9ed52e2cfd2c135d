import SrsRan.Support.Bytes
import SrsRan.Support.SlotPoint

/-!
# Open Fronthaul User-Plane messages

A message is a radio application header of four bytes and sections; a section is a header of four bytes, an optional
compression header and the compressed IQ data of its PRBs.

The number of PRBs travels in one byte, and zero stands for all PRBs of the radio unit; the radio frame travels in one byte
too.
-/

namespace SrsRan.Ofh

open Support Nat

def nofSubcarriersPerRb : ℕ := 12

def maxNofPrbs : ℕ := 275

def ofhPayloadVersion : ℕ := 1

inductive DataDirection where
  | uplink
  | downlink
deriving DecidableEq

def DataDirection.toValue : DataDirection → ℕ
  | .uplink => 0
  | .downlink => 1

inductive FilterIndex where
  | standardChannelFilter
  | ulPrachPreamble1p25khz
  | ulPrachPreamble5kHz
  | ulPrachPreambleShort
  | ulNprachPreamble
  | ulPrachPreamble7p5kHz
  | ulPrachPreambleShort15kHz
  | ulPrachPreambleShort30kHz
  | reserved
deriving DecidableEq

def toFilterIndexType : ℕ → FilterIndex
  | 0 => .standardChannelFilter
  | 1 => .ulPrachPreamble1p25khz
  | 2 => .ulPrachPreamble5kHz
  | 3 => .ulPrachPreambleShort
  | 4 => .ulNprachPreamble
  | 5 => .ulPrachPreamble7p5kHz
  | 6 => .ulPrachPreambleShort15kHz
  | 7 => .ulPrachPreambleShort30kHz
  | _ => .reserved

def FilterIndex.isAPrachMessage : FilterIndex → Bool
  | .standardChannelFilter | .reserved => false
  | _ => true

inductive CompressionType where
  | none
  | bfp
  | blockScaling
  | muLaw
  | modulation
  | bfpSelective
  | modSelective
  | reserved
deriving DecidableEq

def CompressionType.toValue : CompressionType → ℕ
  | .none => 0
  | .bfp => 1
  | .blockScaling => 2
  | .muLaw => 3
  | .modulation => 4
  | .bfpSelective => 5
  | .modSelective => 6
  | .reserved => 7

def toCompressionType : ℕ → CompressionType
  | 0 => .none
  | 1 => .bfp
  | 2 => .blockScaling
  | 3 => .muLaw
  | 4 => .modulation
  | 5 => .bfpSelective
  | 6 => .modSelective
  | _ => .reserved

def CompressionType.isParamPresent : CompressionType → Bool
  | .bfp | .muLaw | .bfpSelective | .modSelective => true
  | .none | .blockScaling | .modulation | .reserved => false

/-- `udCompLen` is present for the selective types only. -/
def CompressionType.isSelective : CompressionType → Bool
  | .bfpSelective | .modSelective => true
  | _ => false

structure CompressionParams where
  type : CompressionType
  dataWidth : ℕ
deriving DecidableEq

def roundUpToBytes (bits : ℕ) : ℕ := (bits + 7) / 8

def getCompressedPrbSize (params : CompressionParams) : ℕ :=
  roundUpToBytes (nofSubcarriersPerRb * 2 * params.dataWidth + if params.type.isParamPresent then 8 else 0)

/-! ### The radio application header -/

/-- `encode_data_direction`: the filter index is zero. -/
def encodeDataDirection : UInt8 := byte (DataDirection.downlink.toValue <<< 7 ||| ofhPayloadVersion <<< 4)

def encodeSubframeAndSlot (numerology slot : ℕ) : UInt8 :=
  byte (subframeIndex numerology slot <<< 4 ||| subframeSlotIndex numerology slot >>> 2)

def encodeSlotLsbAndSymbol (numerology slot symbolId : ℕ) : UInt8 :=
  byte ((subframeSlotIndex numerology slot &&& 0x3) <<< 6 ||| symbolId)

def buildRadioAppHeader (numerology slot symbolId : ℕ) : Bytes :=
  [encodeDataDirection, byte (sfn numerology slot), encodeSubframeAndSlot numerology slot,
    encodeSlotLsbAndSymbol numerology slot symbolId]

/-- The slot named by a header, as `decode_header` and `peek_slot_symbol_point` check it. -/
def readSlot (numerology : ℕ) (frame subframeAndSlot slotAndSymbol : UInt8) : Option ℕ :=
  let subframe := subframeAndSlot.toNat >>> 4
  let slotId := (subframeAndSlot.toNat &&& 0x0f) <<< 2 ||| slotAndSymbol.toNat >>> 6
  if subframe ≥ 10 then none
  else if slotId ≥ nofSlotsPerSubframe numerology then none
  else some (slotOf numerology frame.toNat subframe slotId)

def peekSlotSymbolPoint (numerology nofSymbols : ℕ) : Bytes → Option (ℕ × ℕ)
  | _ :: frame :: subframeAndSlot :: slotAndSymbol :: _ => do
    let slot ← readSlot numerology frame subframeAndSlot slotAndSymbol
    let symbolId := slotAndSymbol.toNat &&& 0x3f
    if symbolId ≥ nofSymbols then none else some (slot, symbolId)
  | _ => none

def peekFilterIndex : Bytes → Option FilterIndex
  | value :: _ => some (toFilterIndexType (value.toNat &&& 0xf))
  | [] => none

/-- The fields of `uplane_message_params` that the header gives. -/
structure HeaderParams where
  filterIndex : FilterIndex
  slot : ℕ
  symbolId : ℕ
deriving DecidableEq

def decodeHeader (numerology nofSymbols : ℕ) : Bytes → Option (HeaderParams × Bytes)
  | value :: frame :: subframeAndSlot :: slotAndSymbol :: rest => do
    let slot ← readSlot numerology frame subframeAndSlot slotAndSymbol
    let params : HeaderParams :=
      { filterIndex := toFilterIndexType (value.toNat &&& 0xf), slot, symbolId := slotAndSymbol.toNat &&& 0x3f }
    if value.toNat >>> 7 ≠ DataDirection.uplink.toValue then none
    else if (value.toNat >>> 4) &&& 7 ≠ ofhPayloadVersion then none
    else if params.filterIndex = .reserved then none
    else if params.symbolId ≥ nofSymbols then none
    else some (params, rest)
  | _ => none

/-! ### Sections -/

def encodeSectIdRbSymbols (startPrb : ℕ) : UInt8 := byte ((startPrb >>> 8) &&& 0x3)

def buildSection1Header (startPrb nofPrb : ℕ) : Bytes :=
  [byte 0, encodeSectIdRbSymbols startPrb, byte startPrb, byte (if nofPrb > 255 then 0 else nofPrb)]

/-- The fields of `uplane_section_params` that the section header gives. -/
structure SectionHeader where
  sectionId : ℕ
  isEveryRbUsed : Bool
  useCurrentSymbolNumber : Bool
  startPrb : ℕ
  nofPrbs : ℕ
deriving DecidableEq

/-- `decode_section_header`; `none` is an incomplete section. -/
def decodeSectionHeader (ruNofPrbs : ℕ) : Bytes → Option (SectionHeader × Bytes)
  | id :: sectionAndRest :: start :: nof :: rest =>
    let v := sectionAndRest.toNat
    let startPrb := (v &&& 0x03) <<< 8 ||| start.toNat
    some
      ({ sectionId := id.toNat <<< 4 ||| v >>> 4
         isEveryRbUsed := (v >>> 3) &&& 1 = 0
         useCurrentSymbolNumber := (v >>> 2) &&& 1 = 0
         -- all PRBs: the start is ignored
         startPrb := if nof.toNat = 0 then 0 else startPrb
         nofPrbs := if nof.toNat = 0 then ruNofPrbs else nof.toNat }, rest)
  | _ => none

/-! ### The decoder -/

/-- `decoded_section_status`, but for `ok` -/
inductive SectionError where
  | incomplete
  | malformed
deriving DecidableEq

/-- A decoder of uplink messages; `decompress` gives the samples of `nofPrbs` PRBs. -/
structure UplaneDecoder (Sample : Type) where
  numerology : ℕ
  nofSymbols : ℕ
  ruNofPrbs : ℕ
  /-- the parameters of a static compression -/
  staticParams : Option CompressionParams
  decompress : CompressionParams → (nofPrbs : ℕ) → Bytes → List Sample
  length_decompress : ∀ params nofPrbs data, (decompress params nofPrbs data).length = nofPrbs * nofSubcarriersPerRb

structure UplaneSection (Sample : Type) where
  header : SectionHeader
  udCompHdr : CompressionParams
  iqSamples : List Sample
  length_iqSamples : iqSamples.length = header.nofPrbs * nofSubcarriersPerRb

structure DecoderResults (Sample : Type) where
  params : HeaderParams
  sections : List (UplaneSection Sample)

def maxNofSections : ℕ := 2

def decodeDynamicCompressionHeader : Bytes → Except SectionError (CompressionParams × Bytes)
  | value :: _ :: rest =>
    let type := toCompressionType (value.toNat &&& 0x0f)
    let dataWidth := value.toNat >>> 4
    if type = .reserved then .error .malformed
    else .ok ({ type, dataWidth := if dataWidth = 0 then 16 else dataWidth }, rest)
  | _ => .error .incomplete

/-- `decode_compression_length`: what follows `udCompLen`. -/
def decodeCompressionLength (params : CompressionParams) (message : Bytes) : Except SectionError Bytes :=
  match params.type with
  | .none | .bfp | .blockScaling | .muLaw | .modulation => .ok message
  | _ => if message.length < 2 then .error .incomplete else .ok (message.drop 2)

namespace UplaneDecoder

variable {Sample : Type} (decoder : UplaneDecoder Sample)

def decodeCompressionHeader (message : Bytes) : Except SectionError (CompressionParams × Bytes) :=
  match decoder.staticParams with
  | some params => .ok (params, message)
  | none => decodeDynamicCompressionHeader message

def decodeSection (message : Bytes) : Except SectionError (UplaneSection Sample × Bytes) :=
  match decodeSectionHeader decoder.ruNofPrbs message with
  | none => .error .incomplete
  | some (header, message) => do
    let (params, message) ← decoder.decodeCompressionHeader message
    let message ← decodeCompressionLength params message
    let size := getCompressedPrbSize params * header.nofPrbs
    -- `check_iq_data_size`
    if message.length < size then .error .incomplete
    else
      .ok ({ header, udCompHdr := params, iqSamples := decoder.decompress params header.nofPrbs (message.take size),
             length_iqSamples := decoder.length_decompress .. }, message.drop size)

/-- `decode_all_sections`; a message that fills the `room` of the results is dropped. -/
def decodeAllSections : ℕ → Bytes → Option (List (UplaneSection Sample))
  | 0, _ => none
  | room + 1, message =>
    if message = [] then some []
    else
      match decoder.decodeSection message with
      | .error .incomplete => some []
      | .error .malformed => none
      | .ok (x, rest) => (decodeAllSections room rest).map (x :: ·)

def decode (message : Bytes) : Option (DecoderResults Sample) := do
  let (params, rest) ← decodeHeader decoder.numerology decoder.nofSymbols message
  let sections ← decoder.decodeAllSections maxNofSections rest
  if sections.isEmpty then none else some { params, sections }

end UplaneDecoder

/-! ### Reading back what was built -/

lemma and_three (x : ℕ) : x &&& 0x3 = x % 4 := and_two_pow_sub_one_eq_mod x 2

lemma and_fifteen (x : ℕ) : x &&& 0xf = x % 16 := and_two_pow_sub_one_eq_mod x 4

lemma and_sixtyThree (x : ℕ) : x &&& 0x3f = x % 64 := and_two_pow_sub_one_eq_mod x 6

lemma shiftLeft_or {a b i : ℕ} (hb : b < 2 ^ i) : a <<< i ||| b = a * 2 ^ i + b := by
  rw [← shiftLeft_add_eq_or_of_lt hb, shiftLeft_eq]

lemma toNat_encodeSubframeAndSlot {μ : ℕ} (hnum : μ ≤ 4) (slot : ℕ) :
    (encodeSubframeAndSlot μ slot).toNat =
      subframeIndex μ slot * 16 + subframeSlotIndex μ slot / 4 := by
  have hsub := subframeIndex_lt μ slot
  have hslot := subframeSlotIndex_lt μ slot
  have hpow : nofSlotsPerSubframe μ ≤ 16 := Nat.pow_le_pow_right (by decide) hnum
  rw [encodeSubframeAndSlot, toNat_byte, shiftRight_eq_div_pow,
    shiftLeft_or (show subframeSlotIndex μ slot / 2 ^ 2 < 2 ^ 4 by omega), mod_eq_of_lt (by omega)]
  rfl

lemma toNat_encodeSlotLsbAndSymbol (μ slot : ℕ) {symbolId : ℕ} (hsym : symbolId < 64) :
    (encodeSlotLsbAndSymbol μ slot symbolId).toNat =
      subframeSlotIndex μ slot % 4 * 64 + symbolId := by
  rw [encodeSlotLsbAndSymbol, toNat_byte, and_three, shiftLeft_or (show symbolId < 2 ^ 6 from hsym),
    mod_eq_of_lt (by omega)]
  rfl

lemma readSlot_build {μ : ℕ} (hnum : μ ≤ 4) (slot : ℕ) {symbolId : ℕ} (hsym : symbolId < 64) :
    readSlot μ (byte (sfn μ slot)) (encodeSubframeAndSlot μ slot)
      (encodeSlotLsbAndSymbol μ slot symbolId) = some (slot % (nofSlotsPerFrame μ * 256)) := by
  have hsub := subframeIndex_lt μ slot
  have hslot := subframeSlotIndex_lt μ slot
  have hpow : nofSlotsPerSubframe μ ≤ 16 := Nat.pow_le_pow_right (by decide) hnum
  have hsubframe : (encodeSubframeAndSlot μ slot).toNat >>> 4 = subframeIndex μ slot := by
    rw [toNat_encodeSubframeAndSlot hnum, shiftRight_eq_div_pow]
    omega
  have hid : ((encodeSubframeAndSlot μ slot).toNat &&& 0x0f) <<< 2 |||
      (encodeSlotLsbAndSymbol μ slot symbolId).toNat >>> 6 = subframeSlotIndex μ slot := by
    rw [toNat_encodeSubframeAndSlot hnum, toNat_encodeSlotLsbAndSymbol _ _ hsym, and_fifteen,
      shiftRight_eq_div_pow, shiftLeft_or (by omega)]
    omega
  rw [readSlot, hsubframe, hid, if_neg (by omega), if_neg (by omega), toNat_byte]
  exact congrArg some (slotOf_fields ..)

lemma peekSlotSymbolPoint_build {μ nofSymbols symbolId : ℕ} (hnum : μ ≤ 4) (slot : ℕ)
    (hsym : symbolId < nofSymbols) (hnof : nofSymbols ≤ 64) (rest : Bytes) :
    peekSlotSymbolPoint μ nofSymbols (buildRadioAppHeader μ slot symbolId ++ rest) =
      some (slot % (nofSlotsPerFrame μ * 256), symbolId) := by
  have hid : (encodeSlotLsbAndSymbol μ slot symbolId).toNat &&& 0x3f = symbolId := by
    rw [toNat_encodeSlotLsbAndSymbol _ _ (by omega), and_sixtyThree]
    omega
  simp only [buildRadioAppHeader, List.cons_append, List.nil_append, peekSlotSymbolPoint]
  rw [readSlot_build hnum slot (by omega), hid]
  exact if_neg (by omega)

lemma decodeSectionHeader_build {startPrb nofPrb : ℕ} (ruNofPrbs : ℕ) (hstart : startPrb < 1024) (hpos : 0 < nofPrb)
    (rest : Bytes) :
    decodeSectionHeader ruNofPrbs (buildSection1Header startPrb nofPrb ++ rest) = some
        ({ sectionId := 0
           isEveryRbUsed := true
           useCurrentSymbolNumber := true
           startPrb := if nofPrb > 255 then 0 else startPrb
           nofPrbs := if nofPrb > 255 then ruNofPrbs else nofPrb }, rest) := by
  have hv : (encodeSectIdRbSymbols startPrb).toNat = startPrb / 256 := by
    rw [encodeSectIdRbSymbols, toNat_byte, and_three, shiftRight_eq_div_pow]
    omega
  have hstart' : ((encodeSectIdRbSymbols startPrb).toNat &&& 0x03) <<< 8 ||| (byte startPrb).toNat = startPrb := by
    rw [hv, and_three, toNat_byte, shiftLeft_or (mod_lt _ (by decide))]
    omega
  have hlow : ∀ k ≥ 2, (encodeSectIdRbSymbols startPrb).toNat >>> k = 0 := by
    intro k hk
    rw [hv, shiftRight_eq_div_pow]
    refine div_eq_of_lt (Nat.lt_of_lt_of_le (show startPrb / 256 < 2 ^ 2 by omega) ?_)
    exact Nat.pow_le_pow_right (by decide) hk
  have hnof : (byte (if nofPrb > 255 then 0 else nofPrb)).toNat = if nofPrb > 255 then 0 else nofPrb := by
    rw [toNat_byte]
    split <;> omega
  simp only [buildSection1Header, List.cons_append, List.nil_append, decodeSectionHeader, hstart', hlow 4 (by decide),
    hlow 3 (by decide), hlow 2 (by decide), hnof]
  split
  · rfl
  next hle =>
    simp only [if_neg (show ¬ nofPrb = 0 by omega)]
    rfl

end SrsRan.Ofh
