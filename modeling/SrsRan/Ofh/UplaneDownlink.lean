import SrsRan.Lib.Chunks
import SrsRan.Lib.Run
import SrsRan.Ofh.UplaneMessage

/-!
# Downlink User-Plane data flow

`handleDlData` sends a resource grid to the radio unit: for every port and symbol the PRBs are cut into fragments that fit
into an Ethernet frame, and each fragment becomes one User-Plane message of one section.

The messages describe every PRB once exactly when `Covered` holds.
-/

namespace SrsRan.Ofh

open Support Lib List Nat
open Lib.Run (ok_bind)

/-! ### Sizes -/

def minEthFrameLength : ℕ := 64

def maxEthFrameLength : ℕ := 9600

def maxNofSupportedEaxc : ℕ := 4

def getPrbDataSize (params : CompressionParams) : ℕ :=
  match params.type with
  | .none | .modulation => roundUpToBytes (params.dataWidth * nofSubcarriersPerRb * 2)
  | _ => roundUpToBytes (params.dataWidth * nofSubcarriersPerRb * 2) + 1

lemma getCompressedPrbSize_le (params : CompressionParams) : getCompressedPrbSize params ≤ getPrbDataSize params := by
  obtain ⟨type, width⟩ := params
  cases type <;>
    simp only [getCompressedPrbSize, getPrbDataSize, roundUpToBytes, nofSubcarriersPerRb,
      CompressionType.isParamPresent, if_true, Bool.false_eq_true, if_false] <;>
    omega

/-- The configuration of the data flow with the size of its Ethernet frames. -/
structure UplaneConfig where
  numerology : ℕ
  nofSymbols : ℕ
  ruNofPrbs : ℕ
  comprParams : CompressionParams
  isStaticComprHdrEnabled : Bool
  isVlanEnabled : Bool
  /-- the MTU, which is the size of the buffers of the frame pool -/
  frameSize : ℕ

namespace UplaneConfig

variable (cfg : UplaneConfig)

def ethHeaderSize : ℕ := if cfg.isVlanEnabled then 18 else 14

def ecpriHeaderSize : ℕ := 8

def comprHeaderSize : ℕ := if cfg.isStaticComprHdrEnabled then 0 else 2

def uplaneHeaderSize : ℕ := 8 + cfg.comprHeaderSize + if cfg.comprParams.type.isSelective then 2 else 0

def headersSize : ℕ := cfg.ethHeaderSize + ecpriHeaderSize + cfg.uplaneHeaderSize

def nofPrbsFitInFrame : ℕ := (cfg.frameSize - cfg.headersSize) / getPrbDataSize cfg.comprParams

/-- `calculate_nof_segments`; the single precision quotient is rounded up as the exact one. -/
def nofSegments : ℕ := (cfg.ruNofPrbs + cfg.nofPrbsFitInFrame - 1) / cfg.nofPrbsFitInFrame

/-- The size of a frame with `nofPrbs` PRBs: `ud_comp_length_support` is off. -/
def usedSize (nofPrbs : ℕ) : ℕ :=
  cfg.ethHeaderSize + ecpriHeaderSize + (8 + cfg.comprHeaderSize + getCompressedPrbSize cfg.comprParams * nofPrbs)

end UplaneConfig

structure DownlinkFlow extends UplaneConfig where
  numerology_le : numerology ≤ 4
  nofSymbols_le : nofSymbols ≤ 14
  ruNofPrbs_pos : 0 < ruNofPrbs
  ruNofPrbs_le : ruNofPrbs ≤ maxNofPrbs
  dataWidth_pos : 0 < comprParams.dataWidth
  dataWidth_le : comprParams.dataWidth ≤ 16
  room : toUplaneConfig.headersSize + getPrbDataSize comprParams ≤ frameSize

/-- A non-empty symbol range inside the slot. -/
structure SymbolRange (nofSymbols : ℕ) where
  start : ℕ
  stop : ℕ
  start_lt : start < stop
  stop_le : stop ≤ nofSymbols

def SymbolRange.length {nofSymbols : ℕ} (range : SymbolRange nofSymbols) : ℕ := range.stop - range.start

/-- A compressor that writes as many bytes as the calculator assumes. -/
structure IqCompressor (Sample : Type) where
  compress : CompressionParams → List Sample → Bytes
  length_compress : ∀ params iq,
    (compress params iq).length = getCompressedPrbSize params * (iq.length / nofSubcarriersPerRb)

/-- The downlink resource grid of a cell, with a port for each eAxC at most. -/
structure DownlinkGrid (Sample : Type) where
  nofPorts : ℕ
  nofSubc : ℕ
  view : ℕ → ℕ → List Sample
  nofPorts_pos : 0 < nofPorts
  nofPorts_le : nofPorts ≤ maxNofSupportedEaxc
  length_view : ∀ port symbol, (view port symbol).length = nofSubc

/-! ### Fragments and frames -/

structure FragmentSizeCalculator where
  startPrb : ℕ
  nofPrbs : ℕ
  prbSize : ℕ
  nextFragmentStartPrbIndex : ℕ

/-- Whether the fragment is the last one, its first PRB and its number of PRBs. -/
def FragmentSizeCalculator.calculateFragmentSize (c : FragmentSizeCalculator) (frameSize : ℕ) :
    Bool × (ℕ × ℕ) × FragmentSizeCalculator :=
  if frameSize < c.prbSize then (false, (c.nextFragmentStartPrbIndex, 0), c)
  else
    let nofPrbsFitInFrame := frameSize / c.prbSize
    let remainingPrbs := c.nofPrbs - (c.nextFragmentStartPrbIndex - c.startPrb)
    if nofPrbsFitInFrame ≥ remainingPrbs then
      (true, (c.nextFragmentStartPrbIndex, remainingPrbs),
        { c with nextFragmentStartPrbIndex := c.nextFragmentStartPrbIndex + remainingPrbs })
    else
      (false, (c.nextFragmentStartPrbIndex, nofPrbsFitInFrame),
        { c with nextFragmentStartPrbIndex := c.nextFragmentStartPrbIndex + nofPrbsFitInFrame })

inductive DownlinkFault where
  /-- `slot_symbol_point`: invalid symbol index -/
  | invalidSymbolIndex
  /-- the samples of the grid do not fit into the span of the radio unit -/
  | gridWiderThanRu
  /-- `frame_buffer::set_size`: new size is out of bounds -/
  | invalidSize
  /-- `frame_buffer::set_size` pads beyond the end of the buffer -/
  | paddingOutOfBuffer
  /-- a frame that cannot carry a PRB is skipped for ever -/
  | neverEnds
deriving DecidableEq

def setSize (bufferSize newSize : ℕ) : Except DownlinkFault ℕ :=
  if newSize > maxEthFrameLength then .error .invalidSize
  else if newSize < minEthFrameLength then
    if bufferSize < minEthFrameLength then .error .paddingOutOfBuffer else .ok minEthFrameLength
  else .ok newSize

/-- A frame given to the transmitter: its size and its Open Fronthaul message. -/
structure DownlinkFrame where
  size : ℕ
  message : Bytes
deriving DecidableEq

section

variable {Sample : Type} [Zero Sample] (flow : DownlinkFlow) (compressor comp : IqCompressor Sample)

variable (cfg : UplaneConfig)

def serializeCompressionHeader : Bytes :=
  if cfg.isStaticComprHdrEnabled then []
  else
    [byte ((if cfg.comprParams.dataWidth = 16 then 0 else cfg.comprParams.dataWidth) <<< 4 |||
      cfg.comprParams.type.toValue), byte 0]

def buildMessage (slot symbolId : ℕ) (iqData : List Sample) (c : ℕ × ℕ) : Bytes :=
  buildRadioAppHeader flow.numerology slot symbolId ++ (buildSection1Header c.1 c.2 ++
    (serializeCompressionHeader flow.toUplaneConfig ++ compressor.compress flow.comprParams
      ((iqData.drop (c.1 * nofSubcarriersPerRb)).take (c.2 * nofSubcarriersPerRb))))

/-- The frames left in the pool of each symbol of the slot, and the frames sent. -/
structure DownlinkState where
  pool : ℕ → ℕ
  frames : List DownlinkFrame

variable (s : DownlinkState)

def DownlinkState.send (symbolId : ℕ) (frame : DownlinkFrame) : DownlinkState :=
  { pool := Function.update s.pool symbolId (s.pool symbolId - 1), frames := s.frames ++ [frame] }

def fragmentLoop (slot symbolId : ℕ) (iqData : List Sample) :
    ℕ → FragmentSizeCalculator → DownlinkState → Except DownlinkFault (Bool × DownlinkState)
  | 0, _, _ => .error .neverEnds
  | fuel + 1, calculator, s =>
    if s.pool symbolId = 0 then .ok (false, s)
    else
      match calculator.calculateFragmentSize (flow.frameSize - flow.headersSize) with
      | (isLastFragment, c, calculator') =>
        -- the empty buffer goes back to the pool
        if c.2 = 0 then fragmentLoop slot symbolId iqData fuel calculator' s
        else do
          let message := buildMessage flow compressor slot symbolId iqData c
          let size ← setSize flow.frameSize (flow.ethHeaderSize + UplaneConfig.ecpriHeaderSize + message.length)
          let s' := s.send symbolId { size, message }
          if isLastFragment then .ok (true, s') else fragmentLoop slot symbolId iqData fuel calculator' s'

variable (grid : DownlinkGrid Sample)

/-- The samples of a symbol, filled up to the bandwidth of the radio unit. -/
def ruIqData (port symbolId : ℕ) : List Sample :=
  grid.view port symbolId ++ List.replicate (flow.ruNofPrbs * nofSubcarriersPerRb - grid.nofSubc) 0

def symbolLoop (grid : DownlinkGrid Sample) (slot port symbolEnd : ℕ) :
    ℕ → ℕ → DownlinkState → Except DownlinkFault DownlinkState
  -- `slot_symbol_point` checks that the symbol is one of the slot
  | 0, symbolId, s => if symbolId = symbolEnd then .ok s else .error .invalidSymbolIndex
  | fuel + 1, symbolId, s =>
    if symbolId = symbolEnd then .ok s
    else if grid.nofSubc > flow.ruNofPrbs * nofSubcarriersPerRb then .error .gridWiderThanRu
    else do
      let (goesOn, s') ← fragmentLoop flow compressor slot symbolId (ruIqData flow grid port symbolId) flow.ruNofPrbs
        { startPrb := 0, nofPrbs := flow.ruNofPrbs, prbSize := getPrbDataSize flow.comprParams,
          nextFragmentStartPrbIndex := 0 } s
      if goesOn then symbolLoop grid slot port symbolEnd fuel (symbolId + 1) s' else .ok s'

/-- `enqueue_section_type_1_message_symbol_burst`: the loop ends at the length of the range. -/
def enqueueSymbolBurst (slot port : ℕ) (range : SymbolRange flow.nofSymbols)
    (pool : ℕ → ℕ) : Except DownlinkFault DownlinkState :=
  symbolLoop flow compressor grid slot port range.length (flow.nofSymbols - range.start) range.start
    { pool, frames := [] }

def portLoop (grid : DownlinkGrid Sample) (slot : ℕ) (range : SymbolRange flow.nofSymbols) :
    ℕ → ℕ → (ℕ → ℕ) → Except DownlinkFault (List (List DownlinkFrame))
  | 0, _, _ => .ok []
  | n + 1, port, pool => do
    let s ← enqueueSymbolBurst flow compressor grid slot port range pool
    let rest ← portLoop grid slot range n (port + 1) s.pool
    .ok (s.frames :: rest)

def UplaneConfig.poolSize : ℕ := cfg.nofSegments * maxNofSupportedEaxc * 2 * 2

def handleDlData (slot : ℕ) (range : SymbolRange flow.nofSymbols) : Except DownlinkFault (List (List DownlinkFrame)) :=
  portLoop flow compressor grid slot range grid.nofPorts 0 fun _ => flow.poolSize

/-! ### What the messages say -/

/-- What a receiver reads from a section. -/
structure ReadSection where
  slot : ℕ
  symbolId : ℕ
  startPrb : ℕ
  nofPrbs : ℕ
  iqData : Bytes
deriving DecidableEq

def readSection (message : Bytes) : Option ReadSection := do
  let (slot, symbolId) ← peekSlotSymbolPoint cfg.numerology cfg.nofSymbols message
  let (header, rest) ← decodeSectionHeader cfg.ruNofPrbs (message.drop 4)
  some
    { slot, symbolId, startPrb := header.startPrb, nofPrbs := header.nofPrbs, iqData := rest.drop cfg.comprHeaderSize }

def describes (symbolId prb : ℕ) (frame : DownlinkFrame) : Bool :=
  (readSection cfg frame.message).any fun r => r.symbolId == symbolId && inChunk prb (r.startPrb, r.nofPrbs)

/-- The messages carry every PRB of every symbol of the range exactly once. -/
structure CoversOnce (grid : DownlinkGrid Sample) (slot port : ℕ) (range : SymbolRange flow.nofSymbols)
    (frames : List DownlinkFrame) : Prop where
  /-- the messages name the slot, and a section carries the samples of its PRBs -/
  carries : ∀ frame ∈ frames, ∃ r, readSection flow.toUplaneConfig frame.message = some r ∧
    r.slot = slot % (nofSlotsPerFrame flow.numerology * 256) ∧
    r.iqData = compressor.compress flow.comprParams
      (((ruIqData flow grid port r.symbolId).drop (r.startPrb * nofSubcarriersPerRb)).take
        (r.nofPrbs * nofSubcarriersPerRb))
  once : ∀ symbolId prb, frames.countP (describes flow.toUplaneConfig symbolId prb) =
    if (range.start ≤ symbolId ∧ symbolId < range.stop) ∧ prb < flow.ruNofPrbs then 1 else 0
  fits : ∀ frame ∈ frames, frame.size ≤ flow.frameSize

/-- Only all PRBs are more than 255 PRBs of a fragment, the grid fits in the radio unit, and the pool admits the frames. -/
structure Covered (grid : DownlinkGrid Sample) (range : SymbolRange flow.nofSymbols) : Prop where
  start_eq : range.start = 0
  fit : flow.nofPrbsFitInFrame ≤ 255 ∨ flow.ruNofPrbs ≤ flow.nofPrbsFitInFrame
  nofSubc_le : grid.nofSubc ≤ flow.ruNofPrbs * nofSubcarriersPerRb
  frameSize_ge : minEthFrameLength ≤ flow.frameSize
  usedSize_le : flow.usedSize (min flow.nofPrbsFitInFrame flow.ruNofPrbs) ≤ maxEthFrameLength

/-! ### The sizes of fragments and frames -/

variable {flow compressor comp}

lemma DownlinkFlow.prbDataSize_pos (flow : DownlinkFlow) : 0 < getPrbDataSize flow.comprParams := by
  have hw := flow.dataWidth_pos
  have hsize : 0 < roundUpToBytes (flow.comprParams.dataWidth * nofSubcarriersPerRb * 2) := by
    simp only [roundUpToBytes, nofSubcarriersPerRb]
    omega
  rw [getPrbDataSize]
  split <;> omega

lemma DownlinkFlow.compressedPrbSize_pos (flow : DownlinkFlow) : 0 < getCompressedPrbSize flow.comprParams := by
  have hw := flow.dataWidth_pos
  simp only [getCompressedPrbSize, roundUpToBytes, nofSubcarriersPerRb]
  omega

lemma DownlinkFlow.nofPrbsFitInFrame_pos (flow : DownlinkFlow) : 0 < flow.nofPrbsFitInFrame := by
  have hroom := flow.room
  exact Nat.div_pos (by omega) flow.prbDataSize_pos

lemma DownlinkFlow.usedSize_le_frameSize (flow : DownlinkFlow) {n : ℕ} (hn : n ≤ flow.nofPrbsFitInFrame) :
    flow.usedSize n ≤ flow.frameSize := by
  have hroom := flow.room
  have hheaders : flow.headersSize = flow.ethHeaderSize + UplaneConfig.ecpriHeaderSize + flow.uplaneHeaderSize := rfl
  have huplane : 8 + flow.comprHeaderSize ≤ flow.uplaneHeaderSize := by
    rw [UplaneConfig.uplaneHeaderSize]
    omega
  have hdata : getPrbDataSize flow.comprParams * n ≤ flow.frameSize - flow.headersSize :=
    (Nat.mul_le_mul_left _ hn).trans (mul_div_le _ _)
  have hcompr : getCompressedPrbSize flow.comprParams * n ≤ getPrbDataSize flow.comprParams * n :=
    Nat.mul_le_mul_right _ (getCompressedPrbSize_le _)
  rw [UplaneConfig.usedSize]
  omega

lemma UplaneConfig.usedSize_mono {n m : ℕ} (h : n ≤ m) : cfg.usedSize n ≤ cfg.usedSize m := by
  have := Nat.mul_le_mul_left (getCompressedPrbSize cfg.comprParams) h
  rw [usedSize, usedSize]
  omega

/-- The grid fits into the RU, and a frame has room for a section. -/
def SizesAdmitted (flow : DownlinkFlow) (grid : DownlinkGrid Sample) : Prop :=
  grid.nofSubc ≤ flow.ruNofPrbs * nofSubcarriersPerRb ∧ minEthFrameLength ≤ flow.frameSize ∧
    flow.usedSize (min flow.nofPrbsFitInFrame flow.ruNofPrbs) ≤ maxEthFrameLength

lemma setSize_of_admitted {bufferSize newSize : ℕ} (hbuf : minEthFrameLength ≤ bufferSize)
    (hmax : newSize ≤ maxEthFrameLength) : setSize bufferSize newSize = .ok (max minEthFrameLength newSize) := by
  rw [setSize, if_neg (by omega)]
  split
  · rw [if_neg (by omega), Nat.max_eq_left (by omega)]
  · rw [Nat.max_eq_right (by omega)]

lemma setSize_of_not_admitted {bufferSize newSize : ℕ} (hle : newSize ≤ bufferSize)
    (h : ¬ (minEthFrameLength ≤ bufferSize ∧ newSize ≤ maxEthFrameLength)) :
    ∃ e, setSize bufferSize newSize = .error e := by
  rw [setSize]
  split
  · exact ⟨_, rfl⟩
  · exact ⟨_, by rw [if_pos (by omega), if_pos (by omega)]⟩

lemma length_ruIqData {grid : DownlinkGrid Sample} (h : grid.nofSubc ≤ flow.ruNofPrbs * nofSubcarriersPerRb)
    (port symbolId : ℕ) : (ruIqData flow grid port symbolId).length = flow.ruNofPrbs * nofSubcarriersPerRb := by
  rw [ruIqData, length_append, length_replicate, grid.length_view]
  omega

lemma length_serializeCompressionHeader : (serializeCompressionHeader cfg).length = cfg.comprHeaderSize := by
  rw [serializeCompressionHeader, UplaneConfig.comprHeaderSize]
  split <;> rfl

omit [Zero Sample] in
lemma length_compress_fragment {iqData : List Sample} (hiq : iqData.length = flow.ruNofPrbs * nofSubcarriersPerRb)
    {c : ℕ × ℕ} (hc : c.1 + c.2 ≤ flow.ruNofPrbs) :
    (comp.compress flow.comprParams
      ((iqData.drop (c.1 * nofSubcarriersPerRb)).take (c.2 * nofSubcarriersPerRb))).length =
      getCompressedPrbSize flow.comprParams * c.2 := by
  rw [comp.length_compress, length_take, length_drop, hiq]
  simp only [nofSubcarriersPerRb]
  congr 1
  omega

omit [Zero Sample] in
lemma length_buildMessage {iqData : List Sample} (hiq : iqData.length = flow.ruNofPrbs * nofSubcarriersPerRb)
    {c : ℕ × ℕ} (hc : c.1 + c.2 ≤ flow.ruNofPrbs) (slot symbolId : ℕ) :
    flow.ethHeaderSize + UplaneConfig.ecpriHeaderSize + (buildMessage flow comp slot symbolId iqData c).length =
      flow.usedSize c.2 := by
  simp only [buildMessage, length_append, length_compress_fragment hiq hc, length_serializeCompressionHeader,
    buildRadioAppHeader, buildSection1Header, length_cons, length_nil, UplaneConfig.usedSize]
  omega

/-! ### The loops -/

/-- The calculator of a symbol before the fragment that begins with the PRB `next`. -/
def DownlinkFlow.calculator (flow : DownlinkFlow) (next : ℕ) : FragmentSizeCalculator :=
  { startPrb := 0, nofPrbs := flow.ruNofPrbs, prbSize := getPrbDataSize flow.comprParams,
    nextFragmentStartPrbIndex := next }

lemma calculateFragmentSize_eq (next : ℕ) :
    (flow.calculator next).calculateFragmentSize (flow.frameSize - flow.headersSize) =
      if flow.ruNofPrbs - next ≤ flow.nofPrbsFitInFrame then
        (true, (next, flow.ruNofPrbs - next), flow.calculator (next + (flow.ruNofPrbs - next)))
      else (false, (next, flow.nofPrbsFitInFrame), flow.calculator (next + flow.nofPrbsFitInFrame)) := by
  have hroom := flow.room
  rw [FragmentSizeCalculator.calculateFragmentSize,
    if_neg (show ¬ flow.frameSize - flow.headersSize < (flow.calculator next).prbSize from
      not_lt.mpr (le_sub_of_add_le (by rw [add_comm]; exact hroom)))]
  rfl

def frameOf (flow : DownlinkFlow) (compressor : IqCompressor Sample) (slot symbolId : ℕ) (iqData : List Sample)
    (c : ℕ × ℕ) : DownlinkFrame :=
  { size := max minEthFrameLength (flow.usedSize c.2), message := buildMessage flow compressor slot symbolId iqData c }

def DownlinkState.sendAll (symbolId : ℕ) (frames : List DownlinkFrame) : DownlinkState :=
  { pool := Function.update s.pool symbolId (s.pool symbolId - frames.length), frames := s.frames ++ frames }

lemma DownlinkState.sendAll_pool_self (symbolId : ℕ) (frames : List DownlinkFrame) :
    (s.sendAll symbolId frames).pool symbolId = s.pool symbolId - frames.length := Function.update_self ..

lemma DownlinkState.sendAll_pool_of_ne {symbolId symbol : ℕ} (h : symbol ≠ symbolId)
    (frames : List DownlinkFrame) : (s.sendAll symbolId frames).pool symbol = s.pool symbol :=
  Function.update_of_ne h _ _

lemma DownlinkState.send_sendAll (symbolId : ℕ) (f : DownlinkFrame) (fs : List DownlinkFrame) :
    (s.send symbolId f).sendAll symbolId fs = s.sendAll symbolId (f :: fs) := by
  simp only [send, sendAll, Function.update_self, Function.update_idem, append_assoc, singleton_append,
    length_cons, DownlinkState.mk.injEq, and_true]
  congr 1
  omega

section Admitted

variable {grid : DownlinkGrid Sample}

variable {fuel symbolEnd symbolId slot : ℕ} {s : DownlinkState} {c : ℕ × ℕ} {range : SymbolRange flow.nofSymbols}

omit [Zero Sample] in
lemma fragmentLoop_eq (hsize : SizesAdmitted flow grid) {iqData : List Sample}
    (hiq : iqData.length = flow.ruNofPrbs * nofSubcarriersPerRb) (slot symbolId : ℕ) {next n : ℕ}
    (hn : 0 < n) (hnext : next + n = flow.ruNofPrbs) (hfuel : n ≤ fuel)
    (hpool : (chunks flow.nofPrbsFitInFrame fuel next n).length ≤ s.pool symbolId) :
    fragmentLoop flow comp slot symbolId iqData fuel (flow.calculator next) s = .ok (true, s.sendAll symbolId
        ((chunks flow.nofPrbsFitInFrame fuel next n).map (frameOf flow comp slot symbolId iqData))) := by
  induction fuel generalizing next n s with
  | zero => omega
  | succ fuel ih =>
    have hfit := flow.nofPrbsFitInFrame_pos
    have hset : ∀ c : ℕ × ℕ, c.1 + c.2 ≤ flow.ruNofPrbs → c.2 ≤ flow.nofPrbsFitInFrame →
        setSize flow.frameSize (flow.ethHeaderSize + UplaneConfig.ecpriHeaderSize +
          (buildMessage flow comp slot symbolId iqData c).length) =
          .ok (frameOf flow comp slot symbolId iqData c).size := by
      intro c hc hle
      rw [length_buildMessage hiq hc]
      exact setSize_of_admitted hsize.2.1 ((flow.usedSize_mono (by omega)).trans hsize.2.2)
    rw [fragmentLoop, calculateFragmentSize_eq, show flow.ruNofPrbs - next = n by omega]
    rcases lt_or_ge flow.nofPrbsFitInFrame n with hlt | hle
    · rw [chunks_of_lt hlt, length_cons] at hpool
      rw [chunks_of_lt hlt]
      rw [if_neg (by omega), if_neg (by omega)]
      simp only [if_neg hfit.ne', hset (next, flow.nofPrbsFitInFrame) (by simp only; omega) (by simp only; omega), ok_bind,
        Bool.false_eq_true, if_false, map_cons]
      rw [ih (n := n - flow.nofPrbsFitInFrame) (by omega) (by omega) (by omega)
        (by simp only [DownlinkState.send, Function.update_self]; omega), ← DownlinkState.send_sendAll]
      rfl
    · rw [chunks_of_le hle, length_singleton] at hpool
      rw [chunks_of_le hle, if_neg (by omega), if_pos hle]
      simp only [if_neg hn.ne', hset (next, n) (by simp only; omega) (by simp only; omega), ok_bind, if_true]
      rfl

omit [Zero Sample] in
lemma fragmentLoop_error (hsize : ¬ (minEthFrameLength ≤ flow.frameSize ∧
      flow.usedSize (min flow.nofPrbsFitInFrame flow.ruNofPrbs) ≤ maxEthFrameLength)) {iqData : List Sample}
    (hiq : iqData.length = flow.ruNofPrbs * nofSubcarriersPerRb) (slot symbolId : ℕ) (hfuel : 0 < fuel)
    (hpool : 0 < s.pool symbolId) :
    ∃ e, fragmentLoop flow comp slot symbolId iqData fuel (flow.calculator 0) s = .error e := by
  obtain ⟨fuel, rfl⟩ := exists_eq_succ_of_ne_zero hfuel.ne'
  have hfit := flow.nofPrbsFitInFrame_pos
  have hru := flow.ruNofPrbs_pos
  have hset : ∀ n, n = min flow.nofPrbsFitInFrame flow.ruNofPrbs → ∃ e,
      setSize flow.frameSize (flow.ethHeaderSize + UplaneConfig.ecpriHeaderSize +
        (buildMessage flow comp slot symbolId iqData (0, n)).length) = .error e := by
    intro n hn
    rw [length_buildMessage hiq (show (0, n).1 + (0, n).2 ≤ flow.ruNofPrbs by simp only; omega)]
    refine setSize_of_not_admitted (flow.usedSize_le_frameSize (by simp only; omega)) ?_
    rwa [← hn] at hsize
  rw [fragmentLoop, if_neg (by omega), calculateFragmentSize_eq, Nat.sub_zero]
  rcases Nat.lt_or_ge flow.nofPrbsFitInFrame flow.ruNofPrbs with hlt | hle
  · obtain ⟨e, he⟩ := hset flow.nofPrbsFitInFrame (by omega)
    rw [if_neg (by omega)]
    exact ⟨e, by simp only [if_neg hfit.ne', he]; rfl⟩
  · obtain ⟨e, he⟩ := hset flow.ruNofPrbs (by omega)
    rw [if_pos hle]
    exact ⟨e, by simp only [if_neg hru.ne', he]; rfl⟩

def symbolFrames (flow : DownlinkFlow) (compressor : IqCompressor Sample) (grid : DownlinkGrid Sample)
    (slot port symbolId : ℕ) : List DownlinkFrame :=
  (chunks flow.nofPrbsFitInFrame flow.ruNofPrbs 0 flow.ruNofPrbs).map
    (frameOf flow compressor slot symbolId (ruIqData flow grid port symbolId))

lemma length_symbolFrames (slot port symbolId : ℕ) :
    (symbolFrames flow comp grid slot port symbolId).length = flow.nofSegments := by
  rw [symbolFrames, length_map, length_chunks flow.nofPrbsFitInFrame_pos le_rfl flow.ruNofPrbs_pos]
  rfl

lemma DownlinkFlow.nofSegments_pos (flow : DownlinkFlow) : 0 < flow.nofSegments := by
  have hfit := flow.nofPrbsFitInFrame_pos
  have hru := flow.ruNofPrbs_pos
  exact Nat.div_pos (by omega) hfit

lemma symbolLoop_step (hsize : SizesAdmitted flow grid) (slot port : ℕ)
    (hne : symbolId ≠ symbolEnd) (hpool : flow.nofSegments ≤ s.pool symbolId) :
    symbolLoop flow comp grid slot port symbolEnd (fuel + 1) symbolId s =
      symbolLoop flow comp grid slot port symbolEnd fuel (symbolId + 1)
        (s.sendAll symbolId (symbolFrames flow comp grid slot port symbolId)) := by
  have hloop : fragmentLoop flow comp slot symbolId (ruIqData flow grid port symbolId) flow.ruNofPrbs
      (flow.calculator 0) s =
      .ok (true, s.sendAll symbolId (symbolFrames flow comp grid slot port symbolId)) := by
    refine fragmentLoop_eq hsize (length_ruIqData hsize.1 port symbolId) slot symbolId flow.ruNofPrbs_pos
      (zero_add _) le_rfl ?_
    rwa [length_chunks flow.nofPrbsFitInFrame_pos le_rfl flow.ruNofPrbs_pos]
  rw [symbolLoop, if_neg hne, if_neg (not_lt.mpr hsize.1)]
  exact congrArg (fun x => x >>= _) hloop

lemma symbolLoop_run (comp : IqCompressor Sample) (hsize : SizesAdmitted flow grid) (slot port n symbolId : ℕ)
    (hfuel : n ≤ fuel) (s : DownlinkState) (hpool : ∀ symbol ≥ symbolId, flow.nofSegments ≤ s.pool symbol) :
    ∃ pool, (∀ symbol ≥ symbolId, s.pool symbol - flow.nofSegments ≤ pool symbol) ∧
      (∀ symbol < symbolId, pool symbol = s.pool symbol) ∧
      symbolLoop flow comp grid slot port (symbolId + n) fuel symbolId s =
        .ok { pool, frames := s.frames ++
          (range' symbolId n).flatMap (symbolFrames flow comp grid slot port) } := by
  induction n generalizing symbolId fuel s with
  | zero =>
    refine ⟨s.pool, fun symbol _ => sub_le _ _, fun _ _ => rfl, ?_⟩
    rw [range'_zero, flatMap_nil, append_nil]
    cases fuel <;> exact if_pos rfl
  | succ n ih =>
    obtain ⟨fuel, rfl⟩ := exists_eq_succ_of_ne_zero (show fuel ≠ 0 by omega)
    rw [symbolLoop_step hsize slot port (by omega) (hpool symbolId le_rfl)]
    have hother : ∀ symbol, symbol ≠ symbolId →
        (s.sendAll symbolId (symbolFrames flow comp grid slot port symbolId)).pool symbol = s.pool symbol :=
      fun symbol h => s.sendAll_pool_of_ne h _
    obtain ⟨pool, hge, hlt, hrun⟩ := ih (symbolId + 1) (show n ≤ fuel by omega)
      (s.sendAll symbolId (symbolFrames flow comp grid slot port symbolId))
      fun symbol h => by rw [hother symbol (by omega)]; exact hpool symbol (by omega)
    refine ⟨pool, fun symbol h => ?_, fun symbol h => ?_, ?_⟩
    · rcases Nat.eq_or_lt_of_le h with rfl | h
      · rw [hlt symbolId (by omega), DownlinkState.sendAll_pool_self, length_symbolFrames]
      · rw [← hother symbol (by omega)]
        exact hge symbol h
    · rw [hlt symbol (by omega), hother symbol (by omega)]
    · rw [show symbolId + (n + 1) = symbolId + 1 + n by omega, hrun, range'_succ, flatMap_cons, ← append_assoc]
      rfl

lemma symbolLoop_error (comp : IqCompressor Sample) (hsize : SizesAdmitted flow grid) (slot port fuel : ℕ)
    (hlt : symbolEnd < symbolId) (s : DownlinkState) (hpool : ∀ symbol ≥ symbolId, flow.nofSegments ≤ s.pool symbol) :
    ∃ e, symbolLoop flow comp grid slot port symbolEnd fuel symbolId s = .error e := by
  induction fuel generalizing symbolId s with
  | zero => exact ⟨_, if_neg (by omega)⟩
  | succ fuel ih =>
    rw [symbolLoop_step hsize slot port (by omega) (hpool symbolId le_rfl)]
    refine ih (by omega) _ fun symbol h => ?_
    rw [DownlinkState.sendAll_pool_of_ne _ (by omega)]
    exact hpool symbol (by omega)

lemma symbolLoop_not_admitted (comp : IqCompressor Sample) (hsize : ¬ SizesAdmitted flow grid)
    (slot port fuel : ℕ) (hne : symbolId ≠ symbolEnd) (s : DownlinkState) (hpool : 0 < s.pool symbolId) :
    ∃ e, symbolLoop flow comp grid slot port symbolEnd fuel symbolId s = .error e := by
  cases fuel with
  | zero => exact ⟨_, if_neg hne⟩
  | succ fuel =>
    rw [symbolLoop, if_neg hne]
    rcases lt_or_ge (flow.ruNofPrbs * nofSubcarriersPerRb) grid.nofSubc with hwide | hle
    · exact ⟨_, if_pos hwide⟩
    · have hloop : ∃ e, fragmentLoop flow comp slot symbolId (ruIqData flow grid port symbolId) flow.ruNofPrbs
          (flow.calculator 0) s = .error e :=
        fragmentLoop_error (fun h => hsize ⟨hle, h⟩) (length_ruIqData hle port symbolId) slot symbolId
          flow.ruNofPrbs_pos hpool
      obtain ⟨e, he⟩ := hloop
      rw [if_neg (not_lt.mpr hle)]
      exact ⟨e, congrArg (fun x => x >>= _) he⟩

/-! ### Reading the frames back -/

omit [Zero Sample] in
lemma readSection_buildMessage (slot : ℕ) (hsym : symbolId < flow.nofSymbols) (iqData : List Sample)
    (hpos : 0 < c.2) (hc : c.1 + c.2 ≤ flow.ruNofPrbs) :
    readSection flow.toUplaneConfig (buildMessage flow comp slot symbolId iqData c) = some
        { slot := slot % (nofSlotsPerFrame flow.numerology * 256), symbolId
          startPrb := if c.2 > 255 then 0 else c.1
          nofPrbs := if c.2 > 255 then flow.ruNofPrbs else c.2
          iqData := comp.compress flow.comprParams
            ((iqData.drop (c.1 * nofSubcarriersPerRb)).take (c.2 * nofSubcarriersPerRb)) } := by
  have hnof := flow.nofSymbols_le
  have hru : flow.ruNofPrbs ≤ 275 := flow.ruNofPrbs_le
  rw [readSection, buildMessage, peekSlotSymbolPoint_build flow.numerology_le slot hsym (by omega),
    drop_left' (show (buildRadioAppHeader flow.numerology slot symbolId).length = 4 from rfl),
    decodeSectionHeader_build flow.ruNofPrbs (by omega) hpos]
  simp only [Option.bind_eq_bind, Option.bind_some]
  rw [drop_left' (length_serializeCompressionHeader _)]

/-- A fragment of at most 255 PRBs, or of all of them, is read back as it is. -/
def ReadsBack (flow : DownlinkFlow) (c : ℕ × ℕ) : Prop := c.2 ≤ 255 ∨ c = (0, flow.ruNofPrbs)

lemma readsBack_of_mem (hfit : flow.nofPrbsFitInFrame ≤ 255 ∨ flow.ruNofPrbs ≤ flow.nofPrbsFitInFrame)
    (hc : c ∈ chunks flow.nofPrbsFitInFrame flow.ruNofPrbs 0 flow.ruNofPrbs) : ReadsBack flow c := by
  have hru := flow.ruNofPrbs_pos
  have hbounds := bounds_of_mem_chunks flow.nofPrbsFitInFrame_pos hru hc
  rcases hfit with hfit | hfit
  · exact .inl (by omega)
  · obtain ⟨n, hn⟩ := exists_eq_succ_of_ne_zero hru.ne'
    rw [hn, chunks_of_le (by omega), ← hn] at hc
    exact .inr (mem_singleton.mp hc)

omit [Zero Sample] in
lemma readSection_of_readsBack (slot : ℕ) (hsym : symbolId < flow.nofSymbols) (iqData : List Sample)
    (hpos : 0 < c.2) (hc : c.1 + c.2 ≤ flow.ruNofPrbs) (hback : ReadsBack flow c) :
    readSection flow.toUplaneConfig (buildMessage flow comp slot symbolId iqData c) = some
        { slot := slot % (nofSlotsPerFrame flow.numerology * 256), symbolId, startPrb := c.1, nofPrbs := c.2
          iqData := comp.compress flow.comprParams
            ((iqData.drop (c.1 * nofSubcarriersPerRb)).take (c.2 * nofSubcarriersPerRb)) } := by
  rw [readSection_buildMessage slot hsym iqData hpos hc]
  rcases hback with hle | rfl
  · rw [if_neg (by omega), if_neg (by omega)]
  · simp only [ite_self]

lemma countP_symbolFrames (hfit : flow.nofPrbsFitInFrame ≤ 255 ∨ flow.ruNofPrbs ≤ flow.nofPrbsFitInFrame)
    (slot port : ℕ) (hsym : symbolId < flow.nofSymbols) (symbolId' prb : ℕ) :
    (symbolFrames flow comp grid slot port symbolId).countP (describes flow.toUplaneConfig symbolId' prb) =
      if symbolId = symbolId' then (if prb < flow.ruNofPrbs then 1 else 0) else 0 := by
  have hdesc : ∀ c ∈ chunks flow.nofPrbsFitInFrame flow.ruNofPrbs 0 flow.ruNofPrbs,
      describes flow.toUplaneConfig symbolId' prb
        (frameOf flow comp slot symbolId (ruIqData flow grid port symbolId) c) =
        (symbolId == symbolId' && inChunk prb c) := by
    intro c hc
    obtain ⟨hpos, -, -, hle⟩ := bounds_of_mem_chunks flow.nofPrbsFitInFrame_pos flow.ruNofPrbs_pos hc
    rw [describes, frameOf, readSection_of_readsBack slot hsym _ hpos (by omega) (readsBack_of_mem hfit hc)]
    rfl
  rw [symbolFrames, countP_map]
  rw [countP_congr (fun c hc => by rw [Function.comp_apply, hdesc c hc])]
  split
  next h =>
    simp only [h, beq_self_eq_true, Bool.true_and]
    rw [countP_chunks flow.nofPrbsFitInFrame_pos le_rfl flow.ruNofPrbs_pos]
    simp only [Nat.zero_le, true_and, zero_add]
  next h =>
    simp only [beq_eq_false_iff_ne.mpr h, Bool.false_and, countP_false]
    rfl

lemma countP_flatMap_symbols {p : DownlinkFrame → Bool} {f : ℕ → List DownlinkFrame} {k : ℕ} (start n : ℕ)
    (h : ∀ symbol, symbol < start + n → (f symbol).countP p = if symbol = symbolId then k else 0) :
    ((List.range' start n).flatMap f).countP p = if start ≤ symbolId ∧ symbolId < start + n then k else 0 := by
  induction n generalizing start with
  | zero => rw [range'_zero, flatMap_nil, countP_nil, if_neg (by omega)]
  | succ n ih =>
    rw [range'_succ, flatMap_cons, countP_append, h start (by omega),
      ih (start + 1) fun symbol hs => h symbol (by omega)]
    split <;> split <;> split <;> omega

/-! ### The frames of all ports -/

/-- Each port gets its messages. -/
def CoversEveryPort (flow : DownlinkFlow) (compressor : IqCompressor Sample) (grid : DownlinkGrid Sample) (slot : ℕ)
    (range : SymbolRange flow.nofSymbols) : Prop :=
  ∃ frames, handleDlData flow compressor grid slot range = .ok frames ∧ frames.length = grid.nofPorts ∧
    ∀ port portFrames, frames[port]? = some portFrames → CoversOnce flow compressor grid slot port range portFrames

lemma coversOnce_of_covered (h : Covered flow grid range) (port : ℕ) : CoversOnce flow comp grid slot port range
      ((range' 0 range.stop).flatMap (symbolFrames flow comp grid slot port)) := by
  have hmem : ∀ frame ∈ (range' 0 range.stop).flatMap (symbolFrames flow comp grid slot port),
      ∃ symbolId c, symbolId < flow.nofSymbols ∧ 0 < c.2 ∧ c.2 ≤ flow.nofPrbsFitInFrame ∧ c.1 + c.2 ≤ flow.ruNofPrbs ∧
        ReadsBack flow c ∧ frame = frameOf flow comp slot symbolId (ruIqData flow grid port symbolId) c := by
    intro frame hframe
    obtain ⟨symbolId, hsym, hframe⟩ := mem_flatMap.mp hframe
    obtain ⟨c, hc, rfl⟩ := mem_map.mp hframe
    have hlt := (mem_range'_1.mp hsym).2
    have hstop := range.stop_le
    obtain ⟨hpos, hle, -, hend⟩ := bounds_of_mem_chunks flow.nofPrbsFitInFrame_pos flow.ruNofPrbs_pos hc
    exact ⟨symbolId, c, by omega, hpos, by omega, by omega, readsBack_of_mem h.fit hc, rfl⟩
  refine ⟨fun frame hframe => ?_, fun symbolId prb => ?_, fun frame hframe => ?_⟩
  · obtain ⟨symbolId, c, hsym, hpos, -, hend, hback, rfl⟩ := hmem frame hframe
    exact ⟨_, readSection_of_readsBack slot hsym _ hpos hend hback, rfl, rfl⟩
  · have hstop := range.stop_le
    rw [countP_flatMap_symbols 0 range.stop fun symbol hs =>
      countP_symbolFrames h.fit slot port (by omega) symbolId prb, h.start_eq]
    simp only [zero_add, Nat.zero_le, true_and]
    exact (ite_and ..).symm
  · obtain ⟨symbolId, c, -, -, hle, -, -, rfl⟩ := hmem frame hframe
    exact max_le h.frameSize_ge (flow.usedSize_le_frameSize hle)

lemma portLoop_covers (comp : IqCompressor Sample) (slot : ℕ)
    (h : Covered flow grid range) (n port : ℕ) (pool : ℕ → ℕ) (hpool : ∀ symbol, n * flow.nofSegments ≤ pool symbol) :
    ∃ frames, portLoop flow comp grid slot range n port pool = .ok frames ∧ frames.length = n ∧
      ∀ i portFrames, frames[i]? = some portFrames →
        CoversOnce flow comp grid slot (port + i) range portFrames := by
  induction n generalizing port pool with
  | zero => exact ⟨[], rfl, rfl, nofun⟩
  | succ n ih =>
    have hlen : range.length = 0 + range.stop := by rw [SymbolRange.length, h.start_eq, Nat.zero_add, Nat.sub_zero]
    have hsegs : n * flow.nofSegments + flow.nofSegments = (n + 1) * flow.nofSegments := (succ_mul ..).symm
    obtain ⟨pool', hge, -, hrun⟩ := symbolLoop_run comp
      ⟨h.nofSubc_le, h.frameSize_ge, h.usedSize_le⟩ slot port range.stop 0
      (show range.stop ≤ flow.nofSymbols - 0 from range.stop_le) { pool, frames := [] }
      fun symbol _ => by have := hpool symbol; simp only; omega
    obtain ⟨rest, hrest, hlength, hcovers⟩ := ih (port + 1) pool' fun symbol => by
      have h1 := hge symbol (Nat.zero_le _)
      have h2 := hpool symbol
      simp only at h1
      omega
    refine ⟨(range' 0 range.stop).flatMap (symbolFrames flow comp grid slot port) :: rest, ?_, ?_, ?_⟩
    · rw [portLoop, enqueueSymbolBurst, hlen, h.start_eq, hrun, ok_bind, hrest, ok_bind, nil_append]
    · rw [length_cons, hlength]
    · intro i portFrames hi
      cases i with
      | zero =>
        rw [getElem?_cons_zero, Option.some.injEq] at hi
        rw [← hi]
        exact coversOnce_of_covered h port
      | succ i =>
        rw [getElem?_cons_succ] at hi
        rw [show port + (i + 1) = port + 1 + i by omega]
        exact hcovers i portFrames hi

lemma coversEveryPort_of_covered (h : Covered flow grid range) : CoversEveryPort flow comp grid slot range := by
  obtain ⟨frames, hrun, hlength, hcovers⟩ := portLoop_covers comp slot h grid.nofPorts 0
    (fun _ => flow.poolSize) fun _ => by
      rw [UplaneConfig.poolSize, mul_comm, mul_assoc, mul_assoc]
      exact Nat.mul_le_mul_left _ (grid.nofPorts_le.trans (by decide))
  exact ⟨frames, hrun, hlength, fun port portFrames hport => by
    have := hcovers port portFrames hport
    rwa [zero_add] at this⟩

lemma CoversEveryPort.first (h : CoversEveryPort flow comp grid slot range) :
    ∃ s, enqueueSymbolBurst flow comp grid slot 0 range (fun _ => flow.poolSize) = .ok s ∧
      CoversOnce flow comp grid slot 0 range s.frames := by
  obtain ⟨frames, hrun, -, hcovers⟩ := h
  obtain ⟨n, hn⟩ := exists_eq_succ_of_ne_zero grid.nofPorts_pos.ne'
  rw [handleDlData, hn, portLoop] at hrun
  obtain ⟨s, hs, hrest⟩ := Run.bind_eq_ok.mp hrun
  obtain ⟨rest, -, hframes⟩ := Run.bind_eq_ok.mp hrest
  refine ⟨s, hs, hcovers 0 s.frames ?_⟩
  rw [← Except.ok.inj hframes, getElem?_cons_zero]

lemma covered_of_coversEveryPort (h : CoversEveryPort flow comp grid slot range) : Covered flow grid range := by
  obtain ⟨s, hrun, hcovers⟩ := h.first
  have hlt := range.start_lt
  have hstop := range.stop_le
  have hru := flow.ruNofPrbs_pos
  have hseg := flow.nofSegments_pos
  have hpool : flow.nofSegments ≤ flow.poolSize := by
    rw [UplaneConfig.poolSize, Nat.mul_assoc, Nat.mul_assoc]
    exact Nat.le_mul_of_pos_right _ (by decide)
  have hlen : range.length = range.stop - range.start := rfl
  -- a burst without frames does not describe the first symbol
  have hne : range.start ≠ range.length := by
    intro heq
    rw [enqueueSymbolBurst, ← heq] at hrun
    have hframes : s.frames = [] := by
      cases hf : flow.nofSymbols - range.start <;> rw [hf, symbolLoop, if_pos rfl] at hrun <;>
        rw [← Except.ok.inj hrun]
    have := hcovers.once range.start 0
    rw [hframes, if_pos ⟨⟨le_rfl, hlt⟩, hru⟩] at this
    cases this
  have hsize : SizesAdmitted flow grid := by
    by_contra hsize
    obtain ⟨e, he⟩ := symbolLoop_not_admitted comp hsize slot 0 (flow.nofSymbols - range.start) hne
      { pool := fun _ => flow.poolSize, frames := [] } (by simp only; omega)
    rw [enqueueSymbolBurst, he] at hrun
    cases hrun
  have hle : range.start ≤ range.length := by
    by_contra hgt
    obtain ⟨e, he⟩ := symbolLoop_error comp hsize slot 0 (flow.nofSymbols - range.start)
      (Nat.lt_of_not_le hgt) { pool := fun _ => flow.poolSize, frames := [] } fun symbol _ => hpool
    rw [enqueueSymbolBurst, he] at hrun
    cases hrun
  have hframes : s.frames = (range' range.start (range.length - range.start)).flatMap
      (symbolFrames flow comp grid slot 0) := by
    obtain ⟨pool, -, -, hloop⟩ := symbolLoop_run comp hsize slot 0 (range.length - range.start) range.start
      (show range.length - range.start ≤ flow.nofSymbols - range.start by omega)
      { pool := fun _ => flow.poolSize, frames := [] } fun symbol _ => hpool
    rw [show range.start + (range.length - range.start) = range.length by omega] at hloop
    rw [enqueueSymbolBurst, hloop] at hrun
    rw [← Except.ok.inj hrun, nil_append]
  -- the first fragment is among the frames, and its samples tell how many PRBs it has
  have hfit : flow.nofPrbsFitInFrame ≤ 255 ∨ flow.ruNofPrbs ≤ flow.nofPrbsFitInFrame := by
    by_contra hfit
    have hc : (0, flow.nofPrbsFitInFrame) ∈ chunks flow.nofPrbsFitInFrame flow.ruNofPrbs 0 flow.ruNofPrbs := by
      obtain ⟨n, hn⟩ := exists_eq_succ_of_ne_zero hru.ne'
      rw [hn, chunks_of_lt (by omega)]
      exact mem_cons_self
    have hmem := hframes ▸ mem_flatMap.mpr
      ⟨range.start, mem_range'_1.mpr ⟨le_rfl, by omega⟩, mem_map.mpr ⟨_, hc, rfl⟩⟩
    obtain ⟨r, hr, -, hiq⟩ := hcovers.carries _ hmem
    rw [frameOf, readSection_buildMessage slot (by omega) _ (by simp only; omega) (by simp only; omega),
      Option.some.injEq] at hr
    subst hr
    have hlength := congrArg List.length hiq
    have hdata : (ruIqData flow grid 0 range.start).length = flow.ruNofPrbs * nofSubcarriersPerRb :=
      length_ruIqData hsize.1 0 range.start
    simp only [if_pos (show flow.nofPrbsFitInFrame > 255 by omega)] at hlength
    rw [length_compress_fragment hdata (c := (0, flow.nofPrbsFitInFrame)) (by simp only; omega),
      length_compress_fragment hdata (c := (0, flow.ruNofPrbs)) (by simp only; omega)] at hlength
    have := Nat.eq_of_mul_eq_mul_left flow.compressedPrbSize_pos hlength
    omega
  -- the last symbol of the range is not described when the range begins later than the slot
  have hstart : range.start = 0 := by
    by_contra hpos
    have honce := hcovers.once (range.stop - 1) 0
    rw [hframes, countP_flatMap_symbols range.start (range.length - range.start) fun symbol hs =>
      countP_symbolFrames hfit slot 0 (by omega) (range.stop - 1) 0, if_neg (by omega), if_pos (by omega)] at honce
    cases honce
  exact ⟨hstart, hfit, hsize.1, hsize.2.1, hsize.2.2⟩

/-- The messages of a slot describe every PRB once, for every port and the symbols of the range, in the covered cases
only. -/
theorem downlinkUplane_covers_iff (flow : DownlinkFlow) (compressor : IqCompressor Sample)
    (grid : DownlinkGrid Sample) (slot : ℕ) (range : SymbolRange flow.nofSymbols) :
    CoversEveryPort flow compressor grid slot range ↔ Covered flow grid range :=
  ⟨covered_of_coversEveryPort, coversEveryPort_of_covered⟩

end Admitted

end

/-! ### Two grids that are not covered -/

/-- A radio unit with 9 bits block floating point samples. -/
def bfpConfig (nofPrbs frameSize : ℕ) : UplaneConfig :=
  { numerology := 1, nofSymbols := 14, ruNofPrbs := nofPrbs, comprParams := ⟨.bfp, 9⟩, isStaticComprHdrEnabled := false,
    isVlanEnabled := false, frameSize }

def smallFlow : DownlinkFlow where
  toUplaneConfig := bfpConfig 51 9000
  numerology_le := by decide
  nofSymbols_le := by decide
  ruNofPrbs_pos := by decide
  ruNofPrbs_le := by decide
  dataWidth_pos := by decide
  dataWidth_le := by decide
  room := by decide

/-- 275 PRBs in frames of 7312 bytes, which have room for 260 PRBs. -/
def wideFlow : DownlinkFlow where
  toUplaneConfig := bfpConfig 275 7312
  numerology_le := by decide
  nofSymbols_le := by decide
  ruNofPrbs_pos := by decide
  ruNofPrbs_le := by decide
  dataWidth_pos := by decide
  dataWidth_le := by decide
  room := by decide

def emptyGrid (nofSubc : ℕ) : DownlinkGrid ℕ where
  nofPorts := 1
  nofSubc := nofSubc
  view := fun _ _ => List.replicate nofSubc 0
  nofPorts_pos := Nat.one_pos
  nofPorts_le := by decide
  length_view := fun _ _ => List.length_replicate

def zeroCompressor : IqCompressor ℕ where
  compress := fun params iq => List.replicate (getCompressedPrbSize params * (iq.length / nofSubcarriersPerRb)) 0
  length_compress := fun _ _ => List.length_replicate

/-- A range that begins with the third symbol is not covered, nor are 275 PRBs whose first message has 260. -/
theorem downlinkUplane_not_covered :
    ¬ CoversEveryPort smallFlow zeroCompressor (emptyGrid 612) 0 ⟨2, 14, by decide, by decide⟩ ∧
      ¬ CoversEveryPort wideFlow zeroCompressor (emptyGrid 3300) 0 ⟨0, 14, by decide, by decide⟩ := by
  constructor
  · intro h
    exact absurd (covered_of_coversEveryPort h).start_eq (by decide)
  · intro h
    exact absurd (covered_of_coversEveryPort h).fit (by decide)

end SrsRan.Ofh
