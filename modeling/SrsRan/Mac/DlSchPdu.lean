import SrsRan.Support.Bytes
import Mathlib.Data.List.Basic

/-!
# DL-SCH MAC PDUs

`dl_sch_pdu` and the part of `dl_sch_pdu_assembler` that fills it.  A PDU is assembled in place in a buffer, and a write that
would fall outside the buffer fails (`writeAt`).  An RLC bearer is an arbitrary function of its state that answers an
opportunity of `n` bytes with at most `n` bytes.
-/

namespace SrsRan.Mac

open Support

/-! ### `mac_pdu_format.h` -/

def fixedSizedMacCeSubheaderSize : ℕ := 1
def macSduSubheaderLengthThres : ℕ := 256
def minMacSduSubheaderSize : ℕ := 2
def maxMacSduSubheaderSize : ℕ := 3

def getMacSduSubheaderSize (payload : ℕ) : ℕ :=
  if payload = 0 then 0
  else if payload ≥ macSduSubheaderLengthThres then maxMacSduSubheaderSize
  else minMacSduSubheaderSize

def getMacSduRequiredBytes (payload : ℕ) : ℕ := payload + getMacSduSubheaderSize payload

def getMacSduPayloadSize (macSduSize : ℕ) : ℕ :=
  if macSduSize ≤ macSduSubheaderLengthThres + minMacSduSubheaderSize - 1 then
    macSduSize - minMacSduSubheaderSize
  else macSduSize - maxMacSduSubheaderSize

def lcidTaCmd : ℕ := 0b111101
def lcidUeConResId : ℕ := 0b111110
def lcidPadding : ℕ := 0b111111

def sizeofCe (lcid : ℕ) : ℕ :=
  if lcid = 0b111001 then 4
  else if lcid = 0b111010 then 1
  else if lcid = lcidTaCmd then 1
  else if lcid = lcidUeConResId then 6
  else 0

structure TaCmdCePayload where
  tagId : ℕ
  taCmd : ℕ
deriving DecidableEq

/-- `ue_con_res_id_t`: six bytes -/
structure UeConResId where
  bytes : Bytes
  length_eq : bytes.length = 6
deriving DecidableEq

/-- `dl_msg_lc_info`: a scheduled subPDU. -/
inductive SchedSubPdu where
  | sdu (lcid schedBytes : ℕ)
  | ueConResId
  | taCmd (ce : TaCmdCePayload)
deriving DecidableEq

def SchedSubPdu.size : SchedSubPdu → ℕ
  | .sdu _ schedBytes => getMacSduRequiredBytes schedBytes
  | .ueConResId => fixedSizedMacCeSubheaderSize + sizeofCe lcidUeConResId
  | .taCmd _ => fixedSizedMacCeSubheaderSize + sizeofCe lcidTaCmd

/-- The SDU builders of the bearers, and the contention resolution identity. -/
structure Bearers (σ : Type) where
  onNewTxSdu : σ → (lcid n : ℕ) → Bytes × σ
  /-- a bearer writes at most as many bytes as it was given -/
  length_le : ∀ s lcid n, (onNewTxSdu s lcid n).1.length ≤ n
  conResId : UeConResId

/-! ### `dl_sch_pdu` -/

/-- A write of `b` at `off`; `none` when it falls outside the buffer. -/
def writeAt (buf : Bytes) (off : ℕ) (b : Bytes) : Option Bytes :=
  if off + b.length ≤ buf.length then some (buf.take off ++ b ++ buf.drop (off + b.length)) else none

structure DlSchPdu where
  pdu : Bytes
  byteOffset : ℕ

namespace DlSchPdu

variable (p : DlSchPdu)

def nofEmptyBytes : ℕ := p.pdu.length - p.byteOffset

def put (b : Bytes) : Option DlSchPdu :=
  (writeAt p.pdu p.byteOffset b).map fun buf => { p with pdu := buf, byteOffset := p.byteOffset + b.length }

def subheader (f : Bool) (lcid headerLen payloadLen : ℕ) : Bytes :=
  byte (f.toNat * 2 ^ 6 + lcid % 2 ^ 6) ::
    (if headerLen = 3 then [byte (payloadLen % 2 ^ 16 / 2 ^ 8), byte (payloadLen % 2 ^ 8)]
    else if headerLen = 2 then [byte (payloadLen % 2 ^ 8)]
    else [])

def encodeSubheader (f : Bool) (lcid headerLen payloadLen : ℕ) : Option DlSchPdu :=
  p.put (subheader f lcid headerLen payloadLen)

def minMacSubhdrAndSduSpaceRequired (lcid : ℕ) : ℕ := minMacSduSubheaderSize + 1 + (if lcid ≠ 0 then 2 else 0)

structure MacSduEncoder where
  lcid : ℕ
  subhrLen : ℕ
  maxSduSize : ℕ

/-- `get_sdu_encoder`; `none` is an invalid encoder. -/
def getSduEncoder (lcid sduPayloadLenEstimate : ℕ) : Option MacSduEncoder :=
  if sduPayloadLenEstimate = 0 then none
  else if p.nofEmptyBytes < minMacSubhdrAndSduSpaceRequired lcid then none
  else
    let spaceEstim := min p.nofEmptyBytes (getMacSduRequiredBytes sduPayloadLenEstimate)
    let sduSpaceEstim := getMacSduPayloadSize spaceEstim
    some { lcid := lcid, subhrLen := getMacSduSubheaderSize sduSpaceEstim, maxSduSize := sduSpaceEstim }

def shiftSdu (n : ℕ) : Option DlSchPdu :=
  (writeAt p.pdu (p.byteOffset + minMacSduSubheaderSize)
    (slice p.pdu (p.byteOffset + minMacSduSubheaderSize + 1) n)).map fun buf => { p with pdu := buf }

/-- `encode_sdu` for an SDU of `n` bytes; 0 when nothing was encoded. -/
def encodeSdu (enc : MacSduEncoder) (n : ℕ) : Option (ℕ × DlSchPdu) :=
  if n = 0 ∨ n > enc.maxSduSize then some (0, p)
  else do
    let changed := getMacSduSubheaderSize n ≠ enc.subhrLen
    let p ← if changed then p.shiftSdu n else some p
    let subhrLen := if changed then minMacSduSubheaderSize else enc.subhrLen
    let p ← p.encodeSubheader (subhrLen > minMacSduSubheaderSize) enc.lcid subhrLen n
    some (subhrLen + n, { p with byteOffset := p.byteOffset + n })

def writeSdu (enc : MacSduEncoder) (b : Bytes) : Option DlSchPdu :=
  (writeAt p.pdu (p.byteOffset + enc.subhrLen) b).map fun buf => { p with pdu := buf }

def addUeConResId (id : UeConResId) : Option DlSchPdu := do
  let p ← p.encodeSubheader false lcidUeConResId 1 (sizeofCe lcidUeConResId)
  p.put id.bytes

def tagCmdByte (ce : TaCmdCePayload) : UInt8 := byte (ce.tagId / 2 ^ 6 % 4 * 2 ^ 6 + ce.taCmd % 2 ^ 6)

def addTagCmd (ce : TaCmdCePayload) : Option DlSchPdu := do
  let p ← p.encodeSubheader false lcidTaCmd 1 (sizeofCe lcidTaCmd)
  p.put [tagCmdByte ce]

def addPadding (len : ℕ) : Option DlSchPdu := do
  let p ← p.encodeSubheader false lcidPadding 1 (len - 1)
  p.put (List.replicate (len - 1) 0)

end DlSchPdu

/-! ### `dl_sch_pdu_assembler` -/

open DlSchPdu

def assembleSdusLoop {σ : Type} (bs : Bearers σ) (lcid : ℕ) : ℕ → ℕ → σ → DlSchPdu → Option (σ × DlSchPdu)
  | 0, _, s, p => some (s, p)
  | fuel + 1, remBytes, s, p =>
    if remBytes < minMacSubhdrAndSduSpaceRequired lcid then some (s, p)
    else
      match p.getSduEncoder lcid (getMacSduPayloadSize remBytes) with
      | none => some (s, p)
      | some enc => do
        let r := bs.onNewTxSdu s lcid enc.maxSduSize
        let p ← p.writeSdu enc r.1
        if r.1.length = 0 then some (r.2, p)
        else do
          let q ← p.encodeSdu enc r.1.length
          if q.1 = 0 then some (r.2, q.2)
          -- the assertion on the number of packed bytes
          else if remBytes < q.1 then none
          else assembleSdusLoop bs lcid fuel (remBytes - q.1) r.2 q.2

def assembleSdus {σ : Type} (bs : Bearers σ) (lcid schedBytes : ℕ) (s : σ) (p : DlSchPdu) : Option (σ × DlSchPdu) :=
  let totalSpace := min (getMacSduRequiredBytes schedBytes) p.nofEmptyBytes
  assembleSdusLoop bs lcid totalSpace totalSpace s p

def assembleSubPdu {σ : Type} (bs : Bearers σ) (s : σ) (p : DlSchPdu) : SchedSubPdu → Option (σ × DlSchPdu)
  | .sdu lcid schedBytes => assembleSdus bs lcid schedBytes s p
  | .ueConResId => (p.addUeConResId bs.conResId).map fun p => (s, p)
  | .taCmd ce => (p.addTagCmd ce).map fun p => (s, p)

def assembleSubPdus {σ : Type} (bs : Bearers σ) : List SchedSubPdu → σ → DlSchPdu → Option (σ × DlSchPdu)
  | [], s, p => some (s, p)
  | x :: rest, s, p => (assembleSubPdu bs s p x).bind fun r => assembleSubPdus bs rest r.1 r.2

/-- The PDU, and the state of the bearers after it; a PDU that does not fit is zeroed. -/
def assembleNewtxPdu {σ : Type} (bs : Bearers σ) (s : σ) (sched : List SchedSubPdu) (buf : Bytes)
    (tbSizeBytes : ℕ) : Option (σ × DlSchPdu) := do
  let r ← assembleSubPdus bs sched s { pdu := buf.take tbSizeBytes, byteOffset := 0 }
  if r.2.byteOffset < tbSizeBytes then (r.2.addPadding (tbSizeBytes - r.2.byteOffset)).map fun p => (r.1, p)
  else if r.2.byteOffset > tbSizeBytes then
    some (r.1, { r.2 with pdu := List.replicate tbSizeBytes 0 })
  else some r

end SrsRan.Mac
