import SrsRan.Support.Bytes
import Mathlib.Data.List.TakeDrop

/-!
# UL-SCH MAC PDUs

`mac_ul_sch_pdu::unpack`, which splits a PDU received over the air into subPDUs, and the decoding of the buffer
status reports among them.

The reader is the list of the bytes that it has not consumed.  `unpack` returns the list of subPDUs that the
object holds afterwards and the error, if there is one.
-/

namespace SrsRan.Mac

open Support

/-! ### `lcid_ul_sch_t` -/

namespace LcidUlSch

def ccchSize64 : ℕ := 0b000000
def lcid1 : ℕ := 1
def lcid32 : ℕ := 32
def minReserved : ℕ := 33
def maxReserved : ℕ := 51
def ccchSize48 : ℕ := 0b110100
def sePhr : ℕ := 0b111001
def crnti : ℕ := 0b111010
def shortTruncBsr : ℕ := 0b111011
def longTruncBsr : ℕ := 0b111100
def shortBsr : ℕ := 0b111101
def longBsr : ℕ := 0b111110
def padding : ℕ := 0b111111

def isCcch (lcid : ℕ) : Bool := lcid = ccchSize48 || lcid = ccchSize64

def isSdu (lcid : ℕ) : Bool := lcid ≤ lcid32 && lcid ≥ lcid1

def isValidLcid (lcid : ℕ) : Bool := lcid ≤ padding && (lcid < minReserved || lcid > maxReserved)

def isVarLenCe (lcid : ℕ) : Bool := lcid = longTruncBsr || lcid = longBsr

def hasLengthField (lcid : ℕ) : Bool := if isCcch lcid then false else isSdu lcid || isVarLenCe lcid

def sizeofCe (lcid : ℕ) : ℕ :=
  if lcid = ccchSize48 then 6
  else if lcid = ccchSize64 then 8
  else if lcid = crnti then 2
  else if lcid = shortBsr ∨ lcid = shortTruncBsr then 1
  else if lcid = sePhr then 2
  else if lcid = longBsr ∨ lcid = longTruncBsr then 1
  else 0

end LcidUlSch

open LcidUlSch

/-! ### `mac_ul_sch_subpdu` -/

/-- `mac_ul_sch_subpdu`. -/
structure UlSchSubPdu where
  fBit : Bool
  lcid : ℕ
  headerLength : ℕ
  payload : Bytes
deriving DecidableEq

/-- The errors of `unpack`. -/
inductive UnpackError where
  /-- "Empty subPDU." -/
  | emptySubPdu
  /-- "Unrecognized lcid={}." -/
  | unrecognizedLcid (lcid : ℕ)
  /-- "Not enough bytes remaining in PDU to decode length prefix." -/
  | lengthField
  /-- "Not enough bytes remaining in PDU to decode SDU payload ({} < {})." -/
  | sduPayload (remaining length : ℕ)
  /-- "Not enough bytes remaining in PDU to decode CE payload ({} < {})." -/
  | cePayload (remaining length : ℕ)
deriving DecidableEq

def splitPayload (fBit : Bool) (lcid headerLength len : ℕ) (reader : Bytes) (e : ℕ → ℕ → UnpackError) :
    Except UnpackError (UlSchSubPdu × Bytes) :=
  if reader.length < len then .error (e reader.length len)
  else .ok ({ fBit := fBit, lcid := lcid, headerLength := headerLength, payload := reader.take len }, reader.drop len)

def unpackVarLen (fBit : Bool) (lcid : ℕ) (reader : Bytes) : Except UnpackError (UlSchSubPdu × Bytes) :=
  match fBit, reader with
  | false, l :: reader => splitPayload false lcid 2 l.toNat reader .sduPayload
  | true, l :: l' :: reader => splitPayload true lcid 3 (l.toNat * 2 ^ 8 + l'.toNat) reader .sduPayload
  | _, _ => .error .lengthField

def UlSchSubPdu.unpack : Bytes → Except UnpackError (UlSchSubPdu × Bytes)
  | [] => .error .emptySubPdu
  | b :: reader =>
    let fBit : Bool := b.toNat / 2 ^ 6 % 2 = 1
    let lcid := b.toNat % 2 ^ 6
    if !isValidLcid lcid then .error (.unrecognizedLcid lcid)
    else if hasLengthField lcid then unpackVarLen fBit lcid reader
    else if lcid = padding then
      -- the rest of the PDU
      .ok ({ fBit := fBit, lcid := lcid, headerLength := 1, payload := reader }, [])
    else splitPayload fBit lcid 1 (LcidUlSch.sizeofCe lcid) reader .cePayload

def maxSubPdusPerPdu : ℕ := 4096

def unpackLoop : ℕ → Bytes → Except UnpackError (List UlSchSubPdu)
  | _, [] => .ok []
  | 0, _ :: _ => .ok []
  | n + 1, b :: reader => do
    let r ← UlSchSubPdu.unpack (b :: reader)
    let xs ← unpackLoop n r.2
    .ok (r.1 :: xs)

/-- `mac_ul_sch_pdu::unpack`: the subPDUs afterwards, and the error. -/
def unpackUlSch (payload : Bytes) : List UlSchSubPdu × Option UnpackError :=
  match unpackLoop maxSubPdusPerPdu payload with
  | .ok xs => (xs, none)
  | .error e => ([], some e)

/-! ### Buffer status reports -/

structure LcgBsrReport where
  lcgId : ℕ
  bufferSize : ℕ
deriving DecidableEq

/-- `bsr_format`, of the long reports -/
inductive LongBsrFormat where
  | long
  | longTrunc
deriving DecidableEq

def maxNofLcgs : ℕ := 8

/-- `decode_sbsr`; `none` is a read outside of the payload. -/
def decodeSbsr : Bytes → Option LcgBsrReport
  | [] => none
  | b :: _ => some { lcgId := b.toNat / 2 ^ 5, bufferSize := b.toNat % 2 ^ 5 }

def lbsrLoop (format : LongBsrFormat) (bitmap : ℕ) : ℕ → ℕ → Bytes → Option (List LcgBsrReport)
  | 0, _, _ => some []
  | n + 1, i, reader =>
    if bitmap.testBit i then
      match reader with
      | b :: reader =>
        if b.toNat = 255 then none
        else (lbsrLoop format bitmap n (i + 1) reader).map ({ lcgId := i, bufferSize := b.toNat } :: ·)
      | [] =>
        match format with
        | .longTrunc => (lbsrLoop format bitmap n (i + 1) []).map ({ lcgId := i, bufferSize := 64 } :: ·)
        | .long => none
    else
      match format with
      | .longTrunc => (lbsrLoop format bitmap n (i + 1) reader).map ({ lcgId := i, bufferSize := 0 } :: ·)
      | .long => lbsrLoop format bitmap n (i + 1) reader

def emptyLbsrReport : List LcgBsrReport := (List.range maxNofLcgs).map fun i => { lcgId := i, bufferSize := 0 }

/-- `decode_lbsr`; the outer `none` is a read outside of the payload. -/
def decodeLbsr (format : LongBsrFormat) : Bytes → Option (Option (List LcgBsrReport))
  | [] => none
  | b :: reader =>
    if b.toNat = 0 then some (some emptyLbsrReport)
    else some (lbsrLoop format b.toNat maxNofLcgs 0 reader)

/-- The reports of a subPDU with a BSR, as `handle_mac_ce` decodes them. -/
def decodeBsr (x : UlSchSubPdu) : Option (Option (List LcgBsrReport)) :=
  if x.lcid = shortBsr ∨ x.lcid = shortTruncBsr then (decodeSbsr x.payload).map fun r => some [r]
  else if x.lcid = longBsr then decodeLbsr .long x.payload
  else if x.lcid = longTruncBsr then decodeLbsr .longTrunc x.payload
  else some (some [])

/-- `contains_positive_bsr`; `none` is a read outside of a payload. -/
def containsPositiveBsr : List UlSchSubPdu → Option Bool
  | [] => some false
  | x :: rest =>
    match decodeBsr x with
    | none => none
    | some reports =>
      if (reports.getD []).any fun r => r.bufferSize > 0 then some true else containsPositiveBsr rest

end SrsRan.Mac
