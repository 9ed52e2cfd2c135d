import SrsRan.Lib.Post
import SrsRan.Support.BitCoding

/-!
# The PER primitives

`bit_ref` packs numbers, octets, length determinants and octet strings into a buffer, and `cbit_ref` unpacks them.  What was
packed is read back iff every call was `Readable`.
-/

namespace SrsRan.Asn1

open Lib Lib.Run Support List Option Nat
open BitString (len_pushAll ofBytes ofBytes_append push_zero width width_octets)
open BitString (octets width)

/-! ### Packing -/

namespace BitRef

variable (e : BitEncoder)

def distance : ℕ := 8 * (e.bytes.length - if e.offset = 0 then 0 else 1) + e.offset

/-- `bit_ref::pack`; without a result, its assertion fails -/
def pack (e : BitEncoder) (val nBits : ℕ) : Option BitEncoder :=
  if nBits < 64 then some (e.pack val nBits) else none

def packBytes (bytes : Bytes) : BitEncoder :=
  if bytes.isEmpty then e
  else if e.offset = 0 then { e with bytes := e.bytes ++ bytes }
  else e.packAll (BitString.octets bytes)

def alignBytesZero : BitEncoder := { e with offset := 0 }

def packLength (val : ℕ) (aligned : Bool) : Option BitEncoder :=
  if !aligned then
    if val < 128 then some (e.pack val 8)
    else if val < 16384 then some ((e.pack 0b10 2).pack val 14)
    else none
  else if val > 65536 then none
  else
    let e := alignBytesZero e
    if val < 128 then some (e.pack val 8)
    else if val < 16384 then some ((e.pack 0b10 2).pack val 14)
    else
      let m := val / 16384
      some (((e.pack 0b11 2).pack m 6).pack (val - m * 16384) 16)

/-- `unbounded_octstring::pack`; the parameter of `pack_length` has 32 bits -/
def packOctstring (octets : Bytes) (aligned : Bool) : Option BitEncoder :=
  (packLength e (octets.length % 2 ^ 32) aligned).map fun e => e.packAll (BitString.octets octets)

end BitRef

/-- The calls of a packing function. -/
inductive PackCall where
  | pack (val nBits : ℕ)
  | packBytes (bytes : Bytes)
  | alignBytesZero
  | packLength (val : ℕ) (aligned : Bool)
  | packOctstring (octets : Bytes) (aligned : Bool)
deriving DecidableEq

def PackCall.run (e : BitEncoder) : PackCall → Option BitEncoder
  | .pack val nBits => BitRef.pack e val nBits
  | .packBytes bytes => some (BitRef.packBytes e bytes)
  | .alignBytesZero => some (BitRef.alignBytesZero e)
  | .packLength val aligned => BitRef.packLength e val aligned
  | .packOctstring octets aligned => BitRef.packOctstring e octets aligned

def packCalls (e : BitEncoder) (calls : List PackCall) : Option BitEncoder := calls.foldlM PackCall.run e

/-! ### Unpacking -/

inductive DecodeFault where
  | decodeFail
  | assertion
  | outOfBounds
deriving DecidableEq

def DecodeFault.ofBit : BitFault → DecodeFault
  | .atEnd => .decodeFail
  | .outOfBounds => .outOfBounds

namespace CbitRef

variable (d : BitDecoder)

def distance : ℕ := d.offset + 8 * d.it

def advance (n : ℕ) : Except DecodeFault BitDecoder :=
  if d.it + n ≤ d.buffer.length then .ok { d with it := d.it + n } else .error .outOfBounds

def unpack (d : BitDecoder) (nBits : ℕ) : Except DecodeFault (ℕ × BitDecoder) :=
  if nBits ≤ 64 then (d.unpack nBits).mapError .ofBit else .error .assertion

def unpackOctets : (n : ℕ) → BitDecoder → Except DecodeFault (Bytes × BitDecoder)
  | 0, d => .ok ([], d)
  | n + 1, d => do
    let (b, d) ← unpack d 8
    let (bs, d) ← unpackOctets n d
    return (byte b :: bs, d)

/-- `cbit_ref::unpack_bytes`. If aligned, the bytes of the whole buffer are copied. -/
def unpackBytes (size : ℕ) : Except DecodeFault (Bytes × BitDecoder) :=
  if size = 0 then .ok ([], d)
  else if size > d.buffer.length - d.it then .error .decodeFail
  else if d.offset = 0 then
    if d.buffer.length > size then .error .outOfBounds
    else do
      let bytes := d.buffer
      let d ← advance d size
      return (bytes, d)
  else unpackOctets size d

def alignBytes : Except DecodeFault BitDecoder :=
  if d.offset ≠ 0 then
    if d.it = d.buffer.length then .error .decodeFail else .ok { d with it := d.it + 1, offset := 0 }
  else .ok d

/-- `cbit_ref::advance_bits`; the sums have 32 bits -/
def advanceBits (nBits : UInt32) : Except DecodeFault BitDecoder :=
  let sum := (d.offset + nBits.toNat) % 2 ^ 32
  let extraBits := sum % 8
  let bytesRequired := (sum + 7) % 2 ^ 32 / 8
  let bytesOffset := sum / 8
  if bytesRequired > d.buffer.length - d.it then .error .decodeFail
  else do
    let d ← advance d bytesOffset
    return { d with offset := extraBits }

/-- `cbit_ref::advance_bytes`; the sum has 32 bits -/
def advanceBytes (bytes : UInt32) : Except DecodeFault BitDecoder :=
  if (bytes.toNat + if d.offset ≠ 0 then 1 else 0) % 2 ^ 32 > d.buffer.length - d.it then .error .decodeFail
  else advance d bytes.toNat

def unpackLength (aligned : Bool) : Except DecodeFault (ℕ × BitDecoder) :=
  if !aligned then do
    let (ext, d) ← unpack d 1
    if ext = 0 then unpack d 7
    else
      let (ext, d) ← unpack d 1
      if ext = 0 then unpack d 14 else .error .decodeFail
  else do
    let d ← alignBytes d
    let (val, d) ← unpack d 8
    if val < 128 then return (val, d)
    else
      let val := val - 128
      if val < 64 then
        let (valOctet2, d) ← unpack d 8
        return (val <<< 8 + valOctet2, d)
      else .error .decodeFail

def unpackOctstring (aligned : Bool) : Except DecodeFault (Bytes × BitDecoder) := do
  let (len, d) ← unpackLength d aligned
  unpackOctets len d

end CbitRef

/-- The calls of an unpacking function. -/
inductive UnpackCall where
  | unpack (nBits : ℕ)
  | unpackBytes (size : ℕ)
  | alignBytes
  | unpackLength (aligned : Bool)
  | unpackOctstring (aligned : Bool)
  | advanceBits (nBits : UInt32)
  | advanceBytes (bytes : UInt32)
deriving DecidableEq

inductive Value where
  | none
  | number (n : ℕ)
  | bytes (bytes : Bytes)
deriving DecidableEq

def UnpackCall.run (d : BitDecoder) : UnpackCall → Except DecodeFault (Value × BitDecoder)
  | .unpack nBits => (CbitRef.unpack d nBits).map fun r => (.number r.1, r.2)
  | .unpackBytes size => (CbitRef.unpackBytes d size).map fun r => (.bytes r.1, r.2)
  | .alignBytes => (CbitRef.alignBytes d).map fun d => (.none, d)
  | .unpackLength aligned => (CbitRef.unpackLength d aligned).map fun r => (.number r.1, r.2)
  | .unpackOctstring aligned => (CbitRef.unpackOctstring d aligned).map fun r => (.bytes r.1, r.2)
  | .advanceBits nBits => (CbitRef.advanceBits d nBits).map fun d => (.none, d)
  | .advanceBytes bytes => (CbitRef.advanceBytes d bytes).map fun d => (.none, d)

def unpackCalls : BitDecoder → List UnpackCall → Except DecodeFault (List Value × BitDecoder)
  | d, [] => .ok ([], d)
  | d, call :: calls => do
    let (v, d) ← call.run d
    let (vs, d) ← unpackCalls d calls
    return (v :: vs, d)

namespace PackCall

/-- The call that reads back what this one packs. -/
def inverse : PackCall → UnpackCall
  | .pack _ nBits => .unpack nBits
  | .packBytes bytes => .unpackBytes bytes.length
  | .alignBytesZero => .alignBytes
  | .packLength _ aligned => .unpackLength aligned
  | .packOctstring _ aligned => .unpackOctstring aligned

def value : PackCall → Value
  | .pack val nBits => .number (val % 2 ^ nBits)
  | .packBytes bytes => .bytes bytes
  | .alignBytesZero => .none
  | .packLength val _ => .number val
  | .packOctstring octets _ => .bytes octets

/-- The decoder reads back what the call packs. -/
def Readable (total offset : ℕ) : PackCall → Prop
  | .packBytes bytes => bytes = [] ∨ offset ≠ 0 ∨ bytes.length = total
  | .packLength val aligned => aligned = true → val < 16384
  | .packOctstring octets _ => octets.length < 16384
  | _ => True

instance (total offset : ℕ) : (call : PackCall) → Decidable (call.Readable total offset)
  | .pack .. => .isTrue trivial
  | .packBytes bytes => inferInstanceAs (Decidable (bytes = [] ∨ offset ≠ 0 ∨ bytes.length = total))
  | .alignBytesZero => .isTrue trivial
  | .packLength val aligned => inferInstanceAs (Decidable (aligned = true → val < 16384))
  | .packOctstring octets _ => inferInstanceAs (Decidable (octets.length < 16384))

end PackCall

/-- Every call is readable at the position it packs at. -/
def AllReadable (total : ℕ) : BitEncoder → List PackCall → Prop
  | _, [] => True
  | e, call :: calls => call.Readable total e.offset ∧ ∀ e', call.run e = some e' → AllReadable total e' calls

/-- The calls that unpack return what was packed, and end at the same distance. -/
def RoundTrips (calls : List PackCall) (e : BitEncoder) : Prop :=
  ∃ d, unpackCalls ⟨e.bytes, 0, 0⟩ (calls.map PackCall.inverse) = .ok (calls.map PackCall.value, d) ∧
    CbitRef.distance d = BitRef.distance e

/-- The call stays within the buffer and the destination. -/
def UnpackCall.Contained (d : BitDecoder) : UnpackCall → Prop
  | .unpackBytes size => size = 0 ∨ d.offset ≠ 0 ∨ d.buffer.length < d.it + size ∨ size = d.buffer.length
  | .advanceBits nBits =>
    (d.offset + nBits.toNat) % 2 ^ 32 + 7 < 2 ^ 32 ∨
      d.it + (d.offset + nBits.toNat) % 2 ^ 32 / 8 ≤ d.buffer.length
  | .advanceBytes bytes => d.offset = 0 ∨ bytes.toNat + 1 < 2 ^ 32 ∨ d.it + bytes.toNat ≤ d.buffer.length
  | _ => True

/-- Every call reads only bytes of the buffer. -/
def AllContained : BitDecoder → List UnpackCall → Prop
  | _, [] => True
  | d, call :: calls => call.Contained d ∧ ∀ v d', call.run d = .ok (v, d') → AllContained d' calls

/-! ### The fields that a call packs -/

def padding (p : ℕ) : ℕ := (8 - p % 8) % 8

def lengthFields (val : ℕ) : List (ℕ × ℕ) :=
  if val < 128 then [(val, 8)]
  else if val < 16384 then [(0b10, 2), (val, 14)]
  else [(0b11, 2), (val / 16384, 6), (val - val / 16384 * 16384, 16)]

def determinant (p val : ℕ) (aligned : Bool) : List (ℕ × ℕ) :=
  if aligned then (0, padding p) :: lengthFields val else lengthFields val

def PackCall.fields (p : ℕ) : PackCall → List (ℕ × ℕ)
  | .pack val nBits => [(val, nBits)]
  | .packBytes bytes => BitString.octets bytes
  | .alignBytesZero => [(0, padding p)]
  | .packLength val aligned => determinant p val aligned
  | .packOctstring octets aligned => determinant p (octets.length % 2 ^ 32) aligned ++ BitString.octets octets

variable {e e' : BitEncoder} {s : BitString}

lemma distance_of_holds (h : e.Holds s) : BitRef.distance e = s.len := by
  have hlen := h.length
  have hoff := h.1
  unfold BitRef.distance
  split <;> omega

lemma holds_alignBytesZero (h : e.Holds s) : (BitRef.alignBytesZero e).Holds (s.push (padding s.len) 0) := by
  have hbytes := h.bytes
  have hoff := h.1
  refine ⟨?_, 0, by decide, ?_⟩
  · show 0 = (s.len + padding s.len) % 8
    unfold padding
    omega
  · rw [push_zero]
    show ofBytes e.bytes = _
    rw [hbytes, hoff]
    rfl

lemma holds_packBytes (h : e.Holds s) (bytes : Bytes) :
    (BitRef.packBytes e bytes).Holds (s.pushAll (octets bytes)) := by
  unfold BitRef.packBytes
  split
  next hnil =>
    rw [isEmpty_iff.mp hnil]
    exact h
  · split
    next h0 =>
      have hbytes := h.bytes
      rw [h0, Nat.sub_zero, mod_self, push_zero] at hbytes
      refine ⟨?_, 0, by decide, ?_⟩
      · rw [len_pushAll, width_octets]
        have := h.1
        show e.offset = _
        omega
      · rw [BitString.push_zero]
        rw [BitString.ofBytes_append, hbytes]
    · exact h.packAll _

variable {al : Bool} {call : PackCall} {bytes : Bytes}

lemma holds_packLength (h : e.Holds s) {val : ℕ} (hrun : BitRef.packLength e val al = some e') :
    e'.Holds (s.pushAll (determinant s.len val al)) := by
  cases al with
  | false =>
    simp only [BitRef.packLength, Bool.not_false, if_true] at hrun
    simp only [determinant, lengthFields, Bool.false_eq_true, if_false]
    split at hrun
    · cases hrun
      rw [if_pos ‹_›]
      exact h.pack _ _
    · rw [if_neg ‹_›]
      split at hrun
      · cases hrun
        rw [if_pos ‹_›]
        exact (h.pack _ _).pack _ _
      · cases hrun
  | true =>
    have ha := holds_alignBytesZero h
    simp only [BitRef.packLength, Bool.not_true, Bool.false_eq_true, if_false] at hrun
    simp only [determinant, lengthFields, if_true]
    split at hrun
    · cases hrun
    · split at hrun
      · cases hrun
        rw [if_pos ‹_›]
        exact ha.pack _ _
      · rw [if_neg ‹_›]
        split at hrun
        · cases hrun
          rw [if_pos ‹_›]
          exact (ha.pack _ _).pack _ _
        · cases hrun
          rw [if_neg ‹_›]
          exact ((ha.pack _ _).pack _ _).pack _ _

/-- **A call appends its fields.** -/
lemma holds_call (h : e.Holds s) (call : PackCall) (hrun : call.run e = some e') :
    e'.Holds (s.pushAll (call.fields s.len)) := by
  cases call with
  | pack val nBits =>
    simp only [PackCall.run, BitRef.pack] at hrun
    split at hrun
    · cases hrun
      exact h.pack val nBits
    · cases hrun
  | packBytes bytes =>
    cases hrun
    exact holds_packBytes h bytes
  | alignBytesZero =>
    cases hrun
    exact holds_alignBytesZero h
  | packLength val al => exact holds_packLength h hrun
  | packOctstring octets al =>
    simp only [PackCall.run, BitRef.packOctstring, map_eq_some_iff] at hrun
    obtain ⟨e1, hlength, rfl⟩ := hrun
    show BitEncoder.Holds _ (s.pushAll (_ ++ _))
    rw [BitString.pushAll_append]
    exact (holds_packLength h hlength).packAll _

lemma packCalls_cons {calls : List PackCall} (h : packCalls e (call :: calls) = some e') :
    ∃ e1, call.run e = some e1 ∧ packCalls e1 calls = some e' := by
  rw [packCalls, foldlM_cons] at h
  exact bind_eq_some_iff.mp h

lemma holds_packCalls (h : e.Holds s) (calls : List PackCall) (hrun : packCalls e calls = some e') :
    ∃ t, e'.Holds t ∧ s.IsPrefix t := by
  induction calls generalizing e s with
  | nil =>
    cases hrun
    exact ⟨s, h, .refl s⟩
  | cons call calls ih =>
    obtain ⟨e1, hcall, hcalls⟩ := packCalls_cons hrun
    obtain ⟨t, ht, hpre⟩ := ih (holds_call h call hcall) hcalls
    exact ⟨t, ht, (BitString.isPrefix_pushAll _ _).trans hpre⟩

/-! ### Finding the fields -/

open BitDecoder (ofPos Reads)

variable {buffer : Bytes} {p val : ℕ} {fields : List (ℕ × ℕ)}

lemma distance_ofPos (buffer : Bytes) (p : ℕ) : CbitRef.distance (ofPos buffer p) = p := by
  show p % 8 + 8 * (p / 8) = p
  omega

lemma reads_unpack {nBits : ℕ} (h : Reads buffer p ((val, nBits) :: fields)) (hn : nBits ≤ 64) :
    CbitRef.unpack (ofPos buffer p) nBits = .ok (val % 2 ^ nBits, ofPos buffer (p + nBits)) := by
  rw [CbitRef.unpack, if_pos hn, h.unpack]
  rfl

lemma reads_alignBytes (h : Reads buffer p ((0, padding p) :: fields)) :
    CbitRef.alignBytes (ofPos buffer p) = .ok (ofPos buffer (p + padding p)) := by
  have hle := h.1.1
  unfold padding at hle ⊢
  have hlt := mod_lt p (by decide : 8 > 0)
  by_cases h0 : p % 8 = 0
  · have hoff : (ofPos buffer p).offset = 0 := h0
    rw [CbitRef.alignBytes, if_neg (not_not.mpr hoff), h0]
    rfl
  · have hoff : (ofPos buffer p).offset ≠ 0 := h0
    have hit : (ofPos buffer p).it ≠ (ofPos buffer p).buffer.length := by
      show p / 8 ≠ buffer.length
      omega
    rw [CbitRef.alignBytes, if_pos hoff, if_neg hit, Except.ok.injEq]
    simp only [ofPos, BitDecoder.mk.injEq, true_and]
    omega

lemma reads_unpackOctets {n : ℕ} (h : Reads buffer p (octets bytes)) (hn : n ≤ bytes.length) :
    CbitRef.unpackOctets n (ofPos buffer p) = .ok (bytes.take n, ofPos buffer (p + 8 * n)) := by
  induction n generalizing p bytes with
  | zero => rfl
  | succ n ih =>
    obtain _ | ⟨b, bytes⟩ := bytes
    · cases hn
    · have hrest := ih h.2 (le_of_succ_le_succ hn)
      rw [CbitRef.unpackOctets, reads_unpack h (by decide), ok_bind]
      simp only [hrest, ok_bind]
      have hb : byte (b.toNat % 2 ^ 8) = b := by
        rw [mod_eq_of_lt b.toNat_lt]
        exact UInt8.ofNat_toNat
      rw [hb, show p + 8 + 8 * n = p + 8 * (n + 1) by ring]
      rfl

lemma reads_unpackLength_unaligned (h : Reads buffer p (lengthFields val)) (hval : val < 16384) :
    CbitRef.unpackLength (ofPos buffer p) false = .ok (val, ofPos buffer (p + width (lengthFields val))) := by
  simp only [CbitRef.unpackLength, Bool.not_false, if_true]
  unfold lengthFields at h ⊢
  split at h
  next hlt =>
    rw [if_pos hlt]
    have hbit := h.split 1 7
    rw [reads_unpack hbit (by decide), ok_bind, show val / 2 ^ 7 % 2 ^ 1 = 0 by omega]
    simp only [if_true]
    rw [reads_unpack hbit.2 (by decide), mod_eq_of_lt (show val < 2 ^ 7 from hlt)]
    rfl
  next hge =>
    rw [if_neg hge, if_pos hval]
    have hbit := h.split 1 1
    rw [reads_unpack hbit (by decide), ok_bind]
    simp only [show 0b10 / 2 ^ 1 % 2 ^ 1 ≠ 0 by decide, if_false]
    rw [reads_unpack hbit.2 (by decide), ok_bind]
    simp only [show 0b10 % 2 ^ 1 = 0 by decide, if_true]
    rw [reads_unpack hbit.2.2 (by decide), mod_eq_of_lt (show val < 2 ^ 14 from hval)]
    rfl

lemma reads_unpackLength_aligned (h : Reads buffer p ((0, padding p) :: lengthFields val)) (hval : val ≤ 65536) :
    CbitRef.unpackLength (ofPos buffer p) true =
      if val < 16384 then .ok (val, ofPos buffer (p + width ((0, padding p) :: lengthFields val)))
      else .error .decodeFail := by
  simp only [CbitRef.unpackLength, Bool.not_true, Bool.false_eq_true, if_false]
  rw [reads_alignBytes h, ok_bind]
  have hlen : p + width ((0, padding p) :: lengthFields val) =
      p + padding p + width (lengthFields val) := (Nat.add_assoc ..).symm
  rw [hlen]
  replace h := h.2
  unfold lengthFields at h ⊢
  split at h
  next hlt =>
    rw [if_pos hlt, if_pos (by omega), reads_unpack h (by decide), ok_bind, mod_eq_of_lt (by omega : val < 2 ^ 8)]
    simp only
    rw [if_pos hlt]
    rfl
  next hge =>
    rw [if_neg hge]
    split at h
    · -- the first octet has the two bits and the six high bits of the length
      rename_i hlt
      rw [if_pos hlt, if_pos hlt]
      have hoctets := Reads.join (p := p + padding p) (a := 0b10) (m := 2) (n := 6) ⟨h.1, h.2.split 6 8⟩
      have h6 : val / 2 ^ 8 < 2 ^ 6 := by omega
      rw [mod_eq_of_lt h6] at hoctets
      have hfirst : (0b10 * 2 ^ 6 + val / 2 ^ 8) % 2 ^ (2 + 6) = 128 + val / 256 := by omega
      rw [show (8 : ℕ) = 2 + 6 from rfl, reads_unpack hoctets (by decide), ok_bind, hfirst]
      simp only
      rw [if_neg (by omega), if_pos (by omega), reads_unpack hoctets.2 (by decide), ok_bind]
      have hsum : (128 + val / 256 - 128) <<< 8 + val % 2 ^ 8 = val := by
        rw [shiftLeft_eq]
        omega
      rw [hsum]
      rfl
    next hge' =>
      rw [if_neg hge']
      have hoctet := h.join
      have hfirst : (0b11 * 2 ^ 6 + val / 16384 % 2 ^ 6) % 2 ^ (2 + 6) = 192 + val / 16384 := by omega
      rw [show (8 : ℕ) = 2 + 6 from rfl, reads_unpack hoctet (by decide), ok_bind, hfirst]
      simp only
      rw [if_neg (by omega), if_neg (by omega)]

lemma reads_octets_eq (h : Reads buffer 0 (octets bytes)) (hlen : bytes.length = buffer.length) : buffer = bytes := by
  have hself : Reads buffer 0 (octets buffer) := by
    apply BitDecoder.reads_of_isPrefix (s := .nil)
    have happ := ofBytes_append [] buffer
    rw [nil_append] at happ
    rw [happ]
    exact .refl _
  have h1 := reads_unpackOctets h hlen.ge
  rw [reads_unpackOctets hself le_rfl, take_length, ← hlen, take_length] at h1
  cases h1
  rfl

lemma reads_unpackBytes (h : Reads buffer p (octets bytes)) :
    CbitRef.unpackBytes (ofPos buffer p) bytes.length =
      if bytes = [] ∨ p % 8 ≠ 0 ∨ bytes.length = buffer.length then .ok (bytes, ofPos buffer (p + 8 * bytes.length))
      else .error .outOfBounds := by
  have hle : p + 8 * bytes.length ≤ 8 * buffer.length := by
    rw [← append_nil (octets bytes)] at h
    have := h.append.2.le
    rwa [width_octets] at this
  unfold CbitRef.unpackBytes
  by_cases hnil : bytes = []
  · subst hnil
    simp
  · have hpos : bytes.length ≠ 0 := by rwa [Ne, length_eq_zero_iff]
    have hsize : ¬ bytes.length > (ofPos buffer p).buffer.length - (ofPos buffer p).it := by
      show ¬ bytes.length > buffer.length - p / 8
      omega
    rw [if_neg hpos, if_neg hsize]
    by_cases h0 : p % 8 = 0
    · have hoff : (ofPos buffer p).offset = 0 := h0
      rw [if_pos hoff]
      by_cases hlen : bytes.length = buffer.length
      · obtain rfl : p = 0 := by omega
        obtain rfl := reads_octets_eq h hlen
        have hcopy : ¬ (ofPos buffer 0).buffer.length > buffer.length := lt_irrefl _
        have hadv : CbitRef.advance (ofPos buffer 0) buffer.length = .ok (ofPos buffer (0 + 8 * buffer.length)) := by
          rw [CbitRef.advance, if_pos (by show 0 + _ ≤ _; omega)]
          simp [ofPos]
        have hcond : buffer = [] ∨ 0 % 8 ≠ 0 ∨ buffer.length = buffer.length := .inr (.inr rfl)
        rw [if_neg hcopy, if_pos hcond]
        simp only [hadv, ok_bind]
        rfl
      · have hcopy : (ofPos buffer p).buffer.length > bytes.length := by
          show buffer.length > bytes.length
          omega
        rw [if_pos hcopy, if_neg (by tauto)]
    · have hoff : (ofPos buffer p).offset ≠ 0 := h0
      rw [if_neg hoff, if_pos (.inr (.inl h0)), reads_unpackOctets h le_rfl, take_length]

lemma packLength_eq_some (h : BitRef.packLength e val al = some e') : if al then val ≤ 65536 else val < 16384 := by
  cases al with
  | false =>
    simp only [BitRef.packLength, Bool.not_false, if_true] at h
    show val < 16384
    split at h
    · omega
    · split at h
      · assumption
      · cases h
  | true =>
    simp only [BitRef.packLength, Bool.not_true, Bool.false_eq_true, if_false] at h
    show val ≤ 65536
    split at h
    · cases h
    · omega

lemma reads_unpackLength (hpack : BitRef.packLength e val al = some e')
    (h : Reads buffer p (determinant p val al)) :
    CbitRef.unpackLength (ofPos buffer p) al =
      if val < 16384 then .ok (val, ofPos buffer (p + width (determinant p val al))) else .error .decodeFail := by
  have hle := packLength_eq_some hpack
  cases al with
  | false =>
    have hlt : val < 16384 := hle
    rw [if_pos hlt]
    exact reads_unpackLength_unaligned h hlt
  | true => exact reads_unpackLength_aligned h hle

/-- **A call that is readable is found.** -/
lemma reads_call_of_readable (hpack : call.run e = some e') (hoff : e.offset = p % 8)
    (h : Reads buffer p (call.fields p)) (hr : call.Readable buffer.length e.offset) :
    call.inverse.run (ofPos buffer p) = .ok (call.value, ofPos buffer (p + width (call.fields p))) := by
  cases call with
  | pack val nBits =>
    have hn : nBits < 64 := by
      by_contra hge
      simp only [PackCall.run, BitRef.pack, if_neg hge] at hpack
      cases hpack
    show (CbitRef.unpack _ _).map _ = _
    rw [reads_unpack h hn.le]
    rfl
  | packBytes bytes =>
    show (CbitRef.unpackBytes _ _).map _ = .ok (_, ofPos buffer (p + width (octets bytes)))
    have hcond : bytes = [] ∨ p % 8 ≠ 0 ∨ bytes.length = buffer.length := by rwa [hoff] at hr
    rw [reads_unpackBytes h, if_pos hcond, BitString.width_octets]
    rfl
  | alignBytesZero =>
    show (CbitRef.alignBytes _).map _ = _
    rw [reads_alignBytes h]
    rfl
  | packLength val al =>
    have hlt : val < 16384 := by
      cases al with
      | false => exact packLength_eq_some hpack
      | true => exact hr rfl
    show (CbitRef.unpackLength _ _).map _ = _
    rw [reads_unpackLength hpack h, if_pos hlt]
    rfl
  | packOctstring octets al =>
    have hlt : octets.length < 16384 := hr
    obtain ⟨hdet, hoctets⟩ := Reads.append h
    simp only [PackCall.run, BitRef.packOctstring, map_eq_some_iff] at hpack
    obtain ⟨e1, hpack, -⟩ := hpack
    have hmod : octets.length % 2 ^ 32 = octets.length := mod_eq_of_lt (by omega)
    show (CbitRef.unpackOctstring _ _).map _ = _
    simp only [CbitRef.unpackOctstring, reads_unpackLength hpack hdet, hmod, if_pos hlt, ok_bind]
    rw [hmod] at hoctets
    rw [reads_unpackOctets hoctets le_rfl, take_length]
    simp only [PackCall.fields, PackCall.value, hmod, width, map_append, List.sum_append]
    have hw := BitString.width_octets octets
    unfold width at hw
    rw [hw, ← Nat.add_assoc]
    rfl

/-- **A call that is not readable is not found.** -/
lemma reads_call_of_not_readable (hpack : call.run e = some e') (hoff : e.offset = p % 8)
    (h : Reads buffer p (call.fields p)) (hr : ¬ call.Readable buffer.length e.offset) (d : BitDecoder) :
    call.inverse.run (ofPos buffer p) ≠ .ok (call.value, d) := by
  intro hrun
  cases call with
  | pack val nBits => exact hr trivial
  | alignBytesZero => exact hr trivial
  | packBytes bytes =>
    change (CbitRef.unpackBytes _ _).map _ = _ at hrun
    have hcond : ¬ (bytes = [] ∨ p % 8 ≠ 0 ∨ bytes.length = buffer.length) := by rwa [hoff] at hr
    rw [reads_unpackBytes h, if_neg hcond] at hrun
    cases hrun
  | packLength val al =>
    have hge : ¬ val < 16384 := fun hlt => hr fun _ => hlt
    change (CbitRef.unpackLength _ _).map _ = _ at hrun
    rw [reads_unpackLength hpack h, if_neg hge] at hrun
    cases hrun
  | packOctstring octets al =>
    have hge : ¬ octets.length < 16384 := hr
    obtain ⟨hdet, hoctets⟩ := Reads.append h
    simp only [PackCall.run, BitRef.packOctstring, map_eq_some_iff] at hpack
    obtain ⟨e1, hpack, -⟩ := hpack
    change (CbitRef.unpackOctstring _ _).map _ = _ at hrun
    simp only [CbitRef.unpackOctstring, reads_unpackLength hpack hdet] at hrun
    by_cases hlt : octets.length % 2 ^ 32 < 16384
    · -- the length has been truncated
      simp only [if_pos hlt, ok_bind] at hrun
      rw [reads_unpackOctets hoctets (mod_le _ _)] at hrun
      have hval : Value.bytes (octets.take (octets.length % 2 ^ 32)) = Value.bytes octets :=
        congrArg Prod.fst (Except.ok.inj hrun)
      have hlen := congrArg List.length (Value.bytes.inj hval)
      rw [length_take] at hlen
      omega
    · rw [if_neg hlt] at hrun
      cases hrun

lemma unpackCalls_cons (d d' : BitDecoder) (call : UnpackCall) (calls : List UnpackCall) (v : Value) (vs : List Value) :
    unpackCalls d (call :: calls) = .ok (v :: vs, d') ↔
      ∃ d1, call.run d = .ok (v, d1) ∧ unpackCalls d1 calls = .ok (vs, d') := by
  rw [unpackCalls]
  cases call.run d with
  | error f => simp [bind, Except.bind]
  | ok r =>
    obtain ⟨v', d1⟩ := r
    simp only [ok_bind]
    cases hcalls : unpackCalls d1 calls with
    | error f => simp [bind, Except.bind, hcalls]
    | ok r =>
      obtain ⟨vs', d2⟩ := r
      simp only [ok_bind, pure, Except.pure, Except.ok.injEq, Prod.mk.injEq, List.cons.injEq]
      constructor
      · rintro ⟨⟨rfl, rfl⟩, rfl⟩
        exact ⟨d1, ⟨rfl, rfl⟩, hcalls⟩
      · rintro ⟨d1, ⟨rfl, rfl⟩, h⟩
        rw [hcalls] at h
        cases h
        exact ⟨⟨rfl, rfl⟩, rfl⟩

lemma unpackCalls_iff (h : e.Holds s) (calls : List PackCall) (hrun : packCalls e calls = some e') :
    (∃ d, unpackCalls (ofPos e'.bytes s.len) (calls.map PackCall.inverse) = .ok (calls.map PackCall.value, d) ∧
      CbitRef.distance d = BitRef.distance e') ↔ AllReadable e'.bytes.length e calls := by
  induction calls generalizing e s with
  | nil =>
    cases hrun
    refine iff_of_true ⟨_, rfl, ?_⟩ trivial
    rw [distance_ofPos, distance_of_holds h]
  | cons call calls ih =>
    obtain ⟨e1, hcall, hcalls⟩ := packCalls_cons hrun
    have h1 := holds_call h call hcall
    have hreads : Reads e'.bytes s.len (call.fields s.len) := by
      obtain ⟨t, ht, hpre⟩ := holds_packCalls h1 calls hcalls
      apply BitDecoder.reads_of_isPrefix
      rw [ht.bytes]
      exact hpre.trans (BitString.isPrefix_push _ _ _)
    have hrest : AllReadable e'.bytes.length e (call :: calls) ↔
        call.Readable e'.bytes.length e.offset ∧ AllReadable e'.bytes.length e1 calls := by
      simp [AllReadable, hcall, forall_eq']
    rw [hrest, ← ih h1 hcalls, len_pushAll]
    simp only [map_cons, unpackCalls_cons]
    by_cases hr : call.Readable e'.bytes.length e.offset
    · have hfound := reads_call_of_readable hcall h.1 hreads hr
      constructor
      · rintro ⟨d, ⟨d1, hrun1, hrun2⟩, hdist⟩
        rw [hfound] at hrun1
        cases hrun1
        exact ⟨hr, d, hrun2, hdist⟩
      · rintro ⟨-, d, hrun2, hdist⟩
        exact ⟨d, ⟨_, hfound, hrun2⟩, hdist⟩
    · refine iff_of_false ?_ fun hand => hr hand.1
      rintro ⟨d, ⟨d1, hrun1, -⟩, -⟩
      exact reads_call_of_not_readable hcall h.1 hreads hr d1 hrun1

/-! ### Staying within the buffer -/

/-- The decoder stands inside of its buffer. -/
def InBounds (d : BitDecoder) : Prop := d.it ≤ d.buffer.length ∧ d.offset < 8

variable {d : BitDecoder}

/-- The call ends inside of the buffer. -/
abbrev Stays {α : Type} (x : Except DecodeFault (α × BitDecoder)) : Prop :=
  Post (fun f => f ≠ .outOfBounds) (fun r => InBounds r.2) x

lemma unpackLoop_inBounds (fuel val nBits : ℕ) (h : InBounds d) :
    Post (fun f => f = .atEnd) (fun r => InBounds r.2) (BitDecoder.unpackLoop fuel d val nBits) := by
  induction fuel generalizing d val nBits with
  | zero => exact h
  | succ fuel ih =>
    unfold BitDecoder.unpackLoop
    split
    · exact h
    · split
      · rfl
      next hend =>
        have hlt : d.it < d.buffer.length := lt_of_le_of_ne h.1 hend
        rw [getElem?_eq_getElem hlt]
        dsimp only
        split
        · refine ⟨h.1, ?_⟩
          show d.offset + nBits < 8
          omega
        · apply ih
          exact ⟨hlt, show 0 < 8 by decide⟩

lemma stays_unpack (h : InBounds d) (nBits : ℕ) : Stays (CbitRef.unpack d nBits) := by
  unfold CbitRef.unpack
  split
  · have hloop := unpackLoop_inBounds nBits 0 nBits h
    unfold BitDecoder.unpack
    cases hrun : BitDecoder.unpackLoop nBits d 0 nBits with
    | ok r => exact hloop.of_ok hrun
    | error f =>
      obtain rfl : f = .atEnd := hloop.of_error hrun
      show DecodeFault.decodeFail ≠ .outOfBounds
      decide
  · show DecodeFault.assertion ≠ .outOfBounds
    decide

lemma stays_unpackOctets (h : InBounds d) (n : ℕ) : Stays (CbitRef.unpackOctets n d) := by
  induction n generalizing d with
  | zero => exact h
  | succ n ih =>
    rw [CbitRef.unpackOctets]
    apply (stays_unpack h 8).bind
    intro r hr
    apply (ih hr).bind
    intro r' hr'
    exact hr'

lemma alignBytes_inBounds (h : InBounds d) : Post (fun f => f ≠ .outOfBounds) InBounds (CbitRef.alignBytes d) := by
  unfold CbitRef.alignBytes
  split
  · split
    · show DecodeFault.decodeFail ≠ .outOfBounds
      decide
    next hend => exact ⟨lt_of_le_of_ne h.1 hend, show 0 < 8 by decide⟩
  · exact h

lemma stays_fail {α : Type} : Stays (.error .decodeFail : Except DecodeFault (α × BitDecoder)) := by
  show DecodeFault.decodeFail ≠ .outOfBounds
  decide

lemma stays_unpackLength (h : InBounds d) (al : Bool) : Stays (CbitRef.unpackLength d al) := by
  cases al with
  | false =>
    simp only [CbitRef.unpackLength, Bool.not_false, if_true]
    apply (stays_unpack h 1).bind
    intro r hr
    split
    · exact stays_unpack hr 7
    · apply (stays_unpack hr 1).bind
      intro r' hr'
      split
      · exact stays_unpack hr' 14
      · exact stays_fail
  | true =>
    simp only [CbitRef.unpackLength, Bool.not_true, Bool.false_eq_true, if_false]
    apply (alignBytes_inBounds h).bind
    intro d' hd'
    apply (stays_unpack hd' 8).bind
    intro r hr
    split
    · exact hr
    · generalize r.1 - 128 = val
      split
      · apply (stays_unpack hr 8).bind
        intro r' hr'
        exact hr'
      · exact stays_fail

lemma stays_unpackOctstring (h : InBounds d) (al : Bool) : Stays (CbitRef.unpackOctstring d al) := by
  unfold CbitRef.unpackOctstring
  apply (stays_unpackLength h al).bind
  intro r hr
  exact stays_unpackOctets hr r.1

/-- A computation that stays within the buffer under the condition, and only then. -/
def Confined {α : Type} (inside : Prop) (Q : α → Prop) (x : Except DecodeFault α) : Prop :=
  (inside → Post (fun f => f ≠ .outOfBounds) Q x) ∧ (¬ inside → x = .error .outOfBounds)

section

variable {α β : Type} {inside inside' c : Prop} [Decidable c] {Q : α → Prop} {x : Except DecodeFault α}

lemma Confined.map {R : β → Prop} {f : α → β} (h : Confined inside Q x) (hQ : ∀ a, Q a → R (f a)) :
    Confined inside R (x.map f) := by
  constructor
  · intro hin
    have hx := h.1 hin
    cases x with
    | ok a => exact hQ a hx
    | error e => exact hx
  · intro hout
    rw [h.2 hout]
    rfl

lemma Confined.always (h : Post (fun f => f ≠ .outOfBounds) Q x) : Confined True Q x :=
  ⟨fun _ => h, fun hout => absurd trivial hout⟩

/-- A check in front of a computation. -/
lemma Confined.check (h : Confined inside Q x) (hin : inside' → ¬ c → inside) (hout : ¬ inside' → ¬ c ∧ ¬ inside) :
    Confined inside' Q (if c then .error .decodeFail else x) := by
  constructor
  · intro hinside
    split
    · exact (nofun : DecodeFault.decodeFail ≠ .outOfBounds)
    next hc => exact h.1 (hin hinside hc)
  · intro hinside
    rw [if_neg (hout hinside).1]
    exact h.2 (hout hinside).2

end

lemma confined_unpackBytes (h : InBounds d) (size : ℕ) :
    Confined (size = 0 ∨ d.offset ≠ 0 ∨ d.buffer.length < d.it + size ∨ size = d.buffer.length) (fun r => InBounds r.2)
      (CbitRef.unpackBytes d size) := by
  have hle := h.1
  unfold CbitRef.unpackBytes
  constructor
  · intro hin
    split
    · exact h
    · split
      · exact stays_fail
      · split
        · have hcopy : ¬ d.buffer.length > size := by omega
          have hadv : CbitRef.advance d size = .ok { d with it := d.it + size } := if_pos (by omega)
          simp only [if_neg hcopy, hadv, ok_bind]
          refine ⟨?_, h.2⟩
          show d.it + size ≤ d.buffer.length
          omega
        · exact stays_unpackOctets h size
  · intro hout
    rw [if_neg (by omega), if_neg (by omega), if_pos (by omega), if_pos (by omega)]

lemma confined_advance (d : BitDecoder) (n : ℕ) {offset : ℕ} (hoff : offset < 8) :
    Confined (d.it + n ≤ d.buffer.length) InBounds
      (CbitRef.advance d n >>= fun d => .ok { d with offset := offset }) := by
  unfold CbitRef.advance
  constructor
  · intro hin
    rw [if_pos hin]
    exact ⟨hin, hoff⟩
  · intro hout
    rw [if_neg hout]
    rfl

lemma confined_advanceBits (h : InBounds d) (nBits : UInt32) :
    Confined ((d.offset + nBits.toNat) % 2 ^ 32 + 7 < 2 ^ 32 ∨
        d.it + (d.offset + nBits.toNat) % 2 ^ 32 / 8 ≤ d.buffer.length) InBounds (CbitRef.advanceBits d nBits) := by
  have hle := h.1
  have hsum : (d.offset + nBits.toNat) % 2 ^ 32 < 2 ^ 32 := mod_lt _ (by decide)
  unfold CbitRef.advanceBits
  dsimp only
  generalize (d.offset + nBits.toNat) % 2 ^ 32 = sum at *
  have hadv := confined_advance d (sum / 8) (mod_lt sum (by decide))
  exact hadv.check (by omega) (by omega)

lemma confined_advanceBytes (h : InBounds d) (bytes : UInt32) :
    Confined (d.offset = 0 ∨ bytes.toNat + 1 < 2 ^ 32 ∨ d.it + bytes.toNat ≤ d.buffer.length) InBounds
      (CbitRef.advanceBytes d bytes) := by
  have hle := h.1
  have hlt := bytes.toNat_lt
  have hadv := confined_advance d bytes.toNat h.2
  have hsame : (CbitRef.advance d bytes.toNat >>= fun d' => .ok { d' with offset := d.offset }) =
      CbitRef.advance d bytes.toNat := by
    unfold CbitRef.advance
    split <;> rfl
  rw [hsame] at hadv
  have hround : (if d.offset ≠ 0 then 1 else 0) = min d.offset 1 := by
    split <;> omega
  unfold CbitRef.advanceBytes
  rw [hround]
  exact hadv.check (by omega) (by omega)

lemma confined_call (h : InBounds d) (call : UnpackCall) :
    Confined (call.Contained d) (fun r => InBounds r.2) (call.run d) := by
  cases call with
  | unpack nBits => exact (Confined.always (stays_unpack h nBits)).map fun _ hr => hr
  | unpackBytes size => exact (confined_unpackBytes h size).map fun _ hr => hr
  | alignBytes => exact (Confined.always (alignBytes_inBounds h)).map fun _ hd => hd
  | unpackLength al => exact (Confined.always (stays_unpackLength h al)).map fun _ hr => hr
  | unpackOctstring al => exact (Confined.always (stays_unpackOctstring h al)).map fun _ hr => hr
  | advanceBits nBits => exact (confined_advanceBits h nBits).map fun _ hd => hd
  | advanceBytes bytes => exact (confined_advanceBytes h bytes).map fun _ hd => hd

lemma unpackCalls_outOfBounds_iff (h : InBounds d) (calls : List UnpackCall) :
    unpackCalls d calls = .error .outOfBounds ↔ ¬ AllContained d calls := by
  induction calls generalizing d with
  | nil =>
    apply iff_of_false
    · intro hrun
      cases hrun
    · exact not_not.mpr trivial
  | cons call calls ih =>
    obtain ⟨hin, hout⟩ := confined_call h call
    rw [unpackCalls]
    by_cases hc : call.Contained d
    · have hstays := hin hc
      cases hrun : call.run d with
      | error f =>
        have hf : f ≠ .outOfBounds := hstays.of_error hrun
        apply iff_of_false
        · intro herr
          exact hf (Except.error.inj herr)
        · refine not_not.mpr ⟨hc, fun v d' hok => ?_⟩
          rw [hrun] at hok
          cases hok
      | ok r =>
        obtain ⟨v, d'⟩ := r
        have hall : AllContained d (call :: calls) ↔ AllContained d' calls := by
          constructor
          · intro hand
            exact hand.2 v d' hrun
          · intro hcalls
            refine ⟨hc, fun v1 d1 hok => ?_⟩
            rw [hrun] at hok
            cases hok
            exact hcalls
        rw [hall, ← ih (hstays.of_ok hrun)]
        simp only [ok_bind]
        cases unpackCalls d' calls with
        | error f => exact .rfl
        | ok r => exact iff_of_false nofun nofun
    · rw [hout hc]
      exact iff_of_true rfl fun hand => hc hand.1

/-- **The PER primitives.** What is packed is unpacked iff every call is `Readable`, within the buffer iff `Contained`. -/
theorem per_primitives_iff (calls : List PackCall) (e : BitEncoder) (hpack : packCalls ⟨[], 0⟩ calls = some e)
    (buffer : Bytes) (reads : List UnpackCall) :
    (RoundTrips calls e ↔ AllReadable e.bytes.length ⟨[], 0⟩ calls) ∧
      (unpackCalls ⟨buffer, 0, 0⟩ reads = .error .outOfBounds ↔ ¬ AllContained ⟨buffer, 0, 0⟩ reads) := by
  constructor
  · exact unpackCalls_iff BitEncoder.holds_empty calls hpack
  · apply unpackCalls_outOfBounds_iff
    exact ⟨Nat.zero_le _, show 0 < 8 by decide⟩

/-- A number, an aligned length and an octet string are unpacked; an aligned read of the whole buffer is contained. -/
theorem per_primitives_number_and_octets :
    (∃ e, packCalls ⟨[], 0⟩ [.pack 5 3, .packLength 300 true, .packOctstring [7] false] = some e ∧
      RoundTrips [.pack 5 3, .packLength 300 true, .packOctstring [7] false] e) ∧
      unpackCalls ⟨[1, 2], 0, 0⟩ [.unpackBytes 2] ≠ .error .outOfBounds := by
  obtain ⟨e, he⟩ : ∃ e, packCalls ⟨[], 0⟩ [.pack 5 3, .packLength 300 true, .packOctstring [7] false] = some e :=
    ⟨_, rfl⟩
  have hsystem := per_primitives_iff _ e he [1, 2] [.unpackBytes 2]
  refine ⟨⟨e, he, hsystem.1.mpr ?_⟩, fun herr => hsystem.2.mp herr ?_⟩
  · refine ⟨trivial, fun e1 _ => ⟨fun _ => by decide, fun e2 _ => ⟨?_, fun _ _ => trivial⟩⟩⟩
    show 1 < 16384
    decide
  · exact ⟨.inr (.inr (.inr rfl)), fun _ _ _ => trivial⟩

/-- A byte packed after another one is not found, and an aligned length of `16384` is refused. -/
theorem packed_and_not_unpacked :
    packCalls ⟨[], 0⟩ [.pack 1 8, .packBytes [2]] = some ⟨[1, 2], 0⟩ ∧
      unpackCalls ⟨[1, 2], 0, 0⟩ [.unpack 8, .unpackBytes 1] = .error .outOfBounds ∧
      packCalls ⟨[], 0⟩ [.packLength 16384 true] = some ⟨[0xc1, 0, 0], 0⟩ ∧
      unpackCalls ⟨[0xc1, 0, 0], 0, 0⟩ [.unpackLength true] = .error .decodeFail := by
  decide +kernel

end SrsRan.Asn1
