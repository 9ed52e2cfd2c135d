import SrsRan.Lib.BitString
import SrsRan.Support.Bytes

/-!
# Bit encoders and decoders

The loops of `pack` and `unpack`, which the classes `bit_encoder` and `bit_ref`, and `bit_decoder` and `cbit_ref`, have in
common.  An append to the buffer succeeds.  `BitEncoder.Holds e s` says that the encoder has written the bit string `s`, and
zeros up to the end of the last byte.
-/

namespace SrsRan.Support

open Lib Nat
open BitString (get_add get_push len len_ofBytes mul_add_div_of_lt ofBytes ofBytes_concat push_zero width)

/-- `bit_encoder`. -/
structure BitEncoder where
  bytes : Bytes
  offset : ℕ
deriving DecidableEq

def addBack (l : Bytes) (x : ℕ) : Bytes :=
  match l.getLast? with
  | some b => l.dropLast ++ [byte (b.toNat + x)]
  | none => l

lemma addBack_concat (l : Bytes) (b : UInt8) (x : ℕ) : addBack (l ++ [b]) x = l ++ [byte (b.toNat + x)] := by
  simp [addBack]

namespace BitEncoder

def packLoop : (fuel : ℕ) → BitEncoder → (val nBits : ℕ) → BitEncoder
  | 0, e, _, _ => e
  | fuel + 1, e, val, nBits =>
    if nBits = 0 then e
    else
      let bytes := if e.offset = 0 then e.bytes ++ [0] else e.bytes
      let val := val &&& (2 ^ nBits - 1)
      if 8 - e.offset > nBits then ⟨addBack bytes (val <<< (8 - e.offset - nBits)), e.offset + nBits⟩
      else packLoop fuel ⟨addBack bytes (val >>> (nBits - (8 - e.offset))), 0⟩ val (nBits - (8 - e.offset))

def pack (e : BitEncoder) (val nBits : ℕ) : BitEncoder := packLoop nBits e val nBits

/-- The bits that have been written, and the zeros up to the end of the last byte. -/
def Holds (e : BitEncoder) (s : BitString) : Prop :=
  e.offset = s.len % 8 ∧ ∃ pad, pad < 8 ∧ BitString.ofBytes e.bytes = s.push pad 0

variable {e : BitEncoder} {s : BitString}

lemma Holds.length (h : e.Holds s) : 8 * e.bytes.length = s.len + (8 - e.offset) % 8 := by
  obtain ⟨hoff, pad, hpad, hbytes⟩ := h
  have hlen : 8 * e.bytes.length = s.len + pad := by
    rw [← len_ofBytes, hbytes]
    rfl
  omega

lemma Holds.bytes (h : e.Holds s) : ofBytes e.bytes = s.push ((8 - e.offset) % 8) 0 := by
  have hlen := h.length
  obtain ⟨hoff, pad, hpad, hbytes⟩ := h
  have hlen' : 8 * e.bytes.length = s.len + pad := by
    rw [← len_ofBytes, hbytes]
    rfl
  rw [hbytes, show pad = (8 - e.offset) % 8 by omega]

lemma holds_empty : (⟨[], 0⟩ : BitEncoder).Holds .nil := ⟨rfl, 0, by decide, (push_zero _ _).symm⟩

lemma Holds.chunk (h : e.Holds s) {c x : ℕ} (hc : 0 < c) (hle : c ≤ 8 - e.offset) (hx : x < 2 ^ c) :
    Holds ⟨addBack (if e.offset = 0 then e.bytes ++ [0] else e.bytes) (x * 2 ^ (8 - e.offset - c)), (e.offset + c) % 8⟩
      (s.push c x) := by
  have hbytes := h.bytes
  have hlen := h.length
  have hoff := h.1
  have hlt : e.offset < 8 := by omega
  have hlen' : (s.push c x).len = s.len + c := rfl
  refine ⟨by rw [hlen']; show (e.offset + c) % 8 = _; omega, 8 - e.offset - c, by omega, ?_⟩
  -- the free part of the byte is a multiple of the place of the new bits
  have hpow : 2 ^ (8 - e.offset) = 2 ^ c * 2 ^ (8 - e.offset - c) := by
    rw [← Nat.pow_add]
    congr 1
    omega
  have hxlt : x * 2 ^ (8 - e.offset - c) < 2 ^ (8 - e.offset) := by
    rw [hpow]
    exact Nat.mul_lt_mul_of_pos_right hx (Nat.two_pow_pos _)
  have hval : ((s.push c x).push (8 - e.offset - c) 0).val =
      s.val * 2 ^ (8 - e.offset) + x * 2 ^ (8 - e.offset - c) := by
    show (s.val * 2 ^ c + x % 2 ^ c) * 2 ^ (8 - e.offset - c) + 0 % 2 ^ (8 - e.offset - c) = _
    rw [zero_mod, mod_eq_of_lt hx, hpow, Nat.add_zero, Nat.add_mul, Nat.mul_assoc]
  -- the byte that takes the bits is the last one, and free from the offset on
  obtain ⟨l, b, hl, hfree⟩ : ∃ l b, (if e.offset = 0 then e.bytes ++ [0] else e.bytes) = l ++ [b] ∧
      (ofBytes l).push 8 b.toNat = s.push (8 - e.offset) 0 := by
    by_cases h0 : e.offset = 0
    · refine ⟨e.bytes, 0, if_pos h0, ?_⟩
      rw [hbytes, h0, mod_self, push_zero]
      rfl
    · have hne : e.bytes ≠ [] := by
        intro hnil
        rw [hnil, mod_eq_of_lt (by omega)] at hlen
        simp at hlen
        omega
      refine ⟨_, _, (if_neg h0).trans (List.dropLast_concat_getLast hne).symm, ?_⟩
      rw [← ofBytes_concat, List.dropLast_concat_getLast, hbytes, mod_eq_of_lt (by omega)]
  have hsum : (ofBytes l).val * 256 + b.toNat = s.val * 2 ^ (8 - e.offset) := by
    have hv := congrArg BitString.val hfree
    have hb := b.toNat_lt
    change (ofBytes l).val * 2 ^ 8 + b.toNat % 2 ^ 8 = s.val * 2 ^ (8 - e.offset) + 0 % 2 ^ (8 - e.offset) at hv
    rwa [zero_mod, mod_eq_of_lt hb] at hv
  -- the addition does not carry
  have hnocarry : b.toNat + x * 2 ^ (8 - e.offset - c) < 2 ^ 8 := by
    have hb := b.toNat_lt
    have h256 : 2 ^ (8 - e.offset) ∣ 256 := Nat.pow_dvd_pow 2 (Nat.sub_le 8 _)
    have hdvd : 2 ^ (8 - e.offset) ∣ b.toNat := (Nat.dvd_add_right (h256.mul_left _)).mp (hsum ▸ Nat.dvd_mul_left _ _)
    have hroom := Nat.le_of_dvd (by omega) (Nat.dvd_sub h256 hdvd)
    omega
  rw [hl, addBack_concat, ofBytes_concat, toNat_byte, mod_eq_of_lt hnocarry]
  have hlen1 := congrArg len hfree
  ext
  · change (ofBytes l).len + 8 = s.len + (8 - e.offset) at hlen1
    show (ofBytes l).len + 8 = s.len + c + (8 - e.offset - c)
    omega
  · rw [hval]
    show (ofBytes l).val * 2 ^ 8 + (b.toNat + x * 2 ^ (8 - e.offset - c)) % 2 ^ 8 = _
    rw [mod_eq_of_lt hnocarry]
    omega

lemma val_and_mask (val nBits : ℕ) : val &&& (2 ^ nBits - 1) = val % 2 ^ nBits := and_two_pow_sub_one_eq_mod val nBits

lemma Holds.packLoop {fuel nBits : ℕ} (h : e.Holds s) (val : ℕ) (hf : nBits ≤ fuel) :
    (packLoop fuel e val nBits).Holds (s.push nBits val) := by
  induction fuel generalizing e s val nBits with
  | zero =>
    obtain rfl : nBits = 0 := by omega
    rw [push_zero]
    exact h
  | succ fuel ih =>
    have hlt : e.offset < 8 := by
      rw [h.1]
      exact mod_lt _ (by decide)
    unfold BitEncoder.packLoop
    split
    next h0 =>
      rw [h0, BitString.push_zero]
      exact h
    next h0 =>
      dsimp only
      rw [val_and_mask]
      split
      · -- the bits fit into the current byte
        rename_i hfit
        have hch := h.chunk (Nat.pos_of_ne_zero h0) (by omega) (mod_lt val (Nat.two_pow_pos nBits))
        rw [BitString.push_mod, mod_eq_of_lt (by omega : e.offset + nBits < 8)] at hch
        rw [shiftLeft_eq]
        exact hch
      next hfull =>
        have hsplit : nBits = (8 - e.offset) + (nBits - (8 - e.offset)) := by omega
        have hx : val % 2 ^ nBits / 2 ^ (nBits - (8 - e.offset)) < 2 ^ (8 - e.offset) := by
          rw [Nat.div_lt_iff_lt_mul (Nat.two_pow_pos _), ← Nat.pow_add, ← hsplit]
          exact mod_lt _ (Nat.two_pow_pos _)
        have hch := h.chunk (by omega : 0 < 8 - e.offset) le_rfl hx
        rw [Nat.sub_self, Nat.pow_zero, Nat.mul_one, Nat.add_sub_cancel' hlt.le] at hch
        have hrest := ih hch (val % 2 ^ nBits) (show nBits - (8 - e.offset) ≤ fuel by omega)
        rw [← BitString.push_add, ← hsplit, BitString.push_mod] at hrest
        rw [shiftRight_eq_div_pow]
        exact hrest

lemma Holds.pack (h : e.Holds s) (val nBits : ℕ) : (e.pack val nBits).Holds (s.push nBits val) := h.packLoop val le_rfl

def packAll (e : BitEncoder) (fields : List (ℕ × ℕ)) : BitEncoder := fields.foldl (fun e f => e.pack f.1 f.2) e

lemma Holds.packAll (h : e.Holds s) (fields : List (ℕ × ℕ)) : (e.packAll fields).Holds (s.pushAll fields) := by
  induction fields generalizing e s with
  | nil => exact h
  | cons f fields ih => exact ih (h.pack f.1 f.2)

end BitEncoder

/-! ### Decoders -/

inductive BitFault where
  | atEnd
  | outOfBounds
deriving DecidableEq

/-- `bit_decoder`. -/
structure BitDecoder where
  buffer : Bytes
  it : ℕ
  offset : ℕ
deriving DecidableEq

namespace BitDecoder

def unpackLoop : (fuel : ℕ) → BitDecoder → (val nBits : ℕ) → Except BitFault (ℕ × BitDecoder)
  | 0, d, val, _ => .ok (val, d)
  | fuel + 1, d, val, nBits =>
    if nBits = 0 then .ok (val, d)
    else if d.it = d.buffer.length then .error .atEnd
    else
      match d.buffer[d.it]? with
      | none => .error .outOfBounds
      | some b =>
        if 8 - d.offset > nBits then
          let mask := 2 ^ (8 - d.offset) - 2 ^ (8 - d.offset - nBits)
          .ok (val + (b.toNat &&& mask) >>> (8 - d.offset - nBits), { d with offset := d.offset + nBits })
        else
          let mask := 2 ^ (8 - d.offset) - 1
          unpackLoop fuel { d with it := d.it + 1, offset := 0 }
            (val + (b.toNat &&& mask) <<< (nBits - (8 - d.offset))) (nBits - (8 - d.offset))

def unpack (d : BitDecoder) (nBits : ℕ) : Except BitFault (ℕ × BitDecoder) := unpackLoop nBits d 0 nBits

def ofPos (buffer : Bytes) (p : ℕ) : BitDecoder := ⟨buffer, p / 8, p % 8⟩

lemma and_mask_shift (b a k : ℕ) (h : k ≤ a) : (b &&& (2 ^ a - 2 ^ k)) >>> k = b % 2 ^ a / 2 ^ k := by
  have hmask : 2 ^ a - 2 ^ k = (2 ^ (a - k) - 1) <<< k := by
    rw [shiftLeft_eq, Nat.sub_mul, Nat.one_mul, ← Nat.pow_add, Nat.sub_add_cancel h]
  have hpow : 2 ^ a = 2 ^ k * 2 ^ (a - k) := by rw [← Nat.pow_add, Nat.add_sub_cancel' h]
  rw [hmask, shiftRight_and_distrib, shiftLeft_shiftRight, and_two_pow_sub_one_eq_mod,
    shiftRight_eq_div_pow, hpow, mod_mul_right_div_self]

variable {buffer : Bytes}

variable {p : ℕ} {fields : List (ℕ × ℕ)}

lemma ofPos_next : ({ ofPos buffer p with it := p / 8 + 1, offset := 0 } : BitDecoder) =
    ofPos buffer (p + (8 - p % 8)) := by
  simp only [ofPos, mk.injEq, true_and]
  omega

lemma unpackLoop_ofPos {fuel nBits : ℕ} (val : ℕ) (hf : nBits ≤ fuel) (hp : p ≤ 8 * buffer.length) :
    unpackLoop fuel (ofPos buffer p) val nBits = if p + nBits ≤ 8 * buffer.length then
        .ok (val + (ofBytes buffer).get p nBits, ofPos buffer (p + nBits)) else .error .atEnd := by
  have hmod : p = 8 * (p / 8) + p % 8 := (div_add_mod p 8).symm
  induction fuel generalizing p val nBits with
  | zero =>
    obtain rfl : nBits = 0 := by omega
    rw [if_pos (by omega)]
    simp [unpackLoop, BitString.get, mod_one]
  | succ fuel ih =>
    unfold unpackLoop
    by_cases h0 : nBits = 0
    · subst h0
      rw [if_pos rfl, if_pos (by omega)]
      simp [BitString.get, mod_one]
    · rw [if_neg h0]
      by_cases hend : (ofPos buffer p).it = (ofPos buffer p).buffer.length
      · rw [if_pos hend]
        have hend' : p / 8 = buffer.length := hend
        rw [if_neg (by omega)]
      · rw [if_neg hend]
        have hend' : p / 8 ≠ buffer.length := hend
        have hi : p / 8 < buffer.length := by omega
        obtain ⟨b, hb⟩ : ∃ b, buffer[p / 8]? = some b := ⟨_, List.getElem?_eq_getElem hi⟩
        have hb' : (ofPos buffer p).buffer[(ofPos buffer p).it]? = some b := hb
        rw [hb']
        show (if 8 - p % 8 > nBits then _ else _) = _
        split
        next hfit =>
          have hget := BitString.get_within_byte hb (by omega : p % 8 + nBits ≤ 8)
          rw [← hmod] at hget
          rw [if_pos (by omega), hget]
          show Except.ok (val + (b.toNat &&& (2 ^ (8 - p % 8) - 2 ^ (8 - p % 8 - nBits))) >>> (8 - p % 8 - nBits), _) = _
          rw [and_mask_shift _ _ _ (by omega), Nat.sub_sub]
          congr 2
          simp only [ofPos, BitDecoder.mk.injEq, true_and]
          omega
        next hfull =>
          have hget := BitString.get_within_byte hb (by omega : p % 8 + (8 - p % 8) ≤ 8)
          rw [← hmod, show 8 - (p % 8 + (8 - p % 8)) = 0 by omega, pow_zero, Nat.div_one] at hget
          show unpackLoop fuel { ofPos buffer p with it := p / 8 + 1, offset := 0 }
            (val + (b.toNat &&& (2 ^ (8 - p % 8) - 1)) <<< (nBits - (8 - p % 8))) (nBits - (8 - p % 8)) = _
          rw [ofPos_next, ih _ (by omega) (by omega) (by omega), and_two_pow_sub_one_eq_mod, shiftLeft_eq, ← hget]
          have hsum : p + (8 - p % 8) + (nBits - (8 - p % 8)) = p + nBits := by omega
          rw [hsum]
          split
          next hle =>
            have hadd := BitString.get_add (s := BitString.ofBytes buffer) (p := p) (m := 8 - p % 8)
              (n := nBits - (8 - p % 8)) (by rw [BitString.len_ofBytes]; omega)
            rw [show 8 - p % 8 + (nBits - (8 - p % 8)) = nBits by omega] at hadd
            rw [hadd, add_assoc]
          · rfl

lemma unpack_ofPos (nBits : ℕ) (hp : p ≤ 8 * buffer.length) : (ofPos buffer p).unpack nBits =
      if p + nBits ≤ 8 * buffer.length then
        .ok ((ofBytes buffer).get p nBits, ofPos buffer (p + nBits)) else .error .atEnd := by
  rw [unpack, unpackLoop_ofPos 0 le_rfl hp, zero_add]

/-- The fields stand in the buffer from position `p` on. -/
def Reads (buffer : Bytes) : (p : ℕ) → List (ℕ × ℕ) → Prop
  | p, [] => p ≤ 8 * buffer.length
  | p, (val, nBits) :: fields =>
    (p + nBits ≤ 8 * buffer.length ∧ (BitString.ofBytes buffer).get p nBits = val % 2 ^ nBits) ∧
      Reads buffer (p + nBits) fields

lemma Reads.le (h : Reads buffer p fields) : p ≤ 8 * buffer.length := by
  cases fields with
  | nil => exact h
  | cons f fields =>
    have := h.1.1
    omega

lemma Reads.unpack {val nBits : ℕ} (h : Reads buffer p ((val, nBits) :: fields)) :
    (ofPos buffer p).unpack nBits = .ok (val % 2 ^ nBits, ofPos buffer (p + nBits)) := by
  obtain ⟨⟨hlen, hget⟩, -⟩ := h
  rw [unpack_ofPos nBits (by omega), if_pos hlen, hget]

lemma Reads.append {fields' : List (ℕ × ℕ)} (h : Reads buffer p (fields ++ fields')) :
    Reads buffer p fields ∧ Reads buffer (p + width fields) fields' := by
  induction fields generalizing p with
  | nil => exact ⟨h.le, h⟩
  | cons f fields ih =>
    obtain ⟨h1, h2⟩ := h
    obtain ⟨h3, h4⟩ := ih h2
    refine ⟨⟨h1, h3⟩, ?_⟩
    rw [add_assoc] at h4
    exact h4

lemma Reads.split {val : ℕ} (m n : ℕ) (h : Reads buffer p ((val, m + n) :: fields)) :
    Reads buffer p ((val / 2 ^ n, m) :: (val, n) :: fields) := by
  obtain ⟨⟨hlen, hget⟩, hrest⟩ := h
  rw [get_add (by rw [BitString.len_ofBytes]; omega)] at hget
  have hlt := BitString.get_lt (s := BitString.ofBytes buffer) (p + m) n
  have hval : val % 2 ^ (m + n) = val / 2 ^ n % 2 ^ m * 2 ^ n + val % 2 ^ n := by
    rw [add_comm m n, pow_add, mod_mul]
    ring
  rw [hval] at hget
  have hhigh : (BitString.ofBytes buffer).get p m = val / 2 ^ n % 2 ^ m := by
    have := congrArg (· / 2 ^ n) hget
    simp only [BitString.mul_add_div_of_lt hlt, BitString.mul_add_div_of_lt (mod_lt val (Nat.two_pow_pos n))] at this
    exact this
  rw [hhigh, Nat.add_left_cancel_iff] at hget
  rw [← add_assoc] at hrest
  exact ⟨⟨by omega, hhigh⟩, ⟨by omega, hget⟩, hrest⟩

lemma Reads.join {a b m n : ℕ} (h : Reads buffer p ((a, m) :: (b, n) :: fields)) :
    Reads buffer p ((a * 2 ^ n + b % 2 ^ n, m + n) :: fields) := by
  obtain ⟨⟨-, hget⟩, ⟨hlen, hget'⟩, hrest⟩ := h
  rw [add_assoc] at hrest
  refine ⟨⟨by omega, ?_⟩, hrest⟩
  rw [get_add (by rw [len_ofBytes]; omega), hget, hget', add_comm m n, pow_add, mod_mul,
    mul_add_div_of_lt (mod_lt _ (Nat.two_pow_pos n)), mul_add_mod_self_right, mod_mod]
  ring

lemma reads_of_isPrefix {s : BitString}
    (h : (s.pushAll fields).IsPrefix (ofBytes buffer)) : Reads buffer s.len fields := by
  induction fields generalizing s with
  | nil =>
    have := h.1
    rwa [len_ofBytes] at this
  | cons f fields ih =>
    have hpre : (s.push f.2 f.1).IsPrefix (ofBytes buffer) := (BitString.isPrefix_pushAll _ fields).trans h
    refine ⟨⟨?_, ?_⟩, ih h⟩
    · have := hpre.1
      rwa [len_ofBytes] at this
    · rw [hpre.get_eq le_rfl, get_push]

end BitDecoder

/-! ### Fields of packed containers -/

namespace BitEncoder

def flag (b : Bool) : ℕ := if b then 1 else 0

/-- The octets that fill a container up to a length of `4n - 2`. -/
def padding (length : ℕ) : Bytes := List.replicate ((4 - (length + 2) % 4) % 4) 0

lemma reads_padded (fs : List (ℕ × ℕ)) {outBuf : Bytes} (h : ((⟨[], 0⟩ : BitEncoder).packAll fs).bytes = outBuf) :
    BitDecoder.Reads (outBuf ++ padding outBuf.length) 0 fs ∧ ((outBuf ++ padding outBuf.length).length + 2) % 4 = 0 := by
  have hold := BitEncoder.holds_empty.packAll fs
  constructor
  · refine BitDecoder.reads_of_isPrefix (s := .nil) ?_
    refine BitString.IsPrefix.trans ?_ (BitString.ofBytes_isPrefix _ _)
    rw [← h, hold.bytes]
    exact BitString.isPrefix_push _ _ _
  · simp only [padding, List.length_append, List.length_replicate]
    omega

end BitEncoder

end SrsRan.Support
