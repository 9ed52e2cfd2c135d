import SrsRan.Support.Bytes
import Mathlib.Data.Nat.Bitwise

/-!
# Bit buffers

A `bit_buffer` holds packed bits in words of eight bits, the first bit being the most significant one of the first word.
-/

namespace SrsRan.Support

open List Nat

/-- `bit_buffer`. -/
structure BitBuffer where
  buffer : Bytes
  size : ℕ
  size_le : size ≤ 8 * buffer.length
deriving DecidableEq

namespace BitBuffer

variable (words : Bytes)

def bitOf (j : ℕ) : Bool := (words.getD (j / 8) 0).toNat.testBit (7 - j % 8)

variable (b : BitBuffer)

def bit (j : ℕ) : Bool := bitOf b.buffer j

variable (n : ℕ)

def maskMsbZeros : ℕ := 255 >>> n

def maskLsbOnes : ℕ := maskMsbZeros (8 - n)

/-- `mask_msb_ones<uint8_t>`; the complement in eight bits -/
def maskMsbOnes : ℕ := 255 ^^^ maskMsbZeros n

def insertWords (value startpos count : ℕ) : Bytes :=
  let startWord := startpos / 8
  let startMod := startpos % 8
  let word := (words.getD startWord 0).toNat
  if startMod = 0 then
    words.set startWord (byte ((word &&& maskMsbZeros count) ||| (value <<< (8 - count))))
  else if startMod + count ≤ 8 then
    words.set startWord (byte ((word &&& (maskMsbOnes startMod ||| maskLsbOnes (8 - startMod - count))) |||
      (value <<< (8 - startMod - count))))
  else
    let word' := (words.getD (startWord + 1) 0).toNat
    (words.set startWord (byte ((word &&& maskMsbOnes startMod) ||| (value >>> (startMod + count - 8))))).set
      (startWord + 1) (byte ((word' &&& maskMsbZeros (startMod + count - 8)) ||| (value <<< (16 - startMod - count))))

lemma length_insertWords (value startpos count : ℕ) :
    (insertWords words value startpos count).length = words.length := by
  unfold insertWords
  dsimp only
  split
  · exact length_set
  · split
    · exact length_set
    · rw [length_set, length_set]

def insert (value startpos count : ℕ) : Option BitBuffer :=
  if count ≤ 8 ∧ value < 2 ^ count ∧ startpos + count ≤ b.size then
    some ⟨insertWords b.buffer value startpos count, b.size, by rw [length_insertWords]; exact b.size_le⟩
  else none

/-- `pack_8bit`: the multiplication puts the bits next to each other. -/
def pack8bit (bits : List Bool) : ℕ :=
  ((bits.foldr (fun b acc => b.toNat + 256 * acc) 0 * 0x8040201008040201) % 2 ^ 64) >>> 56

def setWords (f : ℕ → UInt8) : Bytes := (List.range n).foldl (fun ws i => ws.set i (f i)) words

lemma setWords_succ (f : ℕ → UInt8) : setWords words (n + 1) f = (setWords words n f).set n (f n) := by
  rw [setWords, range_succ, foldl_append]
  rfl

lemma length_setWords (f : ℕ → UInt8) : (setWords words n f).length = words.length := by
  induction n with
  | zero => rfl
  | succ n ih => rw [setWords_succ, length_set, ih]

def withWords (words : Bytes) (h : words.length = b.buffer.length) : BitBuffer :=
  ⟨words, b.size, by rw [h]; exact b.size_le⟩

def bitPack (bits : List Bool) : Option BitBuffer :=
  if b.size = bits.length then
    let packed := b.withWords
      (setWords b.buffer (b.size / 8) fun i => byte (pack8bit ((bits.drop (8 * i)).take 8))) (length_setWords ..)
    let rest := bits.drop (8 * (b.size / 8))
    if rest.isEmpty then some packed
    else
      packed.insert (pack8bit (rest ++ List.replicate (8 - rest.length) false) >>> (8 - rest.length))
        (8 * (b.size / 8)) rest.length
  else none

/-! ### Bits of words -/

lemma testBit_maskMsbZeros (n k : ℕ) : (maskMsbZeros n).testBit k = decide (k + n < 8) := by
  rw [maskMsbZeros, testBit_shiftRight, show (255 : ℕ) = 2 ^ 8 - 1 from rfl, testBit_two_pow_sub_one, Nat.add_comm]

variable {n k value count : ℕ} {words : Bytes} {bits : List Bool}

lemma testBit_maskMsbOnes (hk : k < 8) : (maskMsbOnes n).testBit k = decide (8 ≤ k + n) := by
  rw [maskMsbOnes, testBit_xor, testBit_maskMsbZeros, show (255 : ℕ) = 2 ^ 8 - 1 from rfl,
    testBit_two_pow_sub_one, decide_eq_true hk, Bool.true_xor, ← decide_not]
  apply decide_eq_decide.mpr
  omega

lemma testBit_byte (hk : k < 8) : (byte n).toNat.testBit k = n.testBit k := by
  rw [toNat_byte, testBit_mod_two_pow, decide_eq_true hk, Bool.true_and]

lemma bitOf_set {w : ℕ} (hw : w < words.length) (x : UInt8) (j : ℕ) :
    bitOf (words.set w x) j = if j / 8 = w then x.toNat.testBit (7 - j % 8) else bitOf words j := by
  unfold bitOf
  rw [getD_eq_getElem?_getD, getElem?_set]
  by_cases h : w = j / 8
  · rw [if_pos h, if_pos h.symm, if_pos hw]
    rfl
  · rw [if_neg h, if_neg (fun h' => h h'.symm), getD_eq_getElem?_getD]

lemma testBit_of_lt (h : value < 2 ^ count) (hk : count ≤ k) : value.testBit k = false :=
  testBit_lt_two_pow (h.trans_le (Nat.pow_le_pow_right (by decide) hk))

lemma inserted_bit {b : Bool} {P Q I : Prop} [Decidable P] [Decidable Q] [Decidable I] {k' : ℕ}
    (hin : I → ¬P ∧ Q ∧ k = k') (hout : ¬I → P ∧ ¬Q) :
    (b && decide P || decide Q && value.testBit k) = if I then value.testBit k' else b := by
  by_cases h : I
  · obtain ⟨hP, hQ, rfl⟩ := hin h
    simp [h, hP, hQ]
  · obtain ⟨hP, hQ⟩ := hout h
    simp [h, hP, hQ]

/-- **Insertion.**  The bits from the position on are those of the value, and the others stay. -/
lemma bitOf_insertWords {startpos : ℕ} (hpos : 0 < count) (hc : count ≤ 8)
    (hv : value < 2 ^ count) (hfit : startpos + count ≤ 8 * words.length) (j : ℕ) :
    bitOf (insertWords words value startpos count) j =
      if startpos ≤ j ∧ j < startpos + count then value.testBit (startpos + count - 1 - j) else bitOf words j := by
  have hmod : startpos = 8 * (startpos / 8) + startpos % 8 := (div_add_mod _ _).symm
  have hlt := mod_lt startpos (by decide : 8 > 0)
  have hw : startpos / 8 < words.length := by omega
  have hk : 7 - j % 8 < 8 := by omega
  unfold insertWords
  dsimp only
  generalize startpos / 8 = w at *
  generalize startpos % 8 = m at *
  have hword (h : j / 8 = w) : bitOf words j = (words.getD w 0).toNat.testBit (7 - j % 8) := by rw [bitOf, h]
  split
  · rw [bitOf_set hw]
    split
    next hjw =>
      rw [testBit_byte hk, testBit_or, testBit_and, testBit_maskMsbZeros, testBit_shiftLeft, hword hjw]
      exact inserted_bit (fun _ => by omega) fun _ => by omega
    · rw [if_neg (by omega)]
  · split
    · rw [bitOf_set hw]
      split
      next hjw =>
        rw [testBit_byte hk, testBit_or, testBit_and, testBit_or, testBit_maskMsbOnes hk, maskLsbOnes,
          testBit_maskMsbZeros, testBit_shiftLeft, hword hjw]
        by_cases hin : startpos ≤ j ∧ j < startpos + count
        · rw [if_pos hin, decide_eq_false (by omega), decide_eq_false (by omega), Bool.or_false, Bool.and_false,
            Bool.false_or, decide_eq_true (by omega), Bool.true_and]
          congr 1
          omega
        · rw [if_neg hin]
          rcases Nat.lt_or_ge j startpos with hlo | hhi
          · rw [decide_eq_true (by omega), Bool.true_or, Bool.and_true, testBit_of_lt hv (by omega), Bool.and_false,
              Bool.or_false]
          · rw [decide_eq_true (show 7 - j % 8 + (8 - (8 - m - count)) < 8 by omega), Bool.or_true, Bool.and_true,
              decide_eq_false (show ¬ 7 - j % 8 ≥ 8 - m - count by omega), Bool.false_and, Bool.or_false]
      · rw [if_neg (by omega)]
    · -- the insertion ends in the next word
      have hw' : w + 1 < (words.set w (byte (((words.getD w 0).toNat &&& maskMsbOnes m) |||
          (value >>> (m + count - 8))))).length := by
        rw [length_set]
        omega
      rw [bitOf_set hw']
      split
      next hjw =>
        rw [testBit_byte hk, testBit_or, testBit_and, testBit_maskMsbZeros, testBit_shiftLeft, ← hjw]
        exact inserted_bit (fun _ => by omega) fun _ => by omega
      · rw [bitOf_set hw]
        split
        next hjw =>
          rw [testBit_byte hk, testBit_or, testBit_and, testBit_maskMsbOnes hk, testBit_shiftRight, hword hjw]
          by_cases hin : startpos ≤ j ∧ j < startpos + count
          · rw [if_pos hin, decide_eq_false (by omega), Bool.and_false, Bool.false_or]
            congr 1
            omega
          · rw [if_neg hin, decide_eq_true (by omega), Bool.and_true, testBit_of_lt hv (by omega), Bool.or_false]
        · rw [if_neg (by omega)]

lemma insert_eq {startpos : ℕ} (hpos : 0 < count) (hc : count ≤ 8) (hv : value < 2 ^ count)
    (hfit : startpos + count ≤ b.size) :
    ∃ b', b.insert value startpos count = some b' ∧ b'.size = b.size ∧ ∀ j, b'.bit j =
      if startpos ≤ j ∧ j < startpos + count then value.testBit (startpos + count - 1 - j) else b.bit j := by
  refine ⟨_, if_pos ⟨hc, hv, hfit⟩, rfl, fun j => ?_⟩
  exact bitOf_insertWords hpos hc hv (hfit.trans b.size_le) j

lemma bitOf_setWords (f : ℕ → UInt8) (hn : n ≤ words.length) (j : ℕ) :
    bitOf (setWords words n f) j = if j / 8 < n then (f (j / 8)).toNat.testBit (7 - j % 8) else bitOf words j := by
  induction n with
  | zero => rw [if_neg (Nat.not_lt_zero _)]; rfl
  | succ n ih =>
    rw [setWords_succ, bitOf_set (by rw [length_setWords]; omega), ih (by omega)]
    by_cases hj : j / 8 = n
    · rw [if_pos hj, if_pos (by omega), hj]
    · rw [if_neg hj]
      by_cases hlt : j / 8 < n
      · rw [if_pos hlt, if_pos (by omega)]
      · rw [if_neg hlt, if_neg (by omega)]

lemma testBit_pack8bit : ∀ b0 b1 b2 b3 b4 b5 b6 b7 : Bool, ∀ k : Fin 8,
    (pack8bit [b0, b1, b2, b3, b4, b5, b6, b7]).testBit (7 - k) = [b0, b1, b2, b3, b4, b5, b6, b7].get k := by
  decide +kernel

lemma pack8bit_lt : ∀ b0 b1 b2 b3 b4 b5 b6 b7 : Bool, pack8bit [b0, b1, b2, b3, b4, b5, b6, b7] < 2 ^ 8 := by
  decide +kernel

lemma eq_eight_of_length (h : bits.length = 8) :
    ∃ b0 b1 b2 b3 b4 b5 b6 b7, bits = [b0, b1, b2, b3, b4, b5, b6, b7] := by
  rcases bits with _ | ⟨b0, _ | ⟨b1, _ | ⟨b2, _ | ⟨b3, _ | ⟨b4, _ | ⟨b5, _ | ⟨b6, _ | ⟨b7, _ | ⟨b8, rest⟩⟩⟩⟩⟩⟩⟩⟩⟩ <;>
    simp at h
  exact ⟨b0, b1, b2, b3, b4, b5, b6, b7, rfl⟩

lemma testBit_pack8bit_of_length (h : bits.length = 8) (hk : k < 8) :
    (pack8bit bits).testBit (7 - k) = bits.getD k false := by
  obtain ⟨b0, b1, b2, b3, b4, b5, b6, b7, rfl⟩ := eq_eight_of_length h
  rw [testBit_pack8bit b0 b1 b2 b3 b4 b5 b6 b7 ⟨k, hk⟩, getD_eq_getElem _ _ (by exact hk)]
  rfl

lemma pack8bit_lt_of_length (h : bits.length = 8) : pack8bit bits < 2 ^ 8 := by
  obtain ⟨b0, b1, b2, b3, b4, b5, b6, b7, rfl⟩ := eq_eight_of_length h
  exact pack8bit_lt b0 b1 b2 b3 b4 b5 b6 b7

lemma getD_take_drop {i : ℕ} (hk : k < 8) :
    ((bits.drop (8 * i)).take 8).getD k false = bits.getD (8 * i + k) false := by
  rw [getD_eq_getElem?_getD, getElem?_take_of_lt hk, getElem?_drop, getD_eq_getElem?_getD]

/-- **Packing.**  Every bit of the buffer is one of the bits that were given. -/
theorem bitPack_eq (h : b.size = bits.length) :
    ∃ b', b.bitPack bits = some b' ∧ b'.size = b.size ∧ ∀ j < b.size, b'.bit j = bits.getD j false := by
  have hle := b.size_le
  unfold bitPack
  rw [if_pos h]
  dsimp only
  generalize hpacked : b.withWords (setWords b.buffer (b.size / 8) fun i => byte (pack8bit ((bits.drop (8 * i)).take 8)))
    (length_setWords ..) = packed
  have hsize : packed.size = b.size := by rw [← hpacked]; rfl
  have hfull (j : ℕ) (hj : j < 8 * (b.size / 8)) : packed.bit j = bits.getD j false := by
    have hlen : ((bits.drop (8 * (j / 8))).take 8).length = 8 := by
      rw [List.length_take, List.length_drop]
      omega
    rw [← hpacked, bit, withWords, bitOf_setWords _ (by omega), if_pos (by omega), testBit_byte (by omega),
      testBit_pack8bit_of_length hlen (mod_lt _ (by decide)), getD_take_drop (mod_lt _ (by decide)), div_add_mod]
  generalize hrest : bits.drop (8 * (b.size / 8)) = rest
  have hrestlen : rest.length = b.size % 8 := by
    rw [← hrest, List.length_drop]
    omega
  split
  next hnil =>
    rw [List.isEmpty_iff] at hnil
    rw [hnil] at hrestlen
    refine ⟨packed, rfl, hsize, fun j hj => hfull j ?_⟩
    simp at hrestlen
    omega
  next hne =>
    have hpos : 0 < rest.length := by
      rw [List.length_pos_iff]
      intro hnil
      exact hne (by rw [hnil]; rfl)
    have hlen8 : (rest ++ replicate (8 - rest.length) false).length = 8 := by
      rw [List.length_append, List.length_replicate]
      omega
    have hbyte : pack8bit (rest ++ replicate (8 - rest.length) false) >>> (8 - rest.length) < 2 ^ rest.length := by
      rw [shiftRight_eq_div_pow, Nat.div_lt_iff_lt_mul (Nat.two_pow_pos _), ← Nat.pow_add,
        Nat.add_sub_cancel' (by omega)]
      exact pack8bit_lt_of_length hlen8
    obtain ⟨b', hb', hsize', hbits⟩ := insert_eq packed hpos (by omega) hbyte
      (show 8 * (b.size / 8) + rest.length ≤ packed.size by omega)
    refine ⟨b', hb', hsize'.trans hsize, fun j hj => ?_⟩
    rw [hbits]
    split
    · -- a bit of the last word
      rename_i hin
      have hk : 8 - rest.length + (8 * (b.size / 8) + rest.length - 1 - j) = 7 - (j - 8 * (b.size / 8)) := by omega
      rw [testBit_shiftRight, hk, testBit_pack8bit_of_length hlen8 (by omega), List.getD_append _ _ _ _ (by omega),
        ← hrest, List.getD_eq_getElem?_getD, List.getElem?_drop, List.getD_eq_getElem?_getD, Nat.add_sub_cancel' hin.1]
    · exact hfull j (by omega)

end BitBuffer

end SrsRan.Support
