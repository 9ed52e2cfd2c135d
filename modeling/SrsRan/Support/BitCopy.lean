import SrsRan.Support.BitBuffer

/-!
# Extracting and copying bits

`extract` reads up to eight bits at any position of a bit buffer; `copyWords` and `copyOffset` are the two forms of
`srsvec::copy_offset`.  All of them shift the pair of two neighbouring words, and `testBit_pair` says what its bits are.
-/

namespace SrsRan.Support

open List Option Nat


namespace BitBuffer

/-! ### Two neighbouring words -/

variable (words : Bytes)

def pair (w : ℕ) : ℕ := (words.getD w 0).toNat <<< 8 ||| (words.getD (w + 1) 0).toNat

lemma testBit_word (w : ℕ) {i : ℕ} (hi : i < 8) : (words.getD w 0).toNat.testBit (7 - i) = bitOf words (8 * w + i) := by
  rw [bitOf, show (8 * w + i) / 8 = w by omega, show (8 * w + i) % 8 = i by omega]

lemma testBit_pair (w : ℕ) {i : ℕ} (hi : i < 16) : (pair words w).testBit (15 - i) = bitOf words (8 * w + i) := by
  rw [pair, testBit_or, testBit_shiftLeft]
  rcases lt_or_ge i 8 with hlo | hhi
  · have hnext : (words.getD (w + 1) 0).toNat.testBit (15 - i) = false := testBit_of_lt (UInt8.toNat_lt _) (by omega)
    rw [decide_eq_true (by omega), Bool.true_and, hnext, Bool.or_false, show 15 - i - 8 = 7 - i by omega,
      testBit_word words w hlo]
  · rw [decide_eq_false (by omega), Bool.false_and, Bool.false_or, show 15 - i = 7 - (i - 8) by omega,
      testBit_word words (w + 1) (by omega)]
    congr 1
    omega

/-! ### Extraction -/

def extractWords (startpos count : ℕ) : ℕ :=
  let startWord := startpos / 8
  let startMod := startpos % 8
  let word := (words.getD startWord 0).toNat
  if startMod = 0 then word >>> (8 - count)
  else if startMod + count ≤ 8 then (word >>> (8 - startMod - count)) &&& maskLsbOnes count
  else (pair words startWord >>> (16 - startMod - count)) &&& maskLsbOnes count

/-- `bit_buffer::extract`; without a result, an assertion fails -/
def extract (b : BitBuffer) (startpos count : ℕ) : Option ℕ :=
  if count ≤ 8 ∧ startpos + count ≤ b.size then some (extractWords b.buffer startpos count) else none

variable {n p count value j oo io : ℕ} {input b b' : BitBuffer} {xs : List Bool}

lemma testBit_maskLsbOnes {k : ℕ} (hn : n ≤ 8) : (maskLsbOnes n).testBit k = decide (k < n) := by
  rw [maskLsbOnes, testBit_maskMsbZeros]
  apply decide_eq_decide.mpr
  omega

lemma testBit_extractWords (hc : count ≤ 8) (k : ℕ) : (extractWords words p count).testBit k =
      (decide (k < count) && bitOf words (p + count - 1 - k)) := by
  have hpos : p = 8 * (p / 8) + p % 8 := (div_add_mod _ _).symm
  have hlt := mod_lt p (by decide : 8 > 0)
  unfold extractWords
  dsimp only
  generalize p / 8 = w at *
  generalize p % 8 = m at *
  subst hpos
  by_cases hk : k < count
  · rw [decide_eq_true hk, Bool.true_and]
    split
    · rw [testBit_shiftRight, show 8 - count + k = 7 - (count - 1 - k) by omega, testBit_word words w (by omega)]
      congr 1
      omega
    · split
      · rw [testBit_and, testBit_maskLsbOnes hc, decide_eq_true hk, Bool.and_true, testBit_shiftRight,
          show 8 - m - count + k = 7 - (m + (count - 1 - k)) by omega, testBit_word words w (by omega)]
        congr 1
        omega
      · rw [testBit_and, testBit_maskLsbOnes hc, decide_eq_true hk, Bool.and_true, testBit_shiftRight,
          show 16 - m - count + k = 15 - (m + (count - 1 - k)) by omega, testBit_pair words w (by omega)]
        congr 1
        omega
  · rw [decide_eq_false hk, Bool.false_and]
    split
    · rw [testBit_shiftRight]
      exact testBit_of_lt (UInt8.toNat_lt _) (by omega)
    · split <;> rw [testBit_and, testBit_maskLsbOnes hc, decide_eq_false hk, Bool.and_false]

lemma extractWords_lt (hc : count ≤ 8) : extractWords words p count < 2 ^ count := by
  refine lt_pow_two_of_testBit _ fun k hk => ?_
  rw [testBit_extractWords words hc, decide_eq_false (by omega), Bool.false_and]

lemma extract_eq (b : BitBuffer) (hc : count ≤ 8) (hfit : p + count ≤ b.size)
    (hv : value < 2 ^ count) (hbits : ∀ k < count, b.bit (p + k) = value.testBit (count - 1 - k)) :
    b.extract p count = some value := by
  rw [extract, if_pos ⟨hc, hfit⟩]
  refine congrArg some (eq_of_testBit_eq fun k => ?_)
  rw [testBit_extractWords b.buffer hc]
  by_cases hk : k < count
  · rw [decide_eq_true hk, Bool.true_and, show p + count - 1 - k = p + (count - 1 - k) by omega]
    refine (hbits (count - 1 - k) (by omega)).trans ?_
    congr 1
    omega
  · rw [decide_eq_false hk, Bool.false_and, testBit_of_lt hv (by omega)]

/-! ### Copies -/

def copyWords (words input : Bytes) (startpos n : ℕ) : Bytes :=
  let inputStartWord := startpos / 8
  let inputStartMod := startpos % 8
  let nofFullWords := n / 8
  let nofRemainderBits := n % 8
  let full := setWords words nofFullWords fun i =>
    if inputStartMod = 0 then input.getD (inputStartWord + i) 0
    else byte (pair input (inputStartWord + i) >>> (8 - inputStartMod))
  if nofRemainderBits ≠ 0 then
    let remainderBits :=
      if inputStartMod + nofRemainderBits > 8 then pair input (inputStartWord + nofFullWords)
      else (input.getD (inputStartWord + nofFullWords) 0).toNat <<< 8
    full.set nofFullWords (byte ((remainderBits >>> (8 - inputStartMod)) &&& maskMsbOnes nofRemainderBits))
  else full

lemma length_copyWords (words input : Bytes) (p n : ℕ) : (copyWords words input p n).length = words.length := by
  unfold copyWords
  dsimp only
  split
  · rw [length_set, length_setWords]
  · exact length_setWords ..

def copyFrom (b : BitBuffer) (input : Bytes) (startpos n : ℕ) : BitBuffer :=
  b.withWords (copyWords b.buffer input startpos n) (length_copyWords ..)

@[simp] lemma size_copyFrom (b : BitBuffer) (input : Bytes) (p n : ℕ) : (b.copyFrom input p n).size = b.size := rfl

lemma bitOf_copyWords (words input : Bytes) (p : ℕ) (hn : n ≤ 8 * words.length) (hj : j < n) :
    bitOf (copyWords words input p n) j = bitOf input (p + j) := by
  have hpos : p = 8 * (p / 8) + p % 8 := (div_add_mod _ _).symm
  have hlt := mod_lt p (by decide : 8 > 0)
  have hjlt := mod_lt j (by decide : 8 > 0)
  have hk : 7 - j % 8 < 8 := by omega
  unfold copyWords
  dsimp only
  generalize p / 8 = w at *
  generalize p % 8 = m at *
  subst hpos
  -- a bit of a full word
  have hfull : j / 8 < n / 8 → (if m = 0 then input.getD (w + j / 8) 0
      else byte (pair input (w + j / 8) >>> (8 - m))).toNat.testBit (7 - j % 8) = bitOf input (8 * w + m + j) := by
    intro _
    split
    · rw [testBit_word input (w + j / 8) hjlt]
      congr 1
      omega
    · rw [testBit_byte hk, testBit_shiftRight, show 8 - m + (7 - j % 8) = 15 - (m + j % 8) by omega,
        testBit_pair input (w + j / 8) (by omega)]
      congr 1
      omega
  split
  next hrem =>
    rw [bitOf_set (by rw [length_setWords]; omega), bitOf_setWords _ (by omega)]
    split
    next hlast =>
      rw [testBit_byte hk, testBit_and, testBit_maskMsbOnes hk, decide_eq_true (by omega), Bool.and_true,
        testBit_shiftRight]
      split
      · rw [show 8 - m + (7 - j % 8) = 15 - (m + j % 8) by omega, testBit_pair input _ (by omega)]
        congr 1
        omega
      · rw [testBit_shiftLeft, decide_eq_true (by omega), Bool.true_and,
          show 8 - m + (7 - j % 8) - 8 = 7 - (m + j % 8) by omega, testBit_word input _ (by omega)]
        congr 1
        omega
    · rw [if_pos (by omega), hfull (by omega)]
  · rw [bitOf_setWords _ (by omega), if_pos (by omega), hfull (by omega)]

def setWordsFrom (o n : ℕ) (f : ℕ → UInt8) : Bytes := (List.range n).foldl (fun ws i => ws.set (o + i) (f i)) words

lemma setWordsFrom_succ (o n : ℕ) (f : ℕ → UInt8) :
    setWordsFrom words o (n + 1) f = (setWordsFrom words o n f).set (o + n) (f n) := by
  rw [setWordsFrom, List.range_succ, foldl_append]
  rfl

lemma length_setWordsFrom (o n : ℕ) (f : ℕ → UInt8) : (setWordsFrom words o n f).length = words.length := by
  induction n with
  | zero => rfl
  | succ n ih => rw [setWordsFrom_succ, length_set, ih]

lemma bitOf_setWordsFrom {words : Bytes} {o : ℕ} (f : ℕ → UInt8) (hn : o + n ≤ words.length) (j : ℕ) :
    bitOf (setWordsFrom words o n f) j =
      if o ≤ j / 8 ∧ j / 8 < o + n then (f (j / 8 - o)).toNat.testBit (7 - j % 8) else bitOf words j := by
  induction n with
  | zero => rw [if_neg (by omega)]; rfl
  | succ n ih =>
    rw [setWordsFrom_succ, bitOf_set (by rw [length_setWordsFrom]; omega), ih (by omega)]
    by_cases hj : j / 8 = o + n
    · rw [if_pos hj, if_pos (by omega), show j / 8 - o = n by omega]
    · rw [if_neg hj]
      by_cases hlt : o ≤ j / 8 ∧ j / 8 < o + n
      · rw [if_pos hlt, if_pos (by omega)]
      · rw [if_neg hlt, if_neg (by omega)]

def copyBits (input : BitBuffer) (outOffset inOffset : ℕ) : ℕ → ℕ → ℕ → BitBuffer → Option BitBuffer
  | 0, _, _, output => some output
  | fuel + 1, iBit, remainingBits, output =>
    if remainingBits = 0 then some output
    else do
      let bitsToExtract := min remainingBits 8
      let value ← input.extract (iBit + inOffset) bitsToExtract
      let output' ← output.insert value (iBit + outOffset) bitsToExtract
      copyBits input outOffset inOffset fuel (iBit + bitsToExtract) (remainingBits - bitsToExtract) output'

/-- `srsvec::copy_offset` between bit buffers; without a result, an assertion fails -/
def copyOffset (output : BitBuffer) (outOffset : ℕ) (input : BitBuffer) (inOffset nofBits : ℕ) : Option BitBuffer :=
  if input.size - inOffset < nofBits then none
  else if inOffset % 8 = 0 ∧ outOffset % 8 = 0 then
    let nofWords := nofBits / 8
    if outOffset / 8 + nofWords ≤ output.buffer.length ∧ inOffset / 8 + nofWords ≤ input.buffer.length then
      copyBits input outOffset inOffset (nofBits - nofWords * 8) (nofWords * 8) (nofBits - nofWords * 8)
        (output.withWords
          (setWordsFrom output.buffer (outOffset / 8) nofWords fun i => input.buffer.getD (inOffset / 8 + i) 0)
          (length_setWordsFrom ..))
    else none
  else copyBits input outOffset inOffset nofBits 0 nofBits output

lemma copyBits_eq {output : BitBuffer} {iBit fuel : ℕ} (hfuel : n ≤ fuel)
    (hin : io + iBit + n ≤ input.size) (hout : oo + iBit + n ≤ output.size) :
    ∃ output', copyBits input oo io fuel iBit n output = some output' ∧ output'.size = output.size ∧
      ∀ j, output'.bit j = if oo + iBit ≤ j ∧ j < oo + iBit + n then
        input.bit (io + (j - oo)) else output.bit j := by
  induction fuel generalizing iBit n output with
  | zero => exact ⟨output, rfl, rfl, fun j => by rw [if_neg (by omega)]⟩
  | succ fuel ih =>
    rw [copyBits]
    split
    · exact ⟨output, rfl, rfl, fun j => by rw [if_neg (by omega)]⟩
    rename_i hn
    have hmin : 0 < min n 8 ∧ min n 8 ≤ 8 ∧ min n 8 ≤ n := by omega
    generalize min n 8 = c at *
    obtain ⟨output1, hins, hsize1, hbits1⟩ := output.insert_eq hmin.1 hmin.2.1
      (show extractWords input.buffer (iBit + io) c < 2 ^ c from extractWords_lt input.buffer hmin.2.1)
      (show iBit + oo + c ≤ output.size by omega)
    have hext : input.extract (iBit + io) c = some (extractWords input.buffer (iBit + io) c) :=
      if_pos ⟨hmin.2.1, by omega⟩
    obtain ⟨output', hrun, hsize, hbits⟩ := ih (by omega)
      (by omega)
      (show oo + (iBit + c) + (n - c) ≤ output1.size by omega)
    refine ⟨output', ?_, hsize.trans hsize1, fun j => ?_⟩
    · simp only [hext, bind_eq_bind, bind_some, hins]
      exact hrun
    · rw [hbits j, hbits1 j]
      by_cases hlo : iBit + oo ≤ j ∧ j < iBit + oo + c
      · rw [if_neg (by omega), if_pos hlo, if_pos (by omega), testBit_extractWords input.buffer hmin.2.1,
          decide_eq_true (by omega), Bool.true_and]
        refine congrArg (bitOf input.buffer) ?_
        omega
      · rw [if_neg hlo]
        by_cases hhi : oo + (iBit + c) ≤ j ∧ j < oo + (iBit + c) + (n - c)
        · rw [if_pos hhi, if_pos (by omega)]
        · rw [if_neg hhi, if_neg (by omega)]

/-- **Copies.**  The bits from `outOffset` on are those of the input from `inOffset` on, and the others stay. -/
theorem copyOffset_eq (output : BitBuffer) {input : BitBuffer} (hin : io + n ≤ input.size)
    (hout : oo + n ≤ output.size) :
    ∃ output', output.copyOffset oo input io n = some output' ∧ output'.size = output.size ∧
      ∀ j, output'.bit j = if oo ≤ j ∧ j < oo + n then input.bit (io + (j - oo)) else output.bit j := by
  have hsin := input.size_le
  have hsout := output.size_le
  rw [copyOffset, if_neg (by omega)]
  split
  next halign =>
    rw [if_pos (by omega)]
    obtain ⟨output', hrun, hsize, hbits⟩ := copyBits_eq (le_refl (n - n / 8 * 8))
      (show io + n / 8 * 8 + (n - n / 8 * 8) ≤ input.size by omega)
      (show oo + n / 8 * 8 + (n - n / 8 * 8) ≤ (output.withWords
        (setWordsFrom output.buffer (oo / 8) (n / 8) fun i => input.buffer.getD (io / 8 + i) 0)
        (length_setWordsFrom ..)).size from show _ ≤ output.size by omega)
    refine ⟨output', hrun, hsize, fun j => ?_⟩
    rw [hbits j]
    have hjlt := mod_lt j (by decide : 8 > 0)
    have hword : (output.withWords
        (setWordsFrom output.buffer (oo / 8) (n / 8) fun i => input.buffer.getD (io / 8 + i) 0)
        (length_setWordsFrom ..)).bit j =
        if oo / 8 ≤ j / 8 ∧ j / 8 < oo / 8 + n / 8 then
          (input.buffer.getD (io / 8 + (j / 8 - oo / 8)) 0).toNat.testBit (7 - j % 8)
        else output.bit j := bitOf_setWordsFrom _ (by omega) j
    rw [hword]
    by_cases hlast : oo + n / 8 * 8 ≤ j ∧ j < oo + n / 8 * 8 + (n - n / 8 * 8)
    · rw [if_pos hlast, if_pos (by omega)]
    · rw [if_neg hlast]
      by_cases hfull : oo / 8 ≤ j / 8 ∧ j / 8 < oo / 8 + n / 8
      · rw [if_pos hfull, if_pos (by omega), testBit_word input.buffer _ hjlt]
        refine congrArg (bitOf input.buffer) ?_
        omega
      · rw [if_neg hfull, if_neg (by omega)]
  · obtain ⟨output', hrun, hsize, hbits⟩ := copyBits_eq (le_refl n) (show io + 0 + n ≤ input.size by omega)
      (by omega)
    exact ⟨output', hrun, hsize, hbits⟩

lemma length_buffer_insert (h : b.insert value p count = some b') : b'.buffer.length = b.buffer.length := by
  rw [insert] at h
  split at h
  · cases h
    exact length_insertWords ..
  · cases h

lemma length_buffer_copyBits {fuel iBit : ℕ}
    (h : copyBits input oo io fuel iBit n b = some b') : b'.buffer.length = b.buffer.length := by
  induction fuel generalizing iBit n b with
  | zero => cases h; rfl
  | succ fuel ih =>
    rw [copyBits] at h
    split at h
    · cases h
      rfl
    · obtain ⟨value, -, h⟩ := bind_eq_some_iff.mp h
      obtain ⟨b1, hins, h⟩ := bind_eq_some_iff.mp h
      exact (ih h).trans (length_buffer_insert hins)

lemma length_buffer_copyOffset (h : b.copyOffset oo input io n = some b') : b'.buffer.length = b.buffer.length := by
  rw [copyOffset] at h
  split at h
  · cases h
  split at h
  · dsimp only at h
    split at h
    · exact (length_buffer_copyBits h).trans (length_setWordsFrom ..)
    · cases h
  · exact length_buffer_copyBits h

/-! ### Buffers that are filled from their beginning on -/

def bytesBits (l : Bytes) : List Bool := (List.range (8 * l.length)).map (bitOf l)

/-- The `count` low bits of a number, the most significant one first. -/
def bitsOf (count value : ℕ) : List Bool := (List.range count).map fun k => value.testBit (count - 1 - k)

def first (b : BitBuffer) (count : ℕ) : Option BitBuffer :=
  if h : count ≤ b.size then some ⟨b.buffer, count, h.trans b.size_le⟩ else none

def firstBits (b : BitBuffer) (n : ℕ) : List Bool := (List.range n).map b.bit

/-- The first bits of the buffer. -/
def BeginsWith (b : BitBuffer) (xs : List Bool) : Prop := xs.length ≤ b.size ∧ b.firstBits xs.length = xs

@[simp] lemma length_bytesBits (l : Bytes) : (bytesBits l).length = 8 * l.length := by
  rw [bytesBits, length_map, length_range]

@[simp] lemma length_bitsOf (count value : ℕ) : (bitsOf count value).length = count := by
  rw [bitsOf, length_map, length_range]

@[simp] lemma length_firstBits (b : BitBuffer) (n : ℕ) : (b.firstBits n).length = n := by
  rw [firstBits, length_map, length_range]

lemma getElem_bytesBits (l : Bytes) (h : j < (bytesBits l).length) : (bytesBits l)[j] = bitOf l j := by
  simp [bytesBits]

lemma getElem_bitsOf (count value : ℕ) {k : ℕ} (h : k < (bitsOf count value).length) :
    (bitsOf count value)[k] = value.testBit (count - 1 - k) := by
  simp [bitsOf]

lemma getElem_firstBits (b : BitBuffer) (n : ℕ) (h : j < (b.firstBits n).length) : (b.firstBits n)[j] = b.bit j := by
  simp [firstBits]

lemma beginsWith_iff : b.BeginsWith xs ↔ xs.length ≤ b.size ∧ ∀ j (h : j < xs.length), b.bit j = xs[j] := by
  refine and_congr_right fun _ => ⟨fun heq j h => ?_, fun hbits => ?_⟩
  · rw [← getElem_firstBits b xs.length (by rwa [length_firstBits])]
    exact getElem_of_eq heq _
  · refine ext_getElem (length_firstBits ..) fun j h1 h2 => ?_
    rw [getElem_firstBits, hbits j h2]

lemma BeginsWith.bit_eq (h : b.BeginsWith xs) (hj : j < xs.length) : b.bit j = xs[j] := (beginsWith_iff.mp h).2 j hj

lemma BeginsWith.insert (h : b.BeginsWith xs) (hpos : 0 < count)
    (hc : count ≤ 8) (hv : value < 2 ^ count) (hfit : xs.length + count ≤ b.size) :
    ∃ b', b.insert value xs.length count = some b' ∧ b'.size = b.size ∧ b'.BeginsWith (xs ++ bitsOf count value) := by
  obtain ⟨b', hins, hsize, hbits⟩ := b.insert_eq hpos hc hv hfit
  refine ⟨b', hins, hsize, beginsWith_iff.mpr ⟨?_, fun j hj => ?_⟩⟩
  · rw [length_append, length_bitsOf]
    omega
  · rw [length_append, length_bitsOf] at hj
    rw [hbits]
    rcases lt_or_ge j xs.length with hlo | hhi
    · rw [if_neg (by omega), getElem_append_left hlo, h.bit_eq hlo]
    · rw [if_pos ⟨hhi, hj⟩, getElem_append_right hhi, getElem_bitsOf]
      congr 1
      omega

lemma BeginsWith.copyOffset {ys : List Bool} (h : b.BeginsWith xs)
    (hin : input.BeginsWith ys) (hn : n ≤ ys.length) (hfit : xs.length + n ≤ b.size) :
    ∃ b', b.copyOffset xs.length input 0 n = some b' ∧ b'.size = b.size ∧ b'.BeginsWith (xs ++ ys.take n) := by
  have hlen := hin.1
  obtain ⟨b', hcopy, hsize, hbits⟩ := b.copyOffset_eq (show 0 + n ≤ input.size by omega) hfit
  refine ⟨b', hcopy, hsize, beginsWith_iff.mpr ⟨?_, fun j hj => ?_⟩⟩
  · rw [length_append, length_take]
    omega
  · rw [length_append, length_take, Nat.min_eq_left hn] at hj
    rw [hbits]
    rcases lt_or_ge j xs.length with hlo | hhi
    · rw [if_neg (by omega), getElem_append_left hlo, h.bit_eq hlo]
    · rw [if_pos ⟨hhi, hj⟩, getElem_append_right hhi, getElem_take, zero_add, hin.bit_eq]

lemma BeginsWith.take {ys : List Bool} (h : b.BeginsWith (xs ++ ys)) : b.BeginsWith xs := by
  have hlen := h.1
  rw [length_append] at hlen
  refine beginsWith_iff.mpr ⟨by omega, fun j hj => ?_⟩
  rw [h.bit_eq (by rw [length_append]; omega), getElem_append_left hj]

lemma BeginsWith.first (h : b.BeginsWith xs) (hn : xs.length ≤ n)
    (hle : n ≤ b.size) : ∃ b', b.first n = some b' ∧ b'.size = n ∧ b'.BeginsWith xs :=
  ⟨_, dif_pos hle, rfl, beginsWith_iff.mpr ⟨hn, fun _ hj => h.bit_eq hj⟩⟩

lemma BeginsWith.extract {zs : List Bool} (hc : count ≤ 8) (hv : value < 2 ^ count)
    (h : b.BeginsWith (xs ++ (bitsOf count value ++ zs))) : b.extract xs.length count = some value := by
  have hlen := h.1
  rw [length_append, length_append, length_bitsOf] at hlen
  refine extract_eq b hc (by omega) hv fun k hk => ?_
  rw [h.bit_eq (by rw [length_append, length_append, length_bitsOf]; omega),
    getElem_append_right (by omega), getElem_append_left (by rw [length_bitsOf]; omega), getElem_bitsOf]
  congr 1
  omega

lemma eq_of_bytesBits {l l' : Bytes} (h : bytesBits l = bytesBits l') : l = l' := by
  have hlen : l.length = l'.length := by
    have := congrArg List.length h
    rw [length_bytesBits, length_bytesBits] at this
    omega
  refine ext_getElem hlen fun w h1 h2 => UInt8.toNat_inj.mp (eq_of_testBit_eq fun k => ?_)
  rcases lt_or_ge k 8 with hk | hk
  · have hbit : bitOf l (8 * w + (7 - k)) = bitOf l' (8 * w + (7 - k)) := by
      rw [← getElem_bytesBits l (by rw [length_bytesBits]; omega),
        ← getElem_bytesBits l' (by rw [length_bytesBits]; omega)]
      exact getElem_of_eq h _
    rw [← testBit_word l w (by omega), ← testBit_word l' w (by omega), show 7 - (7 - k) = k by omega,
      getD_eq_getElem _ _ h1, getD_eq_getElem _ _ h2] at hbit
    exact hbit
  · rw [testBit_of_lt (UInt8.toNat_lt _) hk, testBit_of_lt (UInt8.toNat_lt _) hk]

end BitBuffer

end SrsRan.Support
