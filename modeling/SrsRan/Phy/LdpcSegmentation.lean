import SrsRan.Phy.LdpcSegmenter

/-!
# Segmentation by the transmitter

`Transmission` is a transport block with a configuration that the transmitter accepts, and `Transmission.parameters` has its
segment parameters in closed form, unless the arrays or the numbers do not suffice (`newTransmission_eq`).
-/

namespace SrsRan.Phy.Ldpc

open Support Support.BitBuffer List Option Nat

/-! ### Bits written and read byte by byte -/

lemma bitsOf_append (m n value : ℕ) : bitsOf (m + n) value = bitsOf m (value >>> n) ++ bitsOf n value := by
  refine ext_getElem (by simp) fun k h1 h2 => ?_
  rw [length_bitsOf] at h1
  rw [getElem_bitsOf]
  rcases lt_or_ge k m with hlo | hhi
  · rw [getElem_append_left (by rwa [length_bitsOf]), getElem_bitsOf, testBit_shiftRight]
    congr 1
    omega
  · rw [getElem_append_right (by rwa [length_bitsOf]), getElem_bitsOf]
    congr 1
    rw [length_bitsOf]
    omega

lemma bitsOf_and_lsb (value : ℕ) : bitsOf 8 (value &&& 0xff) = bitsOf 8 value := by
  refine ext_getElem (by simp) fun k h1 h2 => ?_
  rw [length_bitsOf] at h1
  have hmask : testBit 0xff (8 - 1 - k) = true := by
    interval_cases k <;> rfl
  rw [getElem_bitsOf, getElem_bitsOf, testBit_and, hmask, Bool.and_true]

lemma bitsOf_zero (n : ℕ) : bitsOf n 0 = replicate n false := by
  refine ext_getElem (by simp) fun k h1 h2 => ?_
  rw [getElem_bitsOf, zero_testBit, getElem_replicate]

variable {n : ℕ} {b : BitBuffer} {xs : List Bool}

lemma insertChecksum_eq {width iByte : ℕ} (hwidth : width = 8 * (iByte + n)) (checksum : ℕ)
    (h : b.BeginsWith xs) (hfit : xs.length + 8 * n ≤ b.size) :
    ∃ b', insertChecksum width checksum n iByte xs.length b = some b' ∧ b'.size = b.size ∧
      b'.BeginsWith (xs ++ bitsOf (8 * n) checksum) := by
  induction n generalizing iByte b xs with
  | zero => exact ⟨b, rfl, rfl, by rwa [show bitsOf (8 * 0) checksum = [] from rfl, append_nil]⟩
  | succ n ih =>
    have hbyte : (checksum >>> (8 * n)) &&& 0xff < 2 ^ 8 := and_lt_two_pow _ (by decide)
    obtain ⟨b1, hins, hsize1, h1⟩ := h.insert (by decide) le_rfl hbyte (by omega)
    rw [bitsOf_and_lsb] at h1
    obtain ⟨b', hrest, hsize, h'⟩ := ih (show width = 8 * (iByte + 1 + n) by omega) h1
      (by rw [length_append, length_bitsOf]; omega)
    refine ⟨b', ?_, hsize.trans hsize1, ?_⟩
    · rw [insertChecksum, show width - (iByte + 1) * 8 = 8 * n by omega, hins]
      rwa [length_append, length_bitsOf] at hrest
    · rwa [append_assoc, ← bitsOf_append, show 8 + 8 * n = 8 * (n + 1) by omega] at h'

lemma insertZeros_eq {fuel : ℕ} (hfuel : n ≤ fuel) (h : b.BeginsWith xs) (hfit : xs.length + n ≤ b.size) :
    ∃ b', insertZeros fuel xs.length (xs.length + n) b = some b' ∧ b'.size = b.size ∧
      b'.BeginsWith (xs ++ replicate n false) := by
  induction fuel generalizing n b xs with
  | zero =>
    obtain rfl : n = 0 := by omega
    exact ⟨b, if_pos rfl, rfl, by rwa [replicate_zero, append_nil]⟩
  | succ fuel ih =>
    rw [insertZeros]
    rcases Nat.eq_zero_or_pos n with rfl | hn
    · exact ⟨b, if_pos rfl, rfl, by rwa [replicate_zero, append_nil]⟩
    have hmin : 0 < min 8 n ∧ min 8 n ≤ 8 ∧ min 8 n ≤ n := by omega
    rw [if_neg (by omega), Nat.add_sub_cancel_left]
    generalize min 8 n = c at *
    obtain ⟨b1, hins, hsize1, h1⟩ := h.insert hmin.1 hmin.2.1 (Nat.two_pow_pos c) (by omega)
    obtain ⟨b', hrest, hsize, h'⟩ := ih (show n - c ≤ fuel by omega) h1
      (by rw [length_append, length_bitsOf]; omega)
    refine ⟨b', ?_, hsize.trans hsize1, ?_⟩
    · dsimp only
      rw [hins]
      rwa [length_append, length_bitsOf, show xs.length + c + (n - c) = xs.length + n by omega] at hrest
    · rwa [bitsOf_zero, append_assoc, ← replicate_add, show c + (n - c) = n by omega] at h'

lemma shiftLeft_shiftRight_or (w : ℕ) : (w >>> 8) <<< 8 ||| (w &&& 0xff) = w := by
  have hlow : w &&& 0xff = w % 2 ^ 8 := and_two_pow_sub_one_eq_mod w 8
  rw [hlow, ← shiftLeft_add_eq_or_of_lt (mod_lt w (by decide)), shiftLeft_eq, shiftRight_eq_div_pow]
  omega

lemma extractChecksum_eq {value iByte pos : ℕ} (hvalue : value < 2 ^ 32) {zs : List Bool}
    (hpos : xs.length = pos + iByte * 8) (h : b.BeginsWith (xs ++ (bitsOf (8 * n) value ++ zs))) :
    extractChecksum b pos n iByte (value >>> (8 * n)) = some value := by
  induction n generalizing iByte xs with
  | zero => rfl
  | succ n ih =>
    have hbyte : (value >>> (8 * n)) &&& 0xff < 2 ^ 8 := and_lt_two_pow _ (by decide)
    have hsplit : bitsOf (8 * (n + 1)) value = bitsOf 8 ((value >>> (8 * n)) &&& 0xff) ++ bitsOf (8 * n) value := by
      rw [bitsOf_and_lsb, ← bitsOf_append, show 8 + 8 * n = 8 * (n + 1) by omega]
    rw [hsplit, append_assoc] at h
    have hext := h.extract le_rfl hbyte
    rw [hpos] at hext
    rw [extractChecksum, hext]
    have hlt : value >>> (8 * n) < 2 ^ 32 := by
      rw [shiftRight_eq_div_pow]
      exact lt_of_le_of_lt (Nat.div_le_self ..) hvalue
    dsimp only [bind_eq_bind, bind_some]
    rw [show 8 * (n + 1) = 8 * n + 8 by omega, shiftRight_add, shiftLeft_shiftRight_or, mod_eq_of_lt hlt]
    rw [← append_assoc] at h
    exact ih (by rw [length_append, length_bitsOf]; omega) h

/-! ### Transmissions -/

/-- A transport block that the segmenter admits. -/
structure Transmission where
  transportBlock : Bytes
  cfg : SegmenterConfig
  nonempty : transportBlock ≠ []
  admissible : 8 * transportBlock.length + 24 ≤ maxTbs
  rv_le : cfg.rv ≤ 3
  layers_pos : 1 ≤ cfg.nofLayers
  layers_le : cfg.nofLayers ≤ 4
  multiple : cfg.nofChSymbols % cfg.nofLayers = 0

namespace Transmission

variable (t : Transmission)

def tbs : ℕ := 8 * t.transportBlock.length

def nofSegments : ℕ := computeNofCodeblocks t.tbs t.cfg.baseGraph

def info : ℕ := infoBits t.tbs t.cfg.baseGraph

def pad : ℕ := padBits t.tbs t.cfg.baseGraph

def segCrc : ℕ := segCrcBits t.tbs t.cfg.baseGraph

def symbolsPerLayer : ℕ := t.cfg.nofChSymbols / t.cfg.nofLayers

def codewordLength : ℕ := t.cfg.nofChSymbols * getBitsPerSymbol t.cfg.mod

lemma sizes : Sizes t.tbs t.cfg.baseGraph := by
  refine Ldpc.sizes ?_ t.admissible t.cfg.baseGraph
  have := length_pos_of_ne_nil t.nonempty
  omega

lemma nofSegments_pos : 0 < t.nofSegments := t.sizes.nofSegments_pos

lemma info_mul : t.nofSegments * t.info = t.tbs + computeTbCrcSize t.tbs + t.pad := t.sizes.info_mul

lemma last_pos : (t.nofSegments - 1) * t.info < t.tbs := t.sizes.last_pos

lemma last_eq : t.info - (computeTbCrcSize t.tbs + t.pad) = t.tbs - (t.nofSegments - 1) * t.info ∧
    computeTbCrcSize t.tbs + t.pad ≤ t.info := by
  have hmul := t.info_mul
  have hlast := t.last_pos
  rw [Nat.sub_mul, one_mul] at hlast ⊢
  have := Nat.le_mul_of_pos_left t.info t.nofSegments_pos
  omega

def rmLength (k : ℕ) : ℕ :=
  (if k < t.nofSegments - t.symbolsPerLayer % t.nofSegments then t.symbolsPerLayer / t.nofSegments
    else divideCeil t.symbolsPerLayer t.nofSegments) * t.cfg.nofLayers * getBitsPerSymbol t.cfg.mod % 2 ^ 32

def offset : ℕ → ℕ
  | 0 => 0
  | k + 1 => (offset k + t.rmLength k) % 2 ^ 32

def description (z k : ℕ) : CodeblockDescription where
  baseGraph := t.cfg.baseGraph
  liftingSize := z
  rv := t.cfg.rv
  mod := t.cfg.mod
  nref := t.cfg.nref
  cwLength := t.codewordLength % 2 ^ 32
  fullLength := computeFullCodeblockSize t.cfg.baseGraph (computeCodeblockSize t.cfg.baseGraph z)
  nofFillerBits := computeCodeblockSize t.cfg.baseGraph z - (t.info + t.segCrc)
  rmLength := t.rmLength k
  cwOffset := t.offset k
  nofCrcBits := if t.nofSegments = 1 then computeTbCrcSize t.tbs else t.segCrc

def parameters (z n : ℕ) : SegmentParameters where
  segmentLength := computeCodeblockSize t.cfg.baseGraph z
  nofTbBitsIn := t.tbs + computeTbCrcSize t.tbs
  nofTbBitsOut := nofBitsOut t.tbs t.cfg.baseGraph
  nofSegments := t.nofSegments
  nofSymbolsPerLayer := t.symbolsPerLayer
  nofShortSegments := t.nofSegments - t.symbolsPerLayer % t.nofSegments
  baseGraph := t.cfg.baseGraph
  liftingSize := z
  cwLength := t.codewordLength % 2 ^ 32
  nofFillerBits := computeCodeblockSize t.cfg.baseGraph z - t.info - t.segCrc
  nofCrcBits := t.segCrc
  cbInfoBits := t.info
  cbInfoBitsLast := if n = t.nofSegments then t.info - (computeTbCrcSize t.tbs + t.pad) else 0
  zeroPad := t.pad
  nofTbCrcBits := computeTbCrcSize t.tbs
  cwOffset := (List.range n).map t.offset
  tbOffset := (List.range n).map (· * t.info)
  cbMetadata := (List.range n).map (t.description z)

lemma txParameters_eq {z : ℕ} (hz : computeLiftingSize t.tbs t.cfg.baseGraph t.nofSegments = some z) :
    txParameters t.tbs t.cfg = some (t.parameters z 0) := by
  have hC := t.nofSegments_pos
  have hlast : (if 0 = t.nofSegments then t.info - (computeTbCrcSize t.tbs + t.pad) else 0) = 0 := if_neg (by omega)
  rw [parameters, hlast, txParameters]
  change (computeLiftingSize t.tbs t.cfg.baseGraph t.nofSegments).bind _ = _
  rw [hz]
  rfl

lemma parameters_succ (z k : ℕ) : { t.parameters z k with
      cwOffset := (t.parameters z k).cwOffset ++ [t.offset k]
      tbOffset := (t.parameters z k).tbOffset ++ [k * t.info]
      cbMetadata := (t.parameters z k).cbMetadata ++ [t.description z k]
      cbInfoBitsLast := (t.parameters z (k + 1)).cbInfoBitsLast } = t.parameters z (k + 1) := by
  dsimp only [parameters]
  simp only [range_succ, map_append, map_singleton]

lemma generateCbMetadata_eq (z k : ℕ) (tbOffset : List ℕ) : generateCbMetadata { t.parameters z k with
      cwOffset := (t.parameters z k).cwOffset ++ [t.offset k], tbOffset := tbOffset } t.cfg k = t.description z k := by
  have hoffset : ((range k).map t.offset ++ [t.offset k]).getD k 0 = t.offset k := by
    simp [getD_eq_getElem?_getD]
  rw [generateCbMetadata, description]
  dsimp only [parameters]
  rw [hoffset, Nat.sub_sub]
  rfl

lemma txSegments_eq (z : ℕ) (hmost : t.nofSegments ≤ maxNofSegments) {n i : ℕ} (hn : i + (n + 1) = t.nofSegments) :
    txSegments t.cfg (n + 1) i (t.offset i) (i * t.info) (t.parameters z i) =
      some (t.parameters z t.nofSegments, t.offset t.nofSegments, t.tbs + computeTbCrcSize t.tbs) := by
  have hlast := t.last_eq
  have hbits := t.last_pos
  induction n generalizing i with
  | zero =>
    have hparams : _ = t.parameters z (i + 1) := t.parameters_succ z i
    rw [show (t.parameters z (i + 1)).cbInfoBitsLast = t.info - (computeTbCrcSize t.tbs + t.pad) from if_pos hn]
      at hparams
    rw [txSegments, if_neg (by omega)]
    dsimp only
    rw [generateCbMetadata_eq, if_pos (show i = (t.parameters z i).nofSegments - 1 from Nat.eq_sub_of_add_eq hn), txSegments, ← hn]
    refine congrArg some (Prod.ext hparams (Prod.ext rfl ?_))
    show i * t.info + computeTbCrcSize t.tbs + (t.info - (computeTbCrcSize t.tbs + t.pad)) =
      t.tbs + computeTbCrcSize t.tbs
    rw [show i = t.nofSegments - 1 by omega]
    omega
  | succ n ih =>
    have hparams : _ = t.parameters z (i + 1) := t.parameters_succ z i
    rw [show (t.parameters z (i + 1)).cbInfoBitsLast = (t.parameters z i).cbInfoBitsLast from
      (if_neg (by omega)).trans (if_neg (by omega)).symm] at hparams
    rw [txSegments, if_neg (by omega)]
    dsimp only
    have hmiddle : ¬ i = (t.parameters z i).nofSegments - 1 := show ¬ i = t.nofSegments - 1 by omega
    rw [generateCbMetadata_eq, if_neg hmiddle]
    have hnext := ih (show i + 1 + (n + 1) = t.nofSegments by omega)
    rwa [succ_mul, ← hparams] at hnext

lemma txSegments_eq_none {cfg : SegmenterConfig} {n i cwOffset tbOffset : ℕ} {p : SegmentParameters}
    (hi : i ≤ maxNofSegments) (hn : maxNofSegments < i + n) : txSegments cfg n i cwOffset tbOffset p = none := by
  induction n generalizing i cwOffset tbOffset p with
  | zero => omega
  | succ n ih =>
    rw [txSegments]
    split
    · rfl
    · dsimp only
      split <;> exact ih (by omega) (by omega)

lemma checkInputsTx_eq : checkInputsTx t.transportBlock t.cfg = true := by
  have hnonempty := t.nonempty
  simp [checkInputsTx, t.admissible, t.rv_le, t.layers_pos, t.layers_le, t.multiple, hnonempty]

lemma newTransmission_eq {z : ℕ} (hz : computeLiftingSize t.tbs t.cfg.baseGraph t.nofSegments = some z) :
    newTransmission t.transportBlock t.cfg =
      if t.nofSegments ≤ maxNofSegments ∧ t.codewordLength % 2 ^ 32 = t.offset t.nofSegments then
        some (t.parameters z t.nofSegments) else none := by
  have hC := t.nofSegments_pos
  have hparams : txParameters (8 * t.transportBlock.length) t.cfg = some (t.parameters z 0) := t.txParameters_eq hz
  rw [newTransmission, t.checkInputsTx_eq, hparams]
  simp only [Bool.not_true, Bool.false_eq_true, if_false, bind_eq_bind, bind_some]
  by_cases hmost : t.nofSegments ≤ maxNofSegments
  · have hsegments : txSegments t.cfg (t.parameters z 0).nofSegments 0 0 0 (t.parameters z 0) =
        some (t.parameters z t.nofSegments, t.offset t.nofSegments, t.tbs + computeTbCrcSize t.tbs) := by
      have := t.txSegments_eq z hmost (show 0 + (t.nofSegments - 1 + 1) = t.nofSegments by omega)
      rwa [Nat.sub_add_cancel hC, Nat.zero_mul] at this
    rw [hsegments, bind_some, if_neg (fun h => h rfl)]
    change (if t.codewordLength % 2 ^ 32 ≠ t.offset t.nofSegments then none else
      some (t.parameters z t.nofSegments)) = _
    by_cases hcw : t.codewordLength % 2 ^ 32 = t.offset t.nofSegments
    · rw [if_neg (not_not_intro hcw), if_pos ⟨hmost, hcw⟩]
    · rw [if_pos hcw, if_neg (fun h => hcw h.2)]
  · have hsegments : txSegments t.cfg (t.parameters z 0).nofSegments 0 0 0 (t.parameters z 0) = none :=
      txSegments_eq_none (Nat.zero_le _) (show maxNofSegments < 0 + t.nofSegments by omega)
    rw [if_neg (fun h => hmost h.1), hsegments, bind_none]

/-! ### Rate-matched lengths -/

/-- The lengths fit into 32 bits. -/
def Representable : Prop :=
  t.codewordLength < 2 ^ 32 ∧
    (t.symbolsPerLayer % t.nofSegments = 0 ∨ t.symbolsPerLayer + (t.nofSegments - 1) < 2 ^ 32)

instance : Decidable t.Representable := by unfold Representable; infer_instance

def layerBits : ℕ := t.cfg.nofLayers * getBitsPerSymbol t.cfg.mod

/-- The sum of the rate-matched lengths of the first `k` segments. -/
def rmSum (k : ℕ) : ℕ := ((List.range k).map t.rmLength).sum

lemma rmSum_succ (k : ℕ) : t.rmSum (k + 1) = t.rmSum k + t.rmLength k := by
  rw [rmSum, range_succ, map_append, List.sum_append, map_singleton, sum_singleton]
  rfl

lemma codewordLength_eq : t.codewordLength = t.symbolsPerLayer * t.layerBits := by
  rw [codewordLength, symbolsPerLayer, layerBits, ← mul_assoc, Nat.div_mul_cancel (dvd_of_mod_eq_zero t.multiple)]

lemma layerBits_pos : 0 < t.layerBits := by
  refine mul_pos t.layers_pos ?_
  cases t.cfg.mod <;> decide

variable {k : ℕ}

lemma rmLength_eq (h : t.Representable) (hk : k < t.nofSegments) : t.rmLength k = (t.symbolsPerLayer / t.nofSegments +
      if k < t.nofSegments - t.symbolsPerLayer % t.nofSegments then 0 else 1) * t.layerBits := by
  obtain ⟨hlt, hceil⟩ := h
  rw [codewordLength_eq] at hlt
  have hC := t.nofSegments_pos
  have hdm := div_add_mod t.symbolsPerLayer t.nofSegments
  have hquot := Nat.le_mul_of_pos_left (t.symbolsPerLayer / t.nofSegments) hC
  rw [rmLength, mul_assoc]
  change _ * t.layerBits % _ = _
  split
  · refine mod_eq_of_lt (lt_of_le_of_lt (Nat.mul_le_mul_right _ ?_) hlt)
    omega
  · have hround : divideCeil t.symbolsPerLayer t.nofSegments = t.symbolsPerLayer / t.nofSegments + 1 := by
      obtain ⟨hle, hgt⟩ := divideCeil_bounds hC (hceil.resolve_left (by omega))
      have hmod := mod_lt t.symbolsPerLayer hC
      have hlo : t.symbolsPerLayer / t.nofSegments < divideCeil t.symbolsPerLayer t.nofSegments :=
        Nat.lt_of_mul_lt_mul_left (show t.nofSegments * _ < t.nofSegments * _ by omega)
      have hhi : divideCeil t.symbolsPerLayer t.nofSegments < t.symbolsPerLayer / t.nofSegments + 2 :=
        Nat.lt_of_mul_lt_mul_left (show t.nofSegments * _ < t.nofSegments * _ by rw [mul_add]; omega)
      omega
    rw [hround]
    refine mod_eq_of_lt (lt_of_le_of_lt (Nat.mul_le_mul_right _ ?_) hlt)
    omega

lemma rmSum_eq (h : t.Representable) (hk : k ≤ t.nofSegments) : t.rmSum k = (k * (t.symbolsPerLayer / t.nofSegments) +
      (k - (t.nofSegments - t.symbolsPerLayer % t.nofSegments))) * t.layerBits := by
  induction k with
  | zero => rw [Nat.zero_sub, zero_mul, zero_add, zero_mul]; rfl
  | succ k ih =>
    rw [rmSum_succ, ih (by omega), t.rmLength_eq h (by omega), ← add_mul, succ_mul]
    congr 1
    split <;> omega

/-- **The rate-matched lengths sum to the codeword length.** -/
lemma rmSum_nofSegments (h : t.Representable) : t.rmSum t.nofSegments = t.codewordLength := by
  have hdm := div_add_mod t.symbolsPerLayer t.nofSegments
  have hlt := mod_lt t.symbolsPerLayer t.nofSegments_pos
  rw [t.rmSum_eq h le_rfl, codewordLength_eq]
  congr 1
  omega

lemma rmSum_lt (hlt : t.codewordLength < 2 ^ 32) (h : ¬ t.Representable) :
    t.rmSum t.nofSegments < t.codewordLength := by
  have hC := t.nofSegments_pos
  have hmost : t.nofSegments ≤ 335 := by
    rcases nofCodeblocks_cases t.admissible t.cfg.baseGraph with h | h
    · exact h.1.le.trans (by decide)
    · exact h.2.1
  have hdm := div_add_mod t.symbolsPerLayer t.nofSegments
  rw [codewordLength_eq] at hlt ⊢
  have hsymbols := Nat.le_mul_of_pos_right t.symbolsPerLayer t.layerBits_pos
  obtain ⟨hrem, hwrap⟩ := not_or.mp fun hor => h ⟨by rwa [codewordLength_eq], hor⟩
  -- the rounded quotient wraps to zero
  have hzero : divideCeil t.symbolsPerLayer t.nofSegments = 0 := by
    refine div_eq_of_lt ?_
    omega
  have hlength : ∀ k, t.rmLength k ≤ t.symbolsPerLayer / t.nofSegments * t.layerBits := by
    intro k
    rw [rmLength, Nat.mul_assoc, hzero]
    refine (mod_le ..).trans (Nat.mul_le_mul_right _ ?_)
    split
    · exact le_rfl
    · exact Nat.zero_le _
  have hsum : ∀ k, t.rmSum k ≤ k * (t.symbolsPerLayer / t.nofSegments * t.layerBits) := by
    intro k
    induction k with
    | zero => exact Nat.zero_le _
    | succ k ih =>
      rw [rmSum_succ, succ_mul]
      exact Nat.add_le_add ih (hlength k)
  calc t.rmSum t.nofSegments ≤ t.nofSegments * (t.symbolsPerLayer / t.nofSegments * t.layerBits) := hsum _
    _ = t.nofSegments * (t.symbolsPerLayer / t.nofSegments) * t.layerBits := (Nat.mul_assoc ..).symm
    _ < t.symbolsPerLayer * t.layerBits := Nat.mul_lt_mul_of_pos_right (by omega) t.layerBits_pos

lemma rmSum_mono {j : ℕ} (h : j ≤ k) : t.rmSum j ≤ t.rmSum k := by
  induction h with
  | refl => exact le_rfl
  | step _ ih => exact ih.trans (by rw [succ_eq_add_one, rmSum_succ]; omega)

lemma offset_eq (h : t.rmSum t.nofSegments < 2 ^ 32) (hk : k ≤ t.nofSegments) : t.offset k = t.rmSum k := by
  induction k with
  | zero => rfl
  | succ k ih =>
    rw [offset, ih (by omega), ← rmSum_succ]
    exact mod_eq_of_lt (lt_of_le_of_lt (t.rmSum_mono hk) h)

end Transmission

namespace Transmission

variable (t : Transmission) (crc : CrcSet)

/-! ### The codeblocks that are read -/

def tbChecksum : ℕ :=
  if t.tbs ≤ 3824 then crc.crc16 (bytesBits t.transportBlock) else crc.crc24A (bytesBits t.transportBlock)

def stream : List Bool :=
  bytesBits t.transportBlock ++ (bitsOf (computeTbCrcSize t.tbs) (t.tbChecksum crc) ++ List.replicate t.pad false)

def part (k : ℕ) : List Bool := ((t.stream crc).drop (k * t.info)).take t.info

def codeblockBits (segmentLength k : ℕ) : List Bool :=
  t.part crc k ++ ((if 1 < t.nofSegments then bitsOf 24 (crc.crc24B (t.part crc k)) else []) ++
    List.replicate (segmentLength - (t.info + t.segCrc)) false)

lemma length_stream : (t.stream crc).length = t.nofSegments * t.info := by
  rw [stream, length_append, length_append, length_bytesBits, length_bitsOf, length_replicate, info_mul, tbs]
  omega

variable {k : ℕ}

lemma length_part (hk : k < t.nofSegments) : (t.part crc k).length = t.info := by
  have hle := Nat.mul_le_mul_right t.info (show k + 1 ≤ t.nofSegments by omega)
  rw [succ_mul] at hle
  rw [part, length_take, length_drop, length_stream]
  omega

lemma flatten_slices {α : Type} (l : List α) (start : ℕ → ℕ) (len : ℕ → ℕ) (h0 : start 0 = 0)
    (hsucc : ∀ k, start (k + 1) = start k + len k) (n : ℕ) :
    ((range n).map fun k => (l.drop (start k)).take (len k)).flatten = l.take (start n) := by
  induction n with
  | zero => rw [h0]; rfl
  | succ n ih =>
    rw [range_succ, map_append, flatten_append, ih, hsucc, take_add, map_singleton, flatten_singleton]

lemma flatten_parts : ((range t.nofSegments).map (t.part crc)).flatten = t.stream crc := by
  have h := flatten_slices (t.stream crc) (· * t.info) (fun _ => t.info) (zero_mul _) (fun k => succ_mul ..)
    t.nofSegments
  rwa [← length_stream t crc, take_length] at h

lemma part_of_lt (hk : k + 1 < t.nofSegments) :
    t.part crc k = ((bytesBits t.transportBlock).drop (k * t.info)).take t.info := by
  have hle := Nat.mul_le_mul_right t.info (show k + 1 ≤ t.nofSegments - 1 by omega)
  have hlast := t.last_pos
  have htbs : (bytesBits t.transportBlock).length = t.tbs := length_bytesBits _
  rw [succ_mul] at hle
  rw [part, stream, drop_append_of_le_length (by omega), take_append_of_le_length (by rw [length_drop]; omega)]

lemma part_last : t.part crc (t.nofSegments - 1) =
    (bytesBits t.transportBlock).drop ((t.nofSegments - 1) * t.info) ++
      (bitsOf (computeTbCrcSize t.tbs) (t.tbChecksum crc) ++ replicate t.pad false) := by
  have hlast := t.last_pos
  have heq := t.last_eq
  have htbs : (bytesBits t.transportBlock).length = t.tbs := length_bytesBits _
  rw [part, stream, drop_append_of_le_length (by omega), take_of_length_le]
  rw [length_append, length_append, length_drop, length_bitsOf, length_replicate, htbs]
  omega

lemma beginsWith_copy (b : BitBuffer) (l : Bytes) {start n : ℕ} (hn : n ≤ b.size) (hin : start + n ≤ 8 * l.length) :
    (b.copyFrom l start n).BeginsWith (((bytesBits l).drop start).take n) := by
  have hlen : (((bytesBits l).drop start).take n).length = n := by
    rw [length_take, length_drop, length_bytesBits]
    omega
  refine beginsWith_iff.mpr ⟨hlen.trans_le hn, fun j hj => ?_⟩
  have hbit : bitOf (copyWords b.buffer l start n) j = bitOf l (start + j) :=
    bitOf_copyWords _ _ _ (hn.trans b.size_le) (hj.trans_eq hlen)
  rw [getElem_take, getElem_drop, getElem_bytesBits]
  exact hbit

lemma appendTbCrc_eq (z : ℕ) {b : BitBuffer} {xs : List Bool} (h : b.BeginsWith xs)
    (hfit : xs.length + (computeTbCrcSize t.tbs + t.pad) ≤ b.size) :
    ∃ b', appendTbCrc crc (t.parameters z t.nofSegments) t.transportBlock xs.length b =
        some (b', xs.length + (computeTbCrcSize t.tbs + t.pad)) ∧ b'.size = b.size ∧
      b'.BeginsWith (xs ++ (bitsOf (computeTbCrcSize t.tbs) (t.tbChecksum crc) ++ replicate t.pad false)) := by
  have hwidth : computeTbCrcSize t.tbs = 8 * (0 + computeTbCrcSize t.tbs / 8) := by
    rcases computeTbCrcSize_cases t.tbs with h | h <;> rw [h.2]
  obtain ⟨b1, hcrc, hsize1, h1⟩ := insertChecksum_eq hwidth (t.tbChecksum crc) h (by omega)
  rw [show 8 * (computeTbCrcSize t.tbs / 8) = computeTbCrcSize t.tbs by omega] at h1
  obtain ⟨b2, hpad, hsize2, h2⟩ := insertZeros_eq (le_refl t.pad) h1
    (by rw [length_append, length_bitsOf]; omega)
  refine ⟨b2, ?_, hsize2.trans hsize1, by rwa [append_assoc] at h2⟩
  rw [length_append, length_bitsOf] at hpad
  change ((insertChecksum (computeTbCrcSize t.tbs) (t.tbChecksum crc) (computeTbCrcSize t.tbs / 8) 0 xs.length b).bind
    fun b => (insertZeros t.pad (xs.length + computeTbCrcSize t.tbs / 8 * 8)
      (xs.length + computeTbCrcSize t.tbs / 8 * 8 + t.pad) b).bind
    fun b => some (b, xs.length + computeTbCrcSize t.tbs / 8 * 8 + t.pad)) = _
  rw [show computeTbCrcSize t.tbs / 8 * 8 = computeTbCrcSize t.tbs by omega, hcrc, bind_some, hpad,
    bind_some, add_assoc]

lemma readMessage_eq (z : ℕ) (hk : k < t.nofSegments) {codeblock : BitBuffer} (hsize : t.info ≤ codeblock.size) :
    ∃ b, readMessage crc (t.parameters z t.nofSegments) codeblock t.transportBlock k = some (b, t.info) ∧
      b.size = codeblock.size ∧ b.BeginsWith (t.part crc k) := by
  have hlast := t.last_pos
  have heq := t.last_eq
  have htbs : t.tbs = 8 * t.transportBlock.length := rfl
  have hbytes : (bytesBits t.transportBlock).length = t.tbs := length_bytesBits _
  have hoffset : (t.parameters z t.nofSegments).tbOffset.getD k 0 = k * t.info := by
    show ((range t.nofSegments).map (· * t.info)).getD k 0 = k * t.info
    rw [getD_eq_getElem?_getD, getElem?_map, getElem?_range hk]
    rfl
  rw [readMessage, hoffset]
  rcases lt_or_ge (k + 1) t.nofSegments with hmiddle | hend
  · -- a segment before the last one has bits of the transport block only
    have hbits : getCbInfoBits (t.parameters z t.nofSegments) k = t.info :=
      if_neg (show ¬ k = t.nofSegments - 1 by omega)
    have hle := Nat.mul_le_mul_right t.info (show k + 1 ≤ t.nofSegments - 1 by omega)
    rw [succ_mul] at hle
    rw [hbits, if_neg (by omega), if_neg (by omega), if_neg (by omega), part_of_lt t crc hmiddle]
    exact ⟨codeblock.copyFrom t.transportBlock (k * t.info) t.info, rfl, size_copyFrom ..,
      beginsWith_copy codeblock t.transportBlock hsize (by omega)⟩
  · obtain rfl : k = t.nofSegments - 1 := by omega
    have hbits : getCbInfoBits (t.parameters z t.nofSegments) (t.nofSegments - 1) =
        t.tbs - (t.nofSegments - 1) * t.info :=
      (if_pos rfl).trans ((if_pos rfl).trans heq.1)
    rw [hbits, if_neg (by omega), if_neg (by omega), if_pos (by omega), part_last]
    have hcopy := beginsWith_copy codeblock t.transportBlock
      (show t.tbs - (t.nofSegments - 1) * t.info ≤ codeblock.size by omega)
      (show (t.nofSegments - 1) * t.info + _ ≤ _ by omega)
    rw [take_of_length_le (by rw [length_drop]; omega)] at hcopy
    obtain ⟨b, happend, hsize', hb⟩ := t.appendTbCrc_eq crc z hcopy
      (by rw [length_drop, size_copyFrom]; omega)
    rw [length_drop, hbytes, show t.tbs - (t.nofSegments - 1) * t.info + (computeTbCrcSize t.tbs + t.pad) = t.info by
      omega] at happend
    exact ⟨b, happend, hsize'.trans (size_copyFrom ..), hb⟩

/-- A codeblock of the lifting size has room for a segment and its CRC. -/
abbrev Fits (z : ℕ) : Prop := t.info + t.segCrc ≤ computeCodeblockSize t.cfg.baseGraph z

lemma completeCodeblock_eq {z : ℕ} (hz : t.Fits z)
    (hk : k < t.nofSegments) {b : BitBuffer} (hsize : b.size = computeCodeblockSize t.cfg.baseGraph z)
    (h : b.BeginsWith (t.part crc k)) :
    ∃ b', completeCodeblock crc (t.parameters z t.nofSegments) b t.info = some b' ∧ b'.size = b.size ∧
      b'.BeginsWith (t.codeblockBits crc (computeCodeblockSize t.cfg.baseGraph z) k) := by
  have hlen := t.length_part crc hk
  have hbits : b.firstBits t.info = t.part crc k := by
    rw [← hlen]
    exact h.2
  unfold Fits at hz
  rw [completeCodeblock, codeblockBits, hbits]
  change ∃ b', (if t.segCrc ≠ 0 then (insertChecksum 24 (crc.crc24B (t.part crc k)) 3 0 t.info b).bind fun b =>
      insertZeros (computeCodeblockSize t.cfg.baseGraph z) (t.info + 24) (computeCodeblockSize t.cfg.baseGraph z) b
    else insertZeros (computeCodeblockSize t.cfg.baseGraph z) t.info (computeCodeblockSize t.cfg.baseGraph z) b) =
      some b' ∧ _
  by_cases hmany : 1 < t.nofSegments
  · have hcrc : t.segCrc = 24 := if_pos hmany
    rw [hcrc] at hz ⊢
    obtain ⟨b1, hins, hsize1, h1⟩ := insertChecksum_eq (show 24 = 8 * (0 + 3) by decide) (crc.crc24B (t.part crc k)) h
      (by omega)
    obtain ⟨b2, hzeros, hsize2, h2⟩ := insertZeros_eq
      (show computeCodeblockSize t.cfg.baseGraph z - (t.info + 24) ≤ computeCodeblockSize t.cfg.baseGraph z by omega) h1
      (by rw [length_append, length_bitsOf, hlen]; omega)
    rw [length_append, length_bitsOf, hlen] at hzeros
    rw [hlen] at hins
    refine ⟨b2, ?_, hsize2.trans hsize1, by rwa [if_pos hmany, ← append_assoc]⟩
    rw [if_pos (by decide), hins, bind_some]
    rwa [show t.info + 8 * 3 + (computeCodeblockSize t.cfg.baseGraph z - (t.info + 24)) =
      computeCodeblockSize t.cfg.baseGraph z by omega] at hzeros
  · have hcrc : t.segCrc = 0 := if_neg hmany
    rw [hcrc] at hz ⊢
    obtain ⟨b2, hzeros, hsize2, h2⟩ := insertZeros_eq
      (show computeCodeblockSize t.cfg.baseGraph z - (t.info + 0) ≤ computeCodeblockSize t.cfg.baseGraph z by omega) h
      (by omega)
    refine ⟨b2, ?_, hsize2, by rwa [if_neg hmany, nil_append]⟩
    rw [if_neg (not_not_intro rfl)]
    rwa [hlen, show t.info + (computeCodeblockSize t.cfg.baseGraph z - (t.info + 0)) =
      computeCodeblockSize t.cfg.baseGraph z by omega] at hzeros

/-- **The codeblocks that are read.** -/
theorem readCodeblock_eq {z : ℕ} (hz : t.Fits z)
    (hk : k < t.nofSegments) {codeblock : BitBuffer}
    (hsize : codeblock.size = computeCodeblockSize t.cfg.baseGraph z) :
    ∃ b, readCodeblock crc (t.parameters z t.nofSegments) codeblock t.transportBlock k = some b ∧
      b.size = codeblock.size ∧
      b.BeginsWith (t.codeblockBits crc (computeCodeblockSize t.cfg.baseGraph z) k) := by
  obtain ⟨b1, hread, hsize1, h1⟩ := t.readMessage_eq crc z hk (show t.info ≤ codeblock.size by omega)
  obtain ⟨b, hcomplete, hsize2, h⟩ := t.completeCodeblock_eq crc hz hk (hsize1.trans hsize) h1
  refine ⟨b, ?_, hsize2.trans hsize1, h⟩
  rw [readCodeblock, if_neg (fun h => h hsize), if_neg (show ¬ k ≥ (t.parameters z t.nofSegments).nofSegments from
    Nat.not_le_of_lt hk), hread]
  exact hcomplete

end Transmission

end SrsRan.Phy.Ldpc
