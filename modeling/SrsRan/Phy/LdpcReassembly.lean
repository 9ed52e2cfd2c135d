import SrsRan.Phy.LdpcSegmentation

/-!
# Reassembly of transport blocks

The receiver computes the sizes of the transmitter again (`segment_eq`), and the decoder takes the data bits of every
codeblock from its description (`concatenateCodeblocks_eq`).
-/

namespace SrsRan.Phy.Ldpc

open Support Support.BitBuffer List Option Nat

namespace Transmission

variable (t : Transmission) (crc : CrcSet) {L : Type}

/-! ### The receiver -/

def receiverParameters (z n nofFillerBits : ℕ) : SegmentParameters :=
  { t.parameters z 0 with
    nofFillerBits, cbInfoBits := 0, cbInfoBitsLast := 0, zeroPad := 0, cwOffset := (List.range n).map t.offset }

def described (codeword : List L) (z k : ℕ) : List L × CodeblockDescription :=
  ((codeword.drop (t.offset k)).take (t.rmLength k), t.description z k)

lemma rxParameters_eq {z : ℕ} (hz : computeLiftingSize t.tbs t.cfg.baseGraph t.nofSegments = some z) :
    rxParameters t.codewordLength t.tbs t.cfg = some (t.receiverParameters z 0 0, t.info) := by
  rw [rxParameters]
  change (computeLiftingSize t.tbs t.cfg.baseGraph t.nofSegments).bind _ = _
  rw [hz]
  rfl

lemma generateCbMetadata_receiver (z k filler : ℕ) : generateCbMetadata { t.receiverParameters z k filler with
      cwOffset := (t.receiverParameters z k filler).cwOffset ++ [t.offset k]
      nofFillerBits := (t.receiverParameters z k filler).segmentLength -
        (t.info + (t.receiverParameters z k filler).nofCrcBits) } t.cfg k = t.description z k := by
  have hoffset : ((range k).map t.offset ++ [t.offset k]).getD k 0 = t.offset k := by
    simp [getD_eq_getElem?_getD]
  rw [generateCbMetadata, description]
  dsimp only [receiverParameters, parameters]
  rw [hoffset]
  rfl

variable {k : ℕ} {cw : List L} {p : SegmentParameters}

lemma offset_add_le (h : t.Representable) (hk : k < t.nofSegments) :
    t.offset (k + 1) = t.offset k + t.rmLength k ∧ t.offset k + t.rmLength k ≤ t.codewordLength := by
  have hsum := t.rmSum_nofSegments h
  have hlt : t.rmSum t.nofSegments < 2 ^ 32 := hsum.trans_lt h.1
  have hmono := t.rmSum_mono (show k + 1 ≤ t.nofSegments from hk)
  rw [rmSum_succ] at hmono
  rw [t.offset_eq hlt hk, t.offset_eq hlt hk.le, rmSum_succ]
  omega

lemma rxSegments_eq (z : ℕ) (h : t.Representable) (hmost : t.nofSegments ≤ maxNofSegments)
    (hlen : cw.length = t.codewordLength) {n i filler : ℕ} (hn : i + n = t.nofSegments) :
    rxSegments t.cfg t.info cw n i (t.offset i) (t.receiverParameters z i filler) =
      some ((range' i n).map (t.described cw z), t.offset t.nofSegments) := by
  induction n generalizing i filler with
  | zero => rw [← hn]; rfl
  | succ n ih =>
    obtain ⟨hnext, hle⟩ := t.offset_add_le h (show i < t.nofSegments by omega)
    have hparams : { t.receiverParameters z i filler with
        cwOffset := (t.receiverParameters z i filler).cwOffset ++ [t.offset i]
        nofFillerBits := (t.receiverParameters z i filler).segmentLength -
          (t.info + (t.receiverParameters z i filler).nofCrcBits) } =
        t.receiverParameters z (i + 1) (computeCodeblockSize t.cfg.baseGraph z - (t.info + t.segCrc)) := by
      dsimp only [receiverParameters]
      rw [range_succ, map_append, map_singleton]
      rfl
    have hoffset : (t.offset i + t.rmLength i) % 2 ^ 32 = t.offset (i + 1) := rfl
    rw [rxSegments, if_neg (by omega)]
    dsimp only at hparams ⊢
    rw [generateCbMetadata_receiver, hparams]
    change (if t.offset i + t.rmLength i > cw.length then none else
      (rxSegments t.cfg t.info cw n (i + 1) ((t.offset i + t.rmLength i) % 2 ^ 32) _).bind _) = _
    rw [if_neg (by omega), hoffset, ih (by omega), range'_succ, map_cons]
    rfl

lemma rxSegments_eq_none {cfg : SegmenterConfig} {maxInfoBits : ℕ} {n i cwOffset : ℕ}
    (hi : i ≤ maxNofSegments) (hn : maxNofSegments < i + n) : rxSegments cfg maxInfoBits cw n i cwOffset p = none := by
  induction n generalizing i cwOffset p with
  | zero => omega
  | succ n ih =>
    rw [rxSegments]
    split
    · rfl
    · dsimp only
      split
      · rfl
      · rw [ih (by omega) (by omega)]
        rfl

lemma checkInputsRx_iff : checkInputsRx t.codewordLength t.cfg = true ↔
    0 < t.cfg.nofChSymbols ∧ t.codewordLength < 2 ^ 32 := by
  have hbits : 0 < getBitsPerSymbol t.cfg.mod := by cases t.cfg.mod <;> decide
  have hpos : t.codewordLength ≠ 0 ↔ 0 < t.cfg.nofChSymbols := by
    rw [← Nat.pos_iff_ne_zero]
    exact Nat.mul_pos_iff_of_pos_right hbits
  have hfit : t.codewordLength = t.cfg.nofChSymbols * getBitsPerSymbol t.cfg.mod % 2 ^ 32 ↔
      t.codewordLength < 2 ^ 32 :=
    ⟨fun h => h.trans_lt (mod_lt _ (by decide)), fun h => (mod_eq_of_lt h).symm⟩
  simp only [checkInputsRx, t.rv_le, t.layers_pos, t.layers_le, t.multiple, Bool.and_eq_true, decide_eq_true_eq, hpos,
    hfit, and_true, decide_true]

lemma segment_eq {z : ℕ} (hz : computeLiftingSize t.tbs t.cfg.baseGraph t.nofSegments = some z) (h : t.Representable)
    (hlen : cw.length = t.codewordLength) :
    segment cw t.tbs t.cfg = if 0 < t.cfg.nofChSymbols ∧ t.nofSegments ≤ maxNofSegments then
      some ((range t.nofSegments).map (t.described cw z)) else none := by
  rw [segment, hlen, t.rxParameters_eq hz]
  by_cases hpos : 0 < t.cfg.nofChSymbols
  · rw [t.checkInputsRx_iff.mpr ⟨hpos, h.1⟩]
    simp only [Bool.not_true, Bool.false_eq_true, if_false, bind_eq_bind, bind_some]
    change (rxSegments t.cfg t.info cw t.nofSegments 0 (t.offset 0) (t.receiverParameters z 0 0)).bind _ = _
    by_cases hmost : t.nofSegments ≤ maxNofSegments
    · rw [t.rxSegments_eq z h hmost hlen (Nat.zero_add _), if_pos ⟨hpos, hmost⟩, bind_some, ← range_eq_range']
      have hend : ¬ (t.receiverParameters z 0 0).cwLength ≠ t.offset t.nofSegments := by
        rw [t.offset_eq ((t.rmSum_nofSegments h).trans_lt h.1) le_rfl, t.rmSum_nofSegments h]
        exact not_not_intro (mod_eq_of_lt h.1)
      rw [if_neg hend]
    · rw [rxSegments_eq_none (Nat.zero_le _) (by omega), if_neg (fun h => hmost h.2), bind_none]
  · have hcheck : checkInputsRx t.codewordLength t.cfg = false :=
      Bool.eq_false_iff.mpr fun h => hpos (t.checkInputsRx_iff.mp h).1
    rw [hcheck, Bool.not_false, if_pos rfl, if_neg (fun h => hpos h.1)]

lemma flatten_described (z : ℕ) (h : t.Representable) (hlen : cw.length = t.codewordLength) :
    (((range t.nofSegments).map (t.described cw z)).map Prod.fst).flatten = cw := by
  have hsum := t.rmSum_nofSegments h
  have hslices : ((range t.nofSegments).map (t.described cw z)).map Prod.fst =
      (range t.nofSegments).map fun k => (cw.drop (t.rmSum k)).take (t.rmLength k) := by
    rw [List.map_map]
    refine map_congr_left fun k hk => ?_
    show (cw.drop (t.offset k)).take (t.rmLength k) = _
    rw [t.offset_eq (hsum.trans_lt h.1) (mem_range.mp hk).le]
  rw [hslices, flatten_slices cw t.rmSum t.rmLength rfl t.rmSum_succ, hsum, ← hlen, take_length]

lemma length_slice (h : t.Representable) (hlen : cw.length = t.codewordLength)
    (hk : k < t.nofSegments) : ((cw.drop (t.offset k)).take (t.rmLength k)).length = t.rmLength k := by
  have hle := (t.offset_add_le h hk).2
  rw [length_take, length_drop]
  omega

/-! ### Concatenation -/

lemma tbChecksum_lt : t.tbChecksum crc < 2 ^ 24 := by
  unfold tbChecksum
  split
  · exact (crc.crc16_lt _).trans (by decide)
  · exact crc.crc24A_lt _

lemma length_codeblockBits {K : ℕ} (hz : t.info + t.segCrc ≤ K) (hk : k < t.nofSegments) :
    (t.codeblockBits crc K k).length = K := by
  have hcrc : (if 1 < t.nofSegments then bitsOf 24 (crc.crc24B (t.part crc k)) else []).length = t.segCrc := by
    show _ = if t.nofSegments > 1 then segCrcLength else 0
    split
    · exact length_bitsOf ..
    · rfl
  rw [codeblockBits, length_append, length_append, hcrc, length_replicate, t.length_part crc hk]
  omega

lemma nofDataBits_eq {z : ℕ} (hz : t.Fits z)
    (hmany : 2 ≤ t.nofSegments) : nofDataBits (t.description z k) = t.info := by
  have hrate : 0 < t.cfg.baseGraph.inverseRate := by cases t.cfg.baseGraph <;> decide
  show computeCodeblockSize t.cfg.baseGraph z * t.cfg.baseGraph.inverseRate / t.cfg.baseGraph.inverseRate -
    (if t.nofSegments = 1 then computeTbCrcSize t.tbs else t.segCrc) -
      (computeCodeblockSize t.cfg.baseGraph z - (t.info + t.segCrc)) = t.info
  rw [Nat.mul_div_cancel _ hrate, if_neg (by omega)]
  omega

lemma nofDataBits_one {z : ℕ} (hz : t.Fits z) (hone : t.nofSegments = 1) : nofDataBits (t.description z k) = t.tbs := by
  have hrate : 0 < t.cfg.baseGraph.inverseRate := by cases t.cfg.baseGraph <;> decide
  have hmul := t.info_mul
  have hpad : t.pad < t.nofSegments := t.sizes.pad_lt
  have hcrc : t.segCrc = 0 := if_neg (show ¬ t.nofSegments > 1 by omega)
  rw [hone, Nat.one_mul] at hmul
  show computeCodeblockSize t.cfg.baseGraph z * t.cfg.baseGraph.inverseRate / t.cfg.baseGraph.inverseRate -
    (if t.nofSegments = 1 then computeTbCrcSize t.tbs else t.segCrc) -
      (computeCodeblockSize t.cfg.baseGraph z - (t.info + t.segCrc)) = t.tbs
  rw [Nat.mul_div_cancel _ hrate, if_pos hone]
  omega

lemma take_part {m : ℕ} (hm : m ≤ t.info) (hfit : k * t.info + m ≤ t.tbs) :
    (t.part crc k).take m = ((bytesBits t.transportBlock).drop (k * t.info)).take m := by
  have hbytes : (bytesBits t.transportBlock).length = t.tbs := length_bytesBits _
  rw [part, take_take, Nat.min_eq_left hm, stream, drop_append_of_le_length (by omega),
    take_append_of_le_length (by rw [length_drop]; omega)]

omit t crc in
lemma concatenateFrom_cons {ms : ℕ → BitBuffer} {nofCbs tbOffset m checksum : ℕ} {cbLlrs : List L}
    {d : CodeblockDescription} (rest : List (List L × CodeblockDescription)) {tbData cbData tbData' : BitBuffer}
    (hlen : cbLlrs.length = d.rmLength) (hm : min (tbData.size - tbOffset) (nofDataBits d) = m)
    (hfirst : (ms k).first (nofDataBits d) = some cbData)
    (hcopy : tbData.copyOffset tbOffset cbData 0 m = some tbData') :
    concatenateFrom ms nofCbs ((cbLlrs, d) :: rest) k tbOffset checksum tbData =
      (if k = nofCbs - 1 then extractChecksum cbData m 3 0 checksum else some checksum).bind fun checksum =>
        concatenateFrom ms nofCbs rest (k + 1) (tbOffset + m) checksum tbData' := by
  rw [concatenateFrom, if_neg (not_not_intro hlen), hfirst]
  simp only [bind_eq_bind, bind_some, hm, hcopy]
  split
  · rfl
  · rfl

omit t crc in
lemma length_buffer_concatenateFrom {ms : ℕ → BitBuffer} {nofCbs tbOffset checksum : ℕ}
    {codeblocks : List (List L × CodeblockDescription)} {tbData : BitBuffer} {r : BitBuffer × ℕ × ℕ}
    (h : concatenateFrom ms nofCbs codeblocks k tbOffset checksum tbData = some r) :
    r.1.buffer.length = tbData.buffer.length := by
  induction codeblocks generalizing k tbOffset checksum tbData with
  | nil => cases h; rfl
  | cons c rest ih =>
    rw [concatenateFrom] at h
    split at h
    · cases h
    obtain ⟨cbData, -, h⟩ := bind_eq_some_iff.mp h
    obtain ⟨tbData1, hcopy, h⟩ := bind_eq_some_iff.mp h
    rw [← length_buffer_copyOffset hcopy]
    split at h
    · obtain ⟨checksum', -, h⟩ := bind_eq_some_iff.mp h
      exact ih h
    · exact ih h

section Several

variable {z : ℕ} (hz : t.Fits z) {ms : ℕ → BitBuffer}
  (hmsg : ∀ k < t.nofSegments, (ms k).BeginsWith (t.codeblockBits crc (computeCodeblockSize t.cfg.baseGraph z) k))

include hz hmsg

lemma copyCodeblock {k : ℕ} (hk : k < t.nofSegments) {tbData : BitBuffer} (hsize : tbData.size = t.tbs)
    (htb : tbData.BeginsWith ((bytesBits t.transportBlock).take (k * t.info))) {m : ℕ} (hm : m ≤ t.info)
    (hfit : k * t.info + m ≤ t.tbs) :
    ∃ cbData tbData', (ms k).first t.info = some cbData ∧ cbData.BeginsWith (t.part crc k) ∧
      tbData.copyOffset (k * t.info) cbData 0 m = some tbData' ∧ tbData'.size = t.tbs ∧
      tbData'.BeginsWith ((bytesBits t.transportBlock).take (k * t.info + m)) := by
  have hbytes : (bytesBits t.transportBlock).length = t.tbs := length_bytesBits _
  have hpart := t.length_part crc hk
  have hread : ((bytesBits t.transportBlock).take (k * t.info)).length = k * t.info := by
    rw [length_take]
    omega
  have hlong := (hmsg k hk).1
  rw [t.length_codeblockBits crc hz hk] at hlong
  obtain ⟨cbData, hfirst, -, hcb⟩ := (hmsg k hk).take.first hpart.le (by omega)
  obtain ⟨tbData', hcopy, hsize', htb'⟩ := htb.copyOffset hcb (hm.trans_eq hpart.symm) (by omega)
  rw [hread] at hcopy
  rw [t.take_part crc hm hfit, ← take_add] at htb'
  exact ⟨cbData, tbData', hfirst, hcb, hcopy, hsize'.trans hsize, htb'⟩

lemma concatenateFrom_eq (hmany : 2 ≤ t.nofSegments) (h : t.Representable) {cw : List L}
    (hlen : cw.length = t.codewordLength) {n i : ℕ} (hn : i + (n + 1) = t.nofSegments) {tbData : BitBuffer}
    (hsize : tbData.size = t.tbs) (htb : tbData.BeginsWith ((bytesBits t.transportBlock).take (i * t.info))) :
    ∃ tbData', concatenateFrom ms t.nofSegments ((range' i (n + 1)).map (t.described cw z)) i
        (i * t.info) 0 tbData = some (tbData', t.tbs, t.tbChecksum crc) ∧
      tbData'.size = t.tbs ∧ tbData'.BeginsWith (bytesBits t.transportBlock) := by
  have hlast := t.last_pos
  have heq := t.last_eq
  have hbytes : (bytesBits t.transportBlock).length = t.tbs := length_bytesBits _
  induction n generalizing i tbData with
  | zero =>
    obtain rfl : i = t.nofSegments - 1 := by omega
    have hdata : nofDataBits (t.description z (t.nofSegments - 1)) = t.info := t.nofDataBits_eq hz hmany
    have hdescribed := t.length_slice h hlen (show t.nofSegments - 1 < t.nofSegments by omega)
    obtain ⟨cbData, tbData', hfirst, hcb, hcopy, hsize', htb'⟩ := t.copyCodeblock crc hz hmsg
      (by omega) hsize htb
      (show t.tbs - (t.nofSegments - 1) * t.info ≤ t.info by omega) (by omega)
    rw [Nat.add_sub_cancel' hlast.le, take_of_length_le hbytes.le] at htb'
    have hcrc : computeTbCrcSize t.tbs = 8 * 3 := t.sizes.tbCrc hmany
    rw [part_last, hcrc] at hcb
    have hchecksum : extractChecksum cbData (t.tbs - (t.nofSegments - 1) * t.info) 3 0 0 = some (t.tbChecksum crc) := by
      have hlt := t.tbChecksum_lt crc
      have := extractChecksum_eq (hlt.trans (by decide))
        (show _ = t.tbs - (t.nofSegments - 1) * t.info + 0 * 8 by rw [length_drop]; omega) hcb
      rwa [shiftRight_eq_div_pow, div_eq_of_lt hlt] at this
    refine ⟨tbData', ?_, hsize', htb'⟩
    rw [← hdata] at hfirst
    rw [range'_one, map_singleton, described, concatenateFrom_cons [] hdescribed
      (show min (tbData.size - _) _ = t.tbs - (t.nofSegments - 1) * t.info by rw [hdata]; omega) hfirst hcopy, if_pos rfl,
      hchecksum, bind_some, concatenateFrom, Nat.add_sub_cancel' hlast.le]
  | succ n ih =>
    have hdata : nofDataBits (t.description z i) = t.info := t.nofDataBits_eq hz hmany
    have hdescribed := t.length_slice h hlen (show i < t.nofSegments by omega)
    have hle := Nat.mul_le_mul_right t.info (show i + 1 ≤ t.nofSegments - 1 by omega)
    rw [succ_mul] at hle
    obtain ⟨cbData, tbData1, hfirst, -, hcopy, hsize1, htb1⟩ := t.copyCodeblock crc hz hmsg
      (show i < t.nofSegments by omega) hsize htb le_rfl (by omega)
    rw [← succ_mul] at htb1
    obtain ⟨tbData', hrest, hsize', htb'⟩ := ih (show i + 1 + (n + 1) = t.nofSegments by omega) hsize1 htb1
    refine ⟨tbData', ?_, hsize', htb'⟩
    rw [← hdata] at hfirst
    rw [range'_succ, map_cons, described, concatenateFrom_cons _ hdescribed
      (show min (tbData.size - _) _ = t.info by rw [hdata]; omega) hfirst hcopy, if_neg (by omega), bind_some,
      ← succ_mul]
    exact hrest

/-- **Concatenation.**  Correct messages of several codeblocks give the transport block and its CRC. -/
theorem concatenateCodeblocks_eq (hmany : 2 ≤ t.nofSegments) (h : t.Representable) {cw : List L}
    (hlen : cw.length = t.codewordLength) {transportBlock : Bytes}
    (hout : transportBlock.length = t.transportBlock.length) :
    concatenateCodeblocks ms ((range t.nofSegments).map (t.described cw z)) transportBlock =
      some (t.transportBlock, t.tbChecksum crc) := by
  have hC : 0 + (t.nofSegments - 1 + 1) = t.nofSegments := by omega
  obtain ⟨b, hrun, hsize, hb⟩ := t.concatenateFrom_eq crc hz hmsg hmany h hlen hC
    (show BitBuffer.size ⟨transportBlock, 8 * transportBlock.length, le_rfl⟩ = t.tbs by
      rw [← show 8 * t.transportBlock.length = t.tbs from rfl, ← hout])
    (by
      rw [Nat.zero_mul, take_zero]
      exact ⟨Nat.zero_le _, rfl⟩)
  have hwords : b.buffer.length = t.transportBlock.length := (length_buffer_concatenateFrom hrun).trans hout
  have hbuffer : b.buffer = t.transportBlock := by
    refine eq_of_bytesBits ?_
    rw [← hb.2, length_bytesBits, bytesBits, hwords]
    rfl
  rw [Nat.sub_add_cancel (by omega), Nat.zero_mul, ← range_eq_range'] at hrun
  rw [concatenateCodeblocks, length_map, length_range, hrun]
  show (if t.tbs ≠ b.size then none else some (b.buffer, t.tbChecksum crc)) = _
  rw [if_neg (not_not_intro hsize.symm), hbuffer]

end Several

/-! ### The round trip -/

/-- The soft bits of a codeword. -/
structure Codeword (L : Type) (t : Transmission) where
  llrs : List L
  length_eq : llrs.length = t.codewordLength

/-- The transport block with CRC and padding is cut into codeblocks. -/
def SegmentsTransportBlock : Prop :=
  ∃ p, newTransmission t.transportBlock t.cfg = some p ∧ p.cwLength = t.codewordLength ∧
    (p.cbMetadata.map (·.rmLength)).sum = p.cwLength ∧
    ∃ parts : List (List Bool), parts.length = p.nofSegments ∧
      parts.flatten = bytesBits t.transportBlock ++
        (bitsOf p.nofTbCrcBits (t.tbChecksum crc) ++ List.replicate p.zeroPad false) ∧
      ∀ k (hk : k < parts.length) (codeblock : BitBuffer), codeblock.size = p.segmentLength →
        ∃ b, readCodeblock crc p codeblock t.transportBlock k = some b ∧ b.size = p.segmentLength ∧
          b.firstBits b.size = parts[k] ++ ((if 1 < p.nofSegments then bitsOf 24 (crc.crc24B parts[k]) else []) ++
            List.replicate p.nofFillerBits false)

/-- The receiver describes the segments as the transmitter does. -/
def ReceiverAgrees (codeword : Codeword L t) : Prop :=
  ∃ p codeblocks, newTransmission t.transportBlock t.cfg = some p ∧
    segment codeword.llrs t.tbs t.cfg = some codeblocks ∧ codeblocks.length = p.nofSegments ∧
    codeblocks.map Prod.snd = p.cbMetadata ∧ (codeblocks.map fun c => c.2.rmLength).sum = t.codewordLength ∧
    (codeblocks.map Prod.fst).flatten = codeword.llrs ∧ ∀ c ∈ codeblocks, c.1.length = c.2.rmLength

/-- The decoder has returned what was segmented. -/
def CorrectMessages (p : SegmentParameters) (messages : ℕ → BitBuffer) : Prop :=
  ∀ k < p.nofSegments, ∃ codeblock b, readCodeblock crc p codeblock t.transportBlock k = some b ∧
    (messages k).BeginsWith (b.firstBits b.size)

/-- Correct messages are concatenated to the transport block, and its CRC is returned. -/
def Reassembles (codeword : Codeword L t) : Prop :=
  ∃ p codeblocks, newTransmission t.transportBlock t.cfg = some p ∧
    segment codeword.llrs t.tbs t.cfg = some codeblocks ∧
    ∀ messages, t.CorrectMessages crc p messages → ∀ transportBlock : Bytes,
      transportBlock.length = t.transportBlock.length →
      concatenateCodeblocks messages codeblocks transportBlock = some (t.transportBlock, t.tbChecksum crc)

/-- The segments fit in the arrays, and the codeword in its numbers. -/
def Segmentable : Prop := t.nofSegments ≤ maxNofSegments ∧ t.Representable

lemma newTransmission_of_segmentable (h : t.Segmentable) {z : ℕ}
    (hz : computeLiftingSize t.tbs t.cfg.baseGraph t.nofSegments = some z) :
    newTransmission t.transportBlock t.cfg = some (t.parameters z t.nofSegments) := by
  have hsum := t.rmSum_nofSegments h.2
  have hend : t.codewordLength % 2 ^ 32 = t.offset t.nofSegments := by
    rw [t.offset_eq (hsum.trans_lt h.2.1) le_rfl, hsum]
    exact mod_eq_of_lt h.2.1
  rw [t.newTransmission_eq hz, if_pos ⟨h.1, hend⟩]

lemma segmentable_of_newTransmission (h : newTransmission t.transportBlock t.cfg = some p)
    (hlt : t.codewordLength < 2 ^ 32) : t.Segmentable := by
  obtain ⟨z, hz, -⟩ := t.sizes.lifting
  rw [t.newTransmission_eq hz] at h
  obtain ⟨hmost, hoffset⟩ := (ite_none_right_eq_some.mp h).1
  refine ⟨hmost, ?_⟩
  by_contra hrep
  have hsum := t.rmSum_lt hlt hrep
  rw [t.offset_eq (hsum.trans hlt) le_rfl, mod_eq_of_lt hlt] at hoffset
  omega

lemma cwLength_of_newTransmission (h : newTransmission t.transportBlock t.cfg = some p) :
    p.cwLength = t.codewordLength % 2 ^ 32 := by
  obtain ⟨z, hz, -⟩ := t.sizes.lifting
  rw [t.newTransmission_eq hz] at h
  cases (ite_none_right_eq_some.mp h).2
  rfl

lemma lt_of_segment {cw : Codeword L t} {codeblocks : List (List L × CodeblockDescription)}
    (h : segment cw.llrs t.tbs t.cfg = some codeblocks) : 0 < t.cfg.nofChSymbols ∧ t.codewordLength < 2 ^ 32 := by
  rw [segment, cw.length_eq] at h
  have hcheck := (ite_none_left_eq_some.mp h).1
  rw [Bool.not_eq_true, Bool.not_eq_false'] at hcheck
  exact t.checkInputsRx_iff.mp hcheck

lemma sum_rmLength (z n : ℕ) : ((t.parameters z n).cbMetadata.map (·.rmLength)).sum = t.rmSum n := by
  show (((range n).map (t.description z)).map (·.rmLength)).sum = _
  rw [List.map_map]
  rfl

lemma segmentsTransportBlock_iff : t.SegmentsTransportBlock crc ↔ t.Segmentable := by
  constructor
  · rintro ⟨p, hp, hlength, -⟩
    refine t.segmentable_of_newTransmission hp ?_
    rw [← hlength, t.cwLength_of_newTransmission hp]
    exact mod_lt _ (by decide)
  · intro h
    obtain ⟨z, hz, hfit⟩ := t.sizes.lifting
    have hcw : (t.parameters z t.nofSegments).cwLength = t.codewordLength := mod_eq_of_lt h.2.1
    refine ⟨_, t.newTransmission_of_segmentable h hz, hcw, ?_, (range t.nofSegments).map (t.part crc), ?_,
      t.flatten_parts crc, fun k hk codeblock hsize => ?_⟩
    · rw [sum_rmLength, hcw, t.rmSum_nofSegments h.2]
    · rw [length_map, length_range]
      rfl
    · rw [length_map, length_range] at hk
      obtain ⟨b, hread, hsize', hb⟩ := t.readCodeblock_eq crc hfit hk hsize
      refine ⟨b, hread, hsize'.trans hsize, ?_⟩
      rw [getElem_map, getElem_range, hsize', hsize]
      have hbits := hb.2
      rw [t.length_codeblockBits crc hfit hk, codeblockBits, ← Nat.sub_sub] at hbits
      exact hbits

lemma receiverAgrees_iff (cw : Codeword L t) : t.ReceiverAgrees cw ↔ t.Segmentable ∧ 0 < t.cfg.nofChSymbols := by
  constructor
  · rintro ⟨p, codeblocks, hp, hsegment, -⟩
    obtain ⟨hpos, hlt⟩ := t.lt_of_segment hsegment
    exact ⟨t.segmentable_of_newTransmission hp hlt, hpos⟩
  · rintro ⟨h, hpos⟩
    obtain ⟨z, hz, -⟩ := t.sizes.lifting
    have hsegment := t.segment_eq hz h.2 cw.length_eq
    rw [if_pos ⟨hpos, h.1⟩] at hsegment
    refine ⟨_, _, t.newTransmission_of_segmentable h hz, hsegment, ?_, ?_, ?_, ?_, ?_⟩
    · rw [length_map, length_range]
      rfl
    · rw [List.map_map]
      rfl
    · rw [List.map_map]
      exact t.rmSum_nofSegments h.2
    · exact t.flatten_described z h.2 cw.length_eq
    · intro c hc
      obtain ⟨k, hk, rfl⟩ := mem_map.mp hc
      exact t.length_slice h.2 cw.length_eq (mem_range.mp hk)

lemma beginsWith_of_correctMessages {z : ℕ} (hz : t.Fits z)
    {ms : ℕ → BitBuffer} (h : t.CorrectMessages crc (t.parameters z t.nofSegments) ms)
    (hk : k < t.nofSegments) : (ms k).BeginsWith (t.codeblockBits crc (computeCodeblockSize t.cfg.baseGraph z) k) := by
  obtain ⟨codeblock, b, hread, hmsg⟩ := h k hk
  have hsize : codeblock.size = computeCodeblockSize t.cfg.baseGraph z := by
    rw [readCodeblock] at hread
    exact not_not.mp (ite_none_left_eq_some.mp hread).1
  obtain ⟨b', hread', hsize', hb⟩ := t.readCodeblock_eq crc hz hk hsize
  obtain rfl : b = b' := some.inj (hread.symm.trans hread')
  have hbits := hb.2
  rw [t.length_codeblockBits crc hz hk] at hbits
  rwa [hsize', hsize, hbits] at hmsg

lemma exists_correctMessages {z : ℕ} (hz : t.Fits z) :
    ∃ ms, t.CorrectMessages crc (t.parameters z t.nofSegments) ms := by
  have hexists : ∀ k, ∃ b, k < t.nofSegments → ∃ codeblock,
      readCodeblock crc (t.parameters z t.nofSegments) codeblock t.transportBlock k = some b := by
    intro k
    by_cases hk : k < t.nofSegments
    · obtain ⟨b, hread, -⟩ := t.readCodeblock_eq crc hz hk
        (show BitBuffer.size ⟨replicate (computeCodeblockSize t.cfg.baseGraph z) 0,
          computeCodeblockSize t.cfg.baseGraph z, by rw [length_replicate]; omega⟩ = _ from rfl)
      exact ⟨b, fun _ => ⟨_, hread⟩⟩
    · exact ⟨⟨[], 0, le_rfl⟩, fun h => absurd h hk⟩
  choose ms hmessages using hexists
  refine ⟨ms, fun k hk => ?_⟩
  obtain ⟨codeblock, hread⟩ := hmessages k hk
  exact ⟨codeblock, ms k, hread, (length_firstBits ..).le, by rw [length_firstBits]⟩

lemma concatenateCodeblocks_one {z : ℕ} (hz : t.Fits z)
    (hone : t.nofSegments = 1) (ms : ℕ → BitBuffer) (cw : List L) :
    concatenateCodeblocks ms ((range t.nofSegments).map (t.described cw z)) t.transportBlock = none := by
  have hdata : nofDataBits (t.description z 0) = t.tbs := t.nofDataBits_one hz hone
  have hfail : concatenateFrom ms 1 [t.described cw z 0] 0 0 0
      ⟨t.transportBlock, 8 * t.transportBlock.length, le_rfl⟩ = none := by
    rw [described, concatenateFrom, hdata]
    split
    · rfl
    refine bind_eq_none_iff.mpr fun cbData hfirst => bind_eq_none_iff.mpr fun tbData _ => ?_
    have hsize : cbData.size = t.tbs := by
      rw [first] at hfirst
      obtain ⟨_, hcb⟩ := dite_none_right_eq_some.mp hfirst
      cases hcb
      rfl
    have hextract : cbData.extract (min (8 * t.transportBlock.length - 0) t.tbs + 0 * 8) 8 = none := by
      refine if_neg fun h => ?_
      have htbs : 8 * t.transportBlock.length = t.tbs := rfl
      omega
    rw [if_pos rfl, extractChecksum, hextract]
    rfl
  rw [concatenateCodeblocks, length_map, length_range, hone]
  change (concatenateFrom ms 1 [t.described cw z 0] 0 0 0 _).bind _ = none
  rw [hfail, bind_none]

lemma reassembles_iff (cw : Codeword L t) :
    t.Reassembles crc cw ↔ t.Segmentable ∧ 0 < t.cfg.nofChSymbols ∧ 2 ≤ t.nofSegments := by
  obtain ⟨z, hz, hfit⟩ := t.sizes.lifting
  constructor
  · rintro ⟨p, codeblocks, hp, hsegment, hall⟩
    obtain ⟨hpos, hlt⟩ := t.lt_of_segment hsegment
    have h := t.segmentable_of_newTransmission hp hlt
    refine ⟨h, hpos, ?_⟩
    rw [t.newTransmission_of_segmentable h hz] at hp
    rw [t.segment_eq hz h.2 cw.length_eq, if_pos ⟨hpos, h.1⟩] at hsegment
    cases hp
    cases hsegment
    by_contra hmany
    have hC := t.nofSegments_pos
    obtain ⟨ms, hmsg⟩ := t.exists_correctMessages crc hfit
    have hfail := hall ms hmsg t.transportBlock rfl
    rw [t.concatenateCodeblocks_one hfit (by omega)] at hfail
    cases hfail
  · rintro ⟨h, hpos, hmany⟩
    have hsegment := t.segment_eq hz h.2 cw.length_eq
    rw [if_pos ⟨hpos, h.1⟩] at hsegment
    refine ⟨_, _, t.newTransmission_of_segmentable h hz, hsegment, fun ms hmsg transportBlock hout => ?_⟩
    exact t.concatenateCodeblocks_eq crc hfit (fun k => t.beginsWith_of_correctMessages crc hfit hmsg) hmany h.2
      cw.length_eq hout

/-- **Segmentation round trip.** The receiver agrees as soon as there are LLRs, and concatenates the transport block. -/
theorem segmentation_roundTrip_iff (codeword : Codeword L t) :
    (t.SegmentsTransportBlock crc ↔ t.Segmentable) ∧
      (t.ReceiverAgrees codeword ↔ t.Segmentable ∧ 0 < t.cfg.nofChSymbols) ∧
      (t.Reassembles crc codeword ↔ t.Segmentable ∧ 0 < t.cfg.nofChSymbols ∧ 2 ≤ t.nofSegments) :=
  ⟨t.segmentsTransportBlock_iff crc, t.receiverAgrees_iff codeword, t.reassembles_iff crc codeword⟩

lemma nofSegments_of_bg2 (h : t.transportBlock.length = 77500) (hbg : t.cfg.baseGraph = .bg2) :
    t.nofSegments = maxNofSegments + 1 := by
  have htbs : t.tbs = 8 * 77500 := congrArg (8 * ·) h
  rw [nofSegments, htbs, hbg]
  decide

theorem segmentation_beyond_arrays :
    ∃ t : Transmission, t.transportBlock.length = 77500 ∧ t.cfg = ⟨.bg2, 0, .qpsk, 0, 1, 42900⟩ ∧
      ∀ crc, ¬ t.SegmentsTransportBlock crc := by
  have hlen : (replicate 77500 (0 : UInt8)).length = 77500 := length_replicate
  refine ⟨⟨replicate 77500 0, ⟨.bg2, 0, .qpsk, 0, 1, 42900⟩, ?_, ?_, by decide, by decide, by decide, by decide⟩,
    hlen, rfl, fun crc h => ?_⟩
  · exact ne_nil_of_length_pos (by rw [hlen]; decide)
  · rw [hlen]
    decide
  · have hmost := ((segmentsTransportBlock_iff _ crc).mp h).1
    rw [nofSegments_of_bg2 _ hlen rfl] at hmost
    exact absurd hmost (not_succ_le_self _)

end Transmission

end SrsRan.Phy.Ldpc
