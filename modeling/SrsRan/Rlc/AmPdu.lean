import SrsRan.Support.Bytes
import Mathlib.Data.List.Chain

/-!
# RLC AM PDUs

The header of an AMD PDU and the STATUS PDU with its list of NACKs (TS 38.322 Sec. 6.2.2).  Division and remainder by powers
of two stand for the shifts and masks of the source.

`StatusPdu` carries two facts that every operation of the class maintains: the cached `packedSize` is the size of the
encoding, and no two neighbouring NACKs could still be merged.
-/

namespace SrsRan.Rlc

open Support List

inductive AmSnSize where
  | size12bits
  | size18bits
deriving DecidableEq

def AmSnSize.toNumber : AmSnSize → ℕ
  | .size12bits => 12
  | .size18bits => 18

def cardinality (snSize : ℕ) : ℕ := 2 ^ snSize

def windowSize (snSize : ℕ) : ℕ := cardinality (snSize - 1)

variable (s : AmSnSize)

def AmSnSize.mod : ℕ := cardinality s.toNumber

def AmSnSize.window : ℕ := windowSize s.toNumber

lemma AmSnSize.mod_eq : s.mod = 2 * s.window := by
  cases s <;> rfl

lemma AmSnSize.mod_dvd : s.mod ∣ 2 ^ 32 := by
  cases s <;> decide

lemma AmSnSize.window_ge : 2048 ≤ s.window := by
  cases s <;> decide

lemma AmSnSize.window_pos : 0 < s.window := by
  have := s.window_ge
  omega

lemma AmSnSize.mod_pos : 0 < s.mod := by
  have h1 := s.mod_eq
  have h2 := s.window_pos
  omega

inductive DcField where
  | control
  | data
deriving DecidableEq

def DcField.toNumber : DcField → ℕ
  | .control => 0
  | .data => 1

inductive SiField where
  | fullSdu
  | firstSegment
  | lastSegment
  | middleSegment
deriving DecidableEq

def SiField.toNumber : SiField → ℕ
  | .fullSdu => 0
  | .firstSegment => 1
  | .lastSegment => 2
  | .middleSegment => 3

def SiField.ofBits : ℕ → SiField
  | 0 => .fullSdu
  | 1 => .firstSegment
  | 2 => .lastSegment
  | _ => .middleSegment

/-- The header carries a segment offset. -/
def SiField.hasSo : SiField → Bool
  | .lastSegment | .middleSegment => true
  | .fullSdu | .firstSegment => false

@[simp] lemma SiField.ofBits_toNumber (si : SiField) : SiField.ofBits si.toNumber = si := by
  cases si <;> rfl

lemma SiField.toNumber_lt (si : SiField) : si.toNumber < 4 := by
  cases si <;> decide

/-! ### The AMD PDU header -/

def amPduHeaderSoSize : ℕ := 2

def amPduHeaderMinSize : AmSnSize → ℕ
  | .size12bits => 2
  | .size18bits => 3

def amPduHeaderMaxSize (snSize : AmSnSize) : ℕ := amPduHeaderMinSize snSize + amPduHeaderSoSize

/-- `rlc_am_pdu_header`. -/
structure AmPduHeader where
  dc : DcField
  p : Bool
  si : SiField
  snSize : AmSnSize
  sn : ℕ
  so : ℕ
deriving DecidableEq

def AmPduHeader.getPackedSize (h : AmPduHeader) : ℕ :=
  if h.si.hasSo then amPduHeaderMaxSize h.snSize else amPduHeaderMinSize h.snSize

def readSo (h : AmPduHeader) (rest : Bytes) : Option AmPduHeader :=
  if h.si.hasSo then
    match rest with
    | b :: c :: _ => some { h with so := b.toNat * 2 ^ 8 + c.toNat }
    | _ => none
  else some h

def amReadDataPduHeader (pdu : Bytes) (snSize : AmSnSize) : Option AmPduHeader :=
  if pdu.length ≤ amPduHeaderMinSize snSize then none
  else
    match snSize, pdu with
    | .size12bits, b0 :: b1 :: rest =>
      readSo
        { dc := if b0.toNat / 2 ^ 7 % 2 = 0 then .control else .data
          p := b0.toNat / 2 ^ 6 % 2 = 1
          si := SiField.ofBits (b0.toNat / 2 ^ 4 % 4)
          snSize := .size12bits
          sn := b0.toNat % 2 ^ 4 * 2 ^ 8 + b1.toNat
          so := 0 } rest
    | .size18bits, b0 :: b1 :: b2 :: rest =>
      -- reserved bits
      if b0.toNat / 2 ^ 2 % 4 ≠ 0 then none
      else
        readSo
          { dc := if b0.toNat / 2 ^ 7 % 2 = 0 then .control else .data
            p := b0.toNat / 2 ^ 6 % 2 = 1
            si := SiField.ofBits (b0.toNat / 2 ^ 4 % 4)
            snSize := .size18bits
            sn := b0.toNat % 2 ^ 2 * 2 ^ 16 + b1.toNat * 2 ^ 8 + b2.toNat
            so := 0 } rest
    | _, _ => none

/-- `rlc_am_write_data_pdu_header`. The segment offset is written iff it is not zero. -/
def amWriteDataPduHeader (h : AmPduHeader) : Bytes :=
  let fixed := h.dc.toNumber * 2 ^ 7 + h.p.toNat * 2 ^ 6 + h.si.toNumber * 2 ^ 4
  (match h.snSize with
    | .size12bits => [byte (fixed + h.sn / 2 ^ 8 % 2 ^ 4), byte h.sn]
    | .size18bits => [byte (fixed + h.sn / 2 ^ 16 % 2 ^ 2), byte (h.sn / 2 ^ 8), byte h.sn]) ++
  (if h.so ≠ 0 then [byte (h.so / 2 ^ 8), byte h.so] else [])

def readSoRest (h : AmPduHeader) (rest : Bytes) : Option (AmPduHeader × Bytes) :=
  if h.si.hasSo then
    match rest with
    | b :: c :: rest => some ({ h with so := b.toNat * 2 ^ 8 + c.toNat }, rest)
    | _ => none
  else some (h, rest)

/-- `rlc_am_read_data_pdu_header`, with the bytes behind it. -/
def amReadHeaderRest (pdu : Bytes) (snSize : AmSnSize) : Option (AmPduHeader × Bytes) :=
  if pdu.length ≤ amPduHeaderMinSize snSize then none
  else
    match snSize, pdu with
    | .size12bits, b0 :: b1 :: rest =>
      readSoRest
        { dc := if b0.toNat / 2 ^ 7 % 2 = 0 then .control else .data
          p := b0.toNat / 2 ^ 6 % 2 = 1
          si := SiField.ofBits (b0.toNat / 2 ^ 4 % 4)
          snSize := .size12bits
          sn := b0.toNat % 2 ^ 4 * 2 ^ 8 + b1.toNat
          so := 0 } rest
    | .size18bits, b0 :: b1 :: b2 :: rest =>
      if b0.toNat / 2 ^ 2 % 4 ≠ 0 then none
      else
        readSoRest
          { dc := if b0.toNat / 2 ^ 7 % 2 = 0 then .control else .data
            p := b0.toNat / 2 ^ 6 % 2 = 1
            si := SiField.ofBits (b0.toNat / 2 ^ 4 % 4)
            snSize := .size18bits
            sn := b0.toNat % 2 ^ 2 * 2 ^ 16 + b1.toNat * 2 ^ 8 + b2.toNat
            so := 0 } rest
    | _, _ => none

lemma map_readSoRest (h : AmPduHeader) (rest : Bytes) : (readSoRest h rest).map Prod.fst = readSo h rest := by
  unfold readSoRest readSo
  split
  · split <;> rfl
  · rfl

/-- Its header is the one that the code reads. -/
lemma map_amReadHeaderRest (pdu : Bytes) (snSize : AmSnSize) :
    (amReadHeaderRest pdu snSize).map Prod.fst = amReadDataPduHeader pdu snSize := by
  unfold amReadHeaderRest amReadDataPduHeader
  split
  · rfl
  split
  · exact map_readSoRest _ _
  · split
    · rfl
    · exact map_readSoRest _ _
  · rfl

/-- The fields fit, and the segment offset is present exactly when the SI field announces one. -/
structure AmPduHeader.WellFormed (h : AmPduHeader) : Prop where
  sn_lt : h.sn < h.snSize.mod
  so_lt : h.so < 2 ^ 16
  so_iff : h.so ≠ 0 ↔ h.si.hasSo = true

variable {h : AmPduHeader} {rest : Bytes} {snSize : AmSnSize}

lemma AmPduHeader.WellFormed.length_write (w : h.WellFormed) : (amWriteDataPduHeader h).length = h.getPackedSize := by
  by_cases hso : h.so = 0
  · have hsi : h.si.hasSo = false := by simpa [hso] using w.so_iff
    cases hs : h.snSize <;>
      simp [amWriteDataPduHeader, AmPduHeader.getPackedSize, hs, hso, hsi, amPduHeaderMinSize]
  · have hsi : h.si.hasSo = true := w.so_iff.mp hso
    cases hs : h.snSize <;>
      simp [amWriteDataPduHeader, AmPduHeader.getPackedSize, hs, hso, hsi, amPduHeaderMinSize,
        amPduHeaderMaxSize, amPduHeaderSoSize]

lemma fixed_fields {d p si r : ℕ} (hdc : d < 2) (hp : p < 2) (hsi : si < 4) (hr : r < 2 ^ 4) :
    let b := (d * 2 ^ 7 + p * 2 ^ 6 + si * 2 ^ 4 + r) % 2 ^ 8
    b / 2 ^ 7 % 2 = d ∧ b / 2 ^ 6 % 2 = p ∧ b / 2 ^ 4 % 4 = si ∧ b % 2 ^ 4 = r := by
  intro b
  have hb : b = d * 2 ^ 7 + p * 2 ^ 6 + si * 2 ^ 4 + r := Nat.mod_eq_of_lt (by omega)
  rw [hb]
  refine ⟨?_, ?_, ?_, ?_⟩ <;> omega

lemma readSoRest_write (w : h.WellFormed) (payload : Bytes) : readSoRest { h with so := 0 }
      ((if h.so ≠ 0 then [byte (h.so / 2 ^ 8), byte h.so] else []) ++ payload) = some (h, payload) := by
  have hlt := w.so_lt
  by_cases hso : h.so = 0
  · have hsi : h.si.hasSo = false := by simpa [hso] using w.so_iff
    simp only [readSoRest, hsi, hso]
    cases h; simp_all
  · have hsi : h.si.hasSo = true := w.so_iff.mp hso
    have hval : h.so / 2 ^ 8 % 2 ^ 8 * 2 ^ 8 + h.so % 2 ^ 8 = h.so := by omega
    simp only [readSoRest, hsi, if_true, hso, ne_eq, not_false_eq_true, cons_append, nil_append, toNat_byte, hval]

/-- **Header codec.** Reading a written header returns it and stops at the payload. Without a segment offset the reader
asks for one more byte. -/
theorem amReadHeaderRest_write (w : h.WellFormed) (payload : Bytes) :
    amReadHeaderRest (amWriteDataPduHeader h ++ payload) h.snSize =
      if payload ≠ [] ∨ h.si.hasSo = true then some (h, payload) else none := by
  have hmin : (amWriteDataPduHeader h ++ payload).length ≤ amPduHeaderMinSize h.snSize ↔
      ¬ (payload ≠ [] ∨ h.si.hasSo = true) := by
    rw [length_append, w.length_write, AmPduHeader.getPackedSize, ← length_pos_iff]
    cases h.si.hasSo with
    | false => simp
    | true =>
      simp only [if_true, amPduHeaderMaxSize, amPduHeaderSoSize, or_true, not_true_eq_false, iff_false]
      omega
  unfold amReadHeaderRest
  by_cases hp : payload ≠ [] ∨ h.si.hasSo = true
  swap
  · rw [if_pos (hmin.mpr hp), if_neg hp]
  rw [if_neg (mt hmin.mp (not_not.mpr hp)), if_pos hp]
  obtain ⟨dc, p, si, sz, sn, so⟩ := h
  have hsn := w.sn_lt
  have hso := readSoRest_write w payload
  have hdn : dc.toNumber < 2 := by cases dc <;> decide
  have hdc : (if dc.toNumber = 0 then DcField.control else .data) = dc := by cases dc <;> rfl
  have hpn : p.toNat < 2 := by cases p <;> decide
  have hpb : decide (p.toNat = 1) = p := by cases p <;> rfl
  cases sz with
  | size12bits =>
    simp only [AmSnSize.mod, AmSnSize.toNumber, cardinality] at hsn
    obtain ⟨h1, h2, h3, h4⟩ := fixed_fields (r := sn / 2 ^ 8 % 2 ^ 4) hdn hpn si.toNumber_lt (by omega)
    have hsn' : sn / 2 ^ 8 % 2 ^ 4 * 2 ^ 8 + sn % 2 ^ 8 = sn := by omega
    simp only [amWriteDataPduHeader, cons_append, nil_append, toNat_byte, h1, h2, h3, h4, hsn',
      hdc, hpb, SiField.ofBits_toNumber]
    exact hso
  | size18bits =>
    simp only [AmSnSize.mod, AmSnSize.toNumber, cardinality] at hsn
    obtain ⟨h1, h2, h3, h4⟩ := fixed_fields (r := sn / 2 ^ 16 % 2 ^ 2) hdn hpn si.toNumber_lt (by omega)
    have hsn' : sn / 2 ^ 16 % 2 ^ 2 * 2 ^ 16 + sn / 2 ^ 8 % 2 ^ 8 * 2 ^ 8 + sn % 2 ^ 8 = sn := by omega
    have hres : (dc.toNumber * 2 ^ 7 + p.toNat * 2 ^ 6 + si.toNumber * 2 ^ 4 + sn / 2 ^ 16 % 2 ^ 2) % 2 ^ 8
        / 2 ^ 2 % 4 = 0 := by
      omega
    have hlow : (dc.toNumber * 2 ^ 7 + p.toNat * 2 ^ 6 + si.toNumber * 2 ^ 4 + sn / 2 ^ 16 % 2 ^ 2) % 2 ^ 8
        % 2 ^ 2 = sn / 2 ^ 16 % 2 ^ 2 := by
      omega
    simp only [amWriteDataPduHeader, cons_append, nil_append, toNat_byte, h1, h2, h3, hres, hlow,
      hsn', hdc, hpb, SiField.ofBits_toNumber]
    exact hso

lemma readSoRest_length {h' : AmPduHeader} {rest' : Bytes} (e : readSoRest h rest = some (h', rest')) :
    h'.getPackedSize + rest'.length = amPduHeaderMinSize h.snSize + rest.length := by
  unfold readSoRest at e
  split at e
  next hsi =>
    split at e
    · cases e
      simp [AmPduHeader.getPackedSize, hsi, amPduHeaderMaxSize, amPduHeaderSoSize]
      omega
    · cases e
  next hsi =>
    cases e
    simp [AmPduHeader.getPackedSize, hsi]

lemma amReadHeaderRest_length {pdu : Bytes} (e : amReadHeaderRest pdu snSize = some (h, rest)) :
    h.getPackedSize + rest.length = pdu.length := by
  unfold amReadHeaderRest at e
  split at e
  · cases e
  split at e
  · rw [readSoRest_length e]
    simp [amPduHeaderMinSize]
    omega
  · split at e
    · cases e
    · rw [readSoRest_length e]
      simp [amPduHeaderMinSize]
      omega
  · cases e

lemma readSo_sn {h' : AmPduHeader} (e : readSo h rest = some h') : h'.sn = h.sn ∧ h'.si = h.si := by
  unfold readSo at e
  split at e
  · split at e
    · simp only [Option.some.injEq] at e
      subst e
      exact ⟨rfl, rfl⟩
    · cases e
  · simp only [Option.some.injEq] at e
    subst e
    exact ⟨rfl, rfl⟩

lemma amRead_sn_lt {pdu : Bytes} (e : amReadDataPduHeader pdu snSize = some h) : h.sn < snSize.mod := by
  unfold amReadDataPduHeader at e
  split at e
  · cases e
  · split at e
    next b0 b1 rest _ =>
      rw [(readSo_sn e).1]
      have := b1.toNat_lt
      simp only [AmSnSize.mod, AmSnSize.toNumber, cardinality]
      omega
    · split at e
      · cases e
      next b0 b1 b2 rest _ _ =>
        rw [(readSo_sn e).1]
        have := b1.toNat_lt
        have := b2.toNat_lt
        simp only [AmSnSize.mod, AmSnSize.toNumber, cardinality]
        omega
    · cases e

/-! ### The STATUS PDU -/

def invalidRlcSn : ℕ := 0xffffffff

def soEndOfSdu : ℕ := 0xffff

/-- `rlc_am_status_nack` with the values its constructor sets. -/
structure StatusNack where
  nackSn : ℕ := 0
  hasSo : Bool := false
  soStart : ℕ := 0
  soEnd : ℕ := soEndOfSdu
  hasNackRange : Bool := false
  nackRange : ℕ := 0
deriving DecidableEq

def StatusNack.range (n : StatusNack) : ℕ := if n.hasNackRange then n.nackRange else 1

def nackSize (snSize : AmSnSize) (n : StatusNack) : ℕ :=
  (match snSize with
    | .size12bits => 2
    | .size18bits => 3) +
  (if n.hasSo then 4 else 0) + (if n.hasNackRange then 1 else 0)

def statusPduSizeofHeaderAckSn : ℕ := 3

def canBeMerged (snSize : AmSnSize) (left right : StatusNack) : Bool :=
  if right.nackSn ≠ (left.nackSn + left.range) % snSize.mod then false
  else if left.hasSo && left.soEnd ≠ soEndOfSdu then false
  else if right.hasSo && right.soStart ≠ 0 then false
  else left.range + right.range ≤ 255

/-- `prev` expanded by `nack`, as `push_nack` does it in place. -/
def mergeNack (prev nack : StatusNack) : StatusNack :=
  { prev with
    nackRange :=
      match nack.hasNackRange, prev.hasNackRange with
      | true, true => prev.nackRange + nack.nackRange
      | true, false => nack.nackRange + 1
      | false, true => prev.nackRange + 1
      | false, false => 2
    hasNackRange := true
    hasSo := prev.hasSo || nack.hasSo
    soStart := if nack.hasSo && !prev.hasSo then 0 else prev.soStart
    soEnd :=
      if nack.hasSo then nack.soEnd
      else if prev.hasSo then soEndOfSdu
      else prev.soEnd }

lemma range_mergeNack (prev nack : StatusNack) : (mergeNack prev nack).range = prev.range + nack.range := by
  cases h1 : prev.hasNackRange <;> cases h2 : nack.hasNackRange <;>
    simp [mergeNack, StatusNack.range, h1, h2, Nat.add_comm]

lemma canBeMerged_iff {left right : StatusNack} : canBeMerged snSize left right = true ↔
      right.nackSn = (left.nackSn + left.range) % snSize.mod ∧
      (left.hasSo = true → left.soEnd = soEndOfSdu) ∧
      (right.hasSo = true → right.soStart = 0) ∧ left.range + right.range ≤ 255 := by
  unfold canBeMerged
  by_cases h1 : right.nackSn = (left.nackSn + left.range) % snSize.mod
  · cases hl : left.hasSo <;> cases hr : right.hasSo <;>
      by_cases h2 : left.soEnd = soEndOfSdu <;> by_cases h3 : right.soStart = 0 <;> simp [h1, h2, h3]
  · simp [h1]

lemma canBeMerged_mergeNack {left right nack : StatusNack} (h : canBeMerged snSize left right = false) :
    canBeMerged snSize left (mergeNack right nack) = false := by
  rw [Bool.eq_false_iff, ne_eq] at h ⊢
  contrapose! h
  obtain ⟨h1, h2, h3, h4⟩ := canBeMerged_iff.mp h
  rw [range_mergeNack] at h4
  refine canBeMerged_iff.mpr ⟨h1, h2, fun hso => ?_, by omega⟩
  simpa [mergeNack, hso] using h3

def nacksSize (snSize : AmSnSize) (nacks : List StatusNack) : ℕ := (nacks.map (nackSize snSize)).sum

@[simp] lemma nacksSize_append (snSize : AmSnSize) (l1 l2 : List StatusNack) :
    nacksSize snSize (l1 ++ l2) = nacksSize snSize l1 + nacksSize snSize l2 := by
  simp [nacksSize]

@[simp] lemma nacksSize_singleton (snSize : AmSnSize) (n : StatusNack) : nacksSize snSize [n] = nackSize snSize n := by
  simp [nacksSize]

/-- `rlc_am_status_pdu`. -/
structure StatusPdu where
  snSize : AmSnSize
  ackSn : ℕ
  nacks : List StatusNack
  packedSize : ℕ
  /-- `packed_size` is kept in sync with the NACKs -/
  packedSize_eq : packedSize = statusPduSizeofHeaderAckSn + nacksSize snSize nacks
  /-- neighbouring NACKs have been merged wherever possible -/
  unmergeable : nacks.IsChain fun a b => canBeMerged snSize a b = false

namespace StatusPdu

def reset (snSize : AmSnSize) : StatusPdu where
  snSize := snSize
  ackSn := invalidRlcSn
  nacks := []
  packedSize := statusPduSizeofHeaderAckSn
  packedSize_eq := rfl
  unmergeable := List.isChain_nil

lemma eq_dropLast_append {l : List StatusNack} {prev : StatusNack} (h : l.getLast? = some prev) :
    l = l.dropLast ++ [prev] :=
  (dropLast_append_getLast? prev h).symm

variable (s : StatusPdu)

def pushNack (nack : StatusNack) : StatusPdu :=
  match h : s.nacks.getLast? with
  | none =>
    { s with
      nacks := s.nacks ++ [nack]
      packedSize := s.packedSize + nackSize s.snSize nack
      packedSize_eq := by rw [s.packedSize_eq, nacksSize_append, nacksSize_singleton, Nat.add_assoc]
      unmergeable := by
        rw [List.getLast?_eq_none_iff.mp h]
        exact List.isChain_singleton nack }
  | some prev =>
    if hm : canBeMerged s.snSize prev nack = true then
      { s with
        nacks := s.nacks.dropLast ++ [mergeNack prev nack]
        packedSize := s.packedSize - nackSize s.snSize prev + nackSize s.snSize (mergeNack prev nack)
        packedSize_eq := by
          have hsz := s.packedSize_eq
          rw [eq_dropLast_append h, nacksSize_append, nacksSize_singleton] at hsz
          rw [nacksSize_append, nacksSize_singleton]
          omega
        unmergeable := by
          have hc := s.unmergeable
          rw [eq_dropLast_append h, List.isChain_append] at hc
          refine List.isChain_append.mpr ⟨hc.1, List.isChain_singleton _, ?_⟩
          intro x hx y hy
          obtain rfl : mergeNack prev nack = y := by simpa using hy
          exact canBeMerged_mergeNack (hc.2.2 x hx prev (by simp)) }
    else
      { s with
        nacks := s.nacks ++ [nack]
        packedSize := s.packedSize + nackSize s.snSize nack
        packedSize_eq := by rw [s.packedSize_eq, nacksSize_append, nacksSize_singleton, Nat.add_assoc]
        unmergeable := by
          refine List.isChain_append.mpr ⟨s.unmergeable, List.isChain_singleton _, ?_⟩
          intro x hx y hy
          obtain rfl : prev = x := by simpa [h] using hx
          obtain rfl : nack = y := by simpa using hy
          simpa using hm }

@[simp] lemma pushNack_snSize (nack : StatusNack) : (s.pushNack nack).snSize = s.snSize := by
  unfold pushNack
  split
  · rfl
  · split <;> rfl

@[simp] lemma pushNack_ackSn (nack : StatusNack) : (s.pushNack nack).ackSn = s.ackSn := by
  unfold pushNack
  split
  · rfl
  · split <;> rfl

lemma pushNack_nacks (nack : StatusNack) :
    (s.pushNack nack).nacks = s.nacks ++ [nack] ∧
        (∀ prev ∈ s.nacks.getLast?, canBeMerged s.snSize prev nack = false) ∨
      ∃ prev, s.nacks = s.nacks.dropLast ++ [prev] ∧ canBeMerged s.snSize prev nack = true ∧
        (s.pushNack nack).nacks = s.nacks.dropLast ++ [mergeNack prev nack] := by
  unfold pushNack
  split
  next h => exact .inl ⟨rfl, by simp [h]⟩
  next prev h =>
    by_cases hm : canBeMerged s.snSize prev nack = true
    · refine .inr ⟨prev, eq_dropLast_append h, hm, ?_⟩
      rw [dif_pos hm]
    · refine .inl ⟨by rw [dif_neg hm], ?_⟩
      intro x hx
      obtain rfl : prev = x := by simpa [h] using hx
      simpa using hm

def trimLoop (snSize : AmSnSize) (maxPackedSize : ℕ) : List StatusNack → ℕ → ℕ → List StatusNack × ℕ × ℕ
  | [], size, ack => ([], size, ack)
  | n :: rest, size, ack =>
    if maxPackedSize < size ∨ n.nackSn = ack then
      trimLoop snSize maxPackedSize rest (size - nackSize snSize n) n.nackSn
    else (n :: rest, size, ack)

lemma trimLoop_suffix (snSize : AmSnSize) (maxPackedSize : ℕ) (l : List StatusNack) :
    ∀ size ack, (trimLoop snSize maxPackedSize l size ack).1 <:+ l := by
  induction l with
  | nil => intro size ack; exact suffix_rfl
  | cons n rest ih =>
    intro size ack
    unfold trimLoop
    split
    · exact (ih _ _).trans (suffix_cons n rest)
    · exact suffix_rfl

lemma trimLoop_size (snSize : AmSnSize) (maxPackedSize : ℕ) (l : List StatusNack) :
    ∀ size ack, statusPduSizeofHeaderAckSn + nacksSize snSize l = size →
      (trimLoop snSize maxPackedSize l size ack).2.1 =
        statusPduSizeofHeaderAckSn + nacksSize snSize (trimLoop snSize maxPackedSize l size ack).1 := by
  induction l with
  | nil => intro size ack h; exact h.symm
  | cons n rest ih =>
    intro size ack h
    unfold trimLoop
    split
    · refine ih _ _ ?_
      simp only [nacksSize, map_cons, sum_cons] at h ⊢
      omega
    · exact h.symm

/-- `trim`; `none` when even the header does not fit. -/
def trim (maxPackedSize : ℕ) : Option StatusPdu :=
  if s.packedSize ≤ maxPackedSize then some s
  else if maxPackedSize < statusPduSizeofHeaderAckSn then none
  else
    some
      { snSize := s.snSize
        ackSn := (trimLoop s.snSize maxPackedSize s.nacks.reverse s.packedSize s.ackSn).2.2
        nacks := (trimLoop s.snSize maxPackedSize s.nacks.reverse s.packedSize s.ackSn).1.reverse
        packedSize := (trimLoop s.snSize maxPackedSize s.nacks.reverse s.packedSize s.ackSn).2.1
        packedSize_eq := by
          rw [trimLoop_size _ _ _ _ _ (by rw [s.packedSize_eq]; simp [nacksSize])]
          simp [nacksSize]
        unmergeable := by
          have h := trimLoop_suffix s.snSize maxPackedSize s.nacks.reverse s.packedSize s.ackSn
          exact s.unmergeable.prefix (by simpa using List.reverse_prefix.mpr h) }

/-! ### Packing and unpacking a STATUS PDU

`pack_12bit` and `pack_18bit` (and the two `unpack` functions) differ in the layout of the header
and of the NACK SN; the optional fields of a NACK and the loop over the NACKs are the same. -/

def packHeader : AmSnSize → ℕ → Bool → Bytes
  | .size12bits, ack, e1 => [byte (ack / 2 ^ 8 % 2 ^ 4), byte ack, byte (e1.toNat * 0x80)]
  | .size18bits, ack, e1 =>
    [byte (ack / 2 ^ 14 % 2 ^ 4), byte (ack / 2 ^ 6), byte (ack % 2 ^ 6 * 2 ^ 2 + e1.toNat * 0x02)]

/-- NACK_SN with the flags E1 (more NACKs), E2 (segment offsets) and E3 (NACK range). -/
def packNackSn : AmSnSize → ℕ → Bool → Bool → Bool → Bytes
  | .size12bits, sn, e1, e2, e3 =>
    [byte (sn / 2 ^ 4), byte (sn % 2 ^ 4 * 2 ^ 4 + e1.toNat * 0x08 + e2.toNat * 0x04 + e3.toNat * 0x02)]
  | .size18bits, sn, e1, e2, e3 =>
    [byte (sn / 2 ^ 10), byte (sn / 2 ^ 2),
      byte (sn % 2 ^ 2 * 2 ^ 6 + e1.toNat * 0x20 + e2.toNat * 0x10 + e3.toNat * 0x08)]

def packNackFields (n : StatusNack) : Bytes :=
  (if n.hasSo then
    [byte (n.soStart / 2 ^ 8), byte n.soStart, byte (n.soEnd / 2 ^ 8), byte n.soEnd]
  else []) ++
  (if n.hasNackRange then [byte n.nackRange] else [])

def packNacks (snSize : AmSnSize) : List StatusNack → Bytes
  | [] => []
  | n :: rest =>
    packNackSn snSize n.nackSn (!rest.isEmpty) n.hasSo n.hasNackRange ++ packNackFields n ++ packNacks snSize rest

def pack : Bytes := packHeader s.snSize s.ackSn (!s.nacks.isEmpty) ++ packNacks s.snSize s.nacks

def isControlPdu : Bytes → Bool
  | b :: _ => b.toNat / 2 ^ 7 % 2 = 0
  | [] => false

def unpackHeader (snSize : AmSnSize) (pdu : Bytes) : Option (ℕ × Bool × Bytes) :=
  match pdu with
  | b0 :: b1 :: b2 :: rest =>
    if isControlPdu pdu = false ∨ b0.toNat / 2 ^ 4 % 8 ≠ 0 then none
    else
      match snSize with
      | .size12bits =>
        if b2.toNat % 2 ^ 7 ≠ 0 then none
        else some (b0.toNat % 2 ^ 4 * 2 ^ 8 + b1.toNat, b2.toNat / 2 ^ 7 % 2 = 1, rest)
      | .size18bits =>
        if b2.toNat % 2 ≠ 0 then none
        else
          some (b0.toNat % 2 ^ 4 * 2 ^ 14 + b1.toNat * 2 ^ 6 + b2.toNat / 2 ^ 2, b2.toNat / 2 % 2 = 1, rest)
  | _ => none

def unpackNackSn : AmSnSize → Bytes → Option (ℕ × Bool × Bool × Bool × Bytes)
  | .size12bits, b0 :: b1 :: rest =>
    if b1.toNat % 2 ≠ 0 then none
    else
      some (b0.toNat * 2 ^ 4 + b1.toNat / 2 ^ 4, b1.toNat / 2 ^ 3 % 2 = 1, b1.toNat / 2 ^ 2 % 2 = 1,
        b1.toNat / 2 % 2 = 1, rest)
  | .size18bits, b0 :: b1 :: b2 :: rest =>
    if b2.toNat % 2 ^ 3 ≠ 0 then none
    else
      some (b0.toNat * 2 ^ 10 + b1.toNat * 2 ^ 2 + b2.toNat / 2 ^ 6, b2.toNat / 2 ^ 5 % 2 = 1,
        b2.toNat / 2 ^ 4 % 2 = 1, b2.toNat / 2 ^ 3 % 2 = 1, rest)
  | _, _ => none

def unpackSo (n : StatusNack) : Bool → Bytes → Option (StatusNack × Bytes)
  | false, rest => some (n, rest)
  | true, b0 :: b1 :: b2 :: b3 :: rest =>
    some ({ n with hasSo := true, soStart := b0.toNat * 2 ^ 8 + b1.toNat, soEnd := b2.toNat * 2 ^ 8 + b3.toNat }, rest)
  | true, _ => none

def unpackRange (n : StatusNack) : Bool → Bytes → Option (StatusNack × Bytes)
  | false, rest => some (n, rest)
  | true, b :: rest => some ({ n with hasNackRange := true, nackRange := b.toNat }, rest)
  | true, _ => none

def unpackNack (snSize : AmSnSize) (pdu : Bytes) : Option (StatusNack × Bool × Bytes) := do
  let (sn, e1, e2, e3, rest) ← unpackNackSn snSize pdu
  let (n, rest) ← unpackSo { nackSn := sn } e2 rest
  let (n, rest) ← unpackRange n e3 rest
  some (n, e1, rest)

def unpackNacks : ℕ → StatusPdu → Bool → Bytes → Option StatusPdu
  | _, s, false, _ => some s
  | 0, _, true, _ => none
  | fuel + 1, s, true, pdu =>
    match unpackNack s.snSize pdu with
    | some (n, e1, rest) => unpackNacks fuel (s.pushNack n) e1 rest
    | none => none

def unpack (snSize : AmSnSize) (pdu : Bytes) : Option StatusPdu :=
  match unpackHeader snSize pdu with
  | some (ack, e1, rest) => unpackNacks pdu.length { reset snSize with ackSn := ack } e1 rest
  | none => none

end StatusPdu

end SrsRan.Rlc
