import SrsRan.Rlc.AmPdu

/-!
# RLC UM PDU headers

The header of a UMD PDU (TS 38.322 Sec. 6.2.2.3).  The reader returns the bytes at which it has arrived, to be compared with
`rlc_um_nr_packed_length`, by which the receiver strips the header.  The writer and that function look at the value of the
segment offset where the reader looks at the SI field.
-/

namespace SrsRan.Rlc

open Support List

inductive UmSnSize where
  | size6bits
  | size12bits
deriving DecidableEq

def UmSnSize.toNumber : UmSnSize → ℕ
  | .size6bits => 6
  | .size12bits => 12

def UmSnSize.mod (s : UmSnSize) : ℕ := cardinality s.toNumber

structure UmPduHeader where
  si : SiField
  snSize : UmSnSize
  sn : ℕ
  so : ℕ
deriving DecidableEq

def umReadSo (h : UmPduHeader) (rest : Bytes) : Option (UmPduHeader × Bytes) :=
  if h.si.hasSo then
    match rest with
    | b :: c :: rest => some ({ h with so := b.toNat * 2 ^ 8 + c.toNat }, rest)
    | _ => none
  else some (h, rest)

def umReadDataPduHeader (pdu : Bytes) (snSize : UmSnSize) : Option (UmPduHeader × Bytes) :=
  match pdu with
  | [] => none
  | b :: rest =>
    let si := SiField.ofBits (b.toNat / 2 ^ 6 % 4)
    match snSize with
    | .size6bits =>
      let sn := b.toNat % 2 ^ 6
      if si = .fullSdu ∧ sn ≠ 0 then none
      else umReadSo { si := si, snSize := .size6bits, sn := sn, so := 0 } rest
    | .size12bits =>
      let sn := b.toNat % 2 ^ 4 * 2 ^ 8
      if si = .fullSdu ∧ sn ≠ 0 then none
      -- reserved bits, which are checked for first segments only
      else if si = .firstSegment ∧ b.toNat / 2 ^ 4 % 4 ≠ 0 then none
      else if si = .fullSdu then umReadSo { si := si, snSize := .size12bits, sn := sn, so := 0 } rest
      else
        match rest with
        | [] => none
        | c :: rest => umReadSo { si := si, snSize := .size12bits, sn := sn + c.toNat, so := 0 } rest

def umPduHeaderSizeNoSo : UmSnSize → ℕ
  | .size6bits => 1
  | .size12bits => 2

def umNrPackedLength (h : UmPduHeader) : ℕ :=
  if h.si = .fullSdu then 1 else umPduHeaderSizeNoSo h.snSize + if h.so ≠ 0 then 2 else 0

def umWriteDataPduHeader (h : UmPduHeader) : Bytes :=
  if h.si = .fullSdu then [byte (h.si.toNumber * 2 ^ 6)]
  else
    (match h.snSize with
      | .size6bits => [byte (h.si.toNumber * 2 ^ 6 + h.sn % 2 ^ 6)]
      | .size12bits => [byte (h.si.toNumber * 2 ^ 6 + h.sn / 2 ^ 8 % 2 ^ 4), byte h.sn]) ++
    (if h.so ≠ 0 then [byte (h.so / 2 ^ 8), byte h.so] else [])

/-- The fields fit, and the offset is present iff the SI field announces it. -/
structure UmPduHeader.WellFormed (h : UmPduHeader) : Prop where
  sn_lt : h.sn < h.snSize.mod
  so_lt : h.so < 2 ^ 16
  so_iff : h.so ≠ 0 ↔ h.si.hasSo = true

lemma length_umWrite (h : UmPduHeader) : (umWriteDataPduHeader h).length = umNrPackedLength h := by
  unfold umWriteDataPduHeader umNrPackedLength
  split
  · rfl
  · cases h.snSize <;> by_cases hso : h.so = 0 <;> simp [hso, umPduHeaderSizeNoSo]

lemma umReadSo_write {h : UmPduHeader} (w : h.WellFormed) (payload : Bytes) : umReadSo { h with so := 0 }
      ((if h.so ≠ 0 then [byte (h.so / 2 ^ 8), byte h.so] else []) ++ payload) = some (h, payload) := by
  have hlt := w.so_lt
  by_cases hso : h.so = 0
  · have hsi : h.si.hasSo = false := by simpa [hso] using w.so_iff
    simp only [umReadSo, hsi, hso]
    cases h; simp_all
  · have hsi : h.si.hasSo = true := w.so_iff.mp hso
    have hval : h.so / 2 ^ 8 % 2 ^ 8 * 2 ^ 8 + h.so % 2 ^ 8 = h.so := by omega
    simp only [umReadSo, hsi, if_true, hso, ne_eq, not_false_eq_true, cons_append, nil_append, toNat_byte, hval]

lemma umFixed_fields (si : SiField) {r : ℕ} (hr : r < 2 ^ 6) :
    SiField.ofBits ((si.toNumber * 2 ^ 6 + r) % 2 ^ 8 / 2 ^ 6 % 4) = si ∧
      (si.toNumber * 2 ^ 6 + r) % 2 ^ 8 % 2 ^ 6 = r := by
  have hsi := si.toNumber_lt
  have hval : (si.toNumber * 2 ^ 6 + r) % 2 ^ 8 / 2 ^ 6 % 4 = si.toNumber := by omega
  exact ⟨by rw [hval, SiField.ofBits_toNumber], by omega⟩

lemma umRead_write_fullSdu {h : UmPduHeader} (w : h.WellFormed) (hsi : h.si = .fullSdu)
    (payload : Bytes) : umReadDataPduHeader (umWriteDataPduHeader h ++ payload) h.snSize =
      some ({ h with sn := 0 }, payload) := by
  obtain ⟨si, sz, sn, so⟩ := h
  obtain rfl : si = .fullSdu := hsi
  obtain rfl : so = 0 := by
    by_contra hso
    cases w.so_iff.mp hso
  cases sz <;>
    simp [umWriteDataPduHeader, umReadDataPduHeader, umReadSo, SiField.toNumber, SiField.ofBits, SiField.hasSo]

lemma umRead_write_segment {h : UmPduHeader} (w : h.WellFormed) (hsi : h.si ≠ .fullSdu)
    (payload : Bytes) : umReadDataPduHeader (umWriteDataPduHeader h ++ payload) h.snSize =
      some (h, payload) := by
  obtain ⟨si, sz, sn, so⟩ := h
  have hso := umReadSo_write w payload
  have hsn := w.sn_lt
  have hne : si ≠ .fullSdu := hsi
  cases sz with
  | size6bits =>
    simp only [UmSnSize.mod, UmSnSize.toNumber, cardinality] at hsn
    obtain ⟨h1, h2⟩ := umFixed_fields si hsn
    simp only [umWriteDataPduHeader, cons_append, nil_append, umReadDataPduHeader,
      toNat_byte, h1, h2, hne, false_and, if_false, Nat.mod_eq_of_lt hsn]
    exact hso
  | size12bits =>
    simp only [UmSnSize.mod, UmSnSize.toNumber, cardinality] at hsn
    obtain ⟨h1, h2⟩ := umFixed_fields si (r := sn / 2 ^ 8 % 2 ^ 4) (by omega)
    have hlow : (si.toNumber * 2 ^ 6 + sn / 2 ^ 8 % 2 ^ 4) % 2 ^ 8 % 2 ^ 4 = sn / 2 ^ 8 % 2 ^ 4 := by omega
    have hres : (si.toNumber * 2 ^ 6 + sn / 2 ^ 8 % 2 ^ 4) % 2 ^ 8 / 2 ^ 4 % 4 = 0 := by omega
    have hval : sn / 2 ^ 8 % 2 ^ 4 * 2 ^ 8 + sn % 2 ^ 8 = sn := by omega
    simp only [umWriteDataPduHeader, cons_append, nil_append, umReadDataPduHeader,
      toNat_byte, h1, hlow, hres, hne, false_and, if_false, hval, ne_eq, not_true_eq_false, and_false]
    exact hso

lemma umReadSo_length {h h' : UmPduHeader} {rest rest' : Bytes} (hso : h.so = 0)
    (e : umReadSo h rest = some (h', rest')) :
    umNrPackedLength h' + rest'.length = umNrPackedLength h + rest.length ↔
      (h'.si.hasSo = true → h'.so ≠ 0) := by
  unfold umReadSo at e
  split at e
  next hsi =>
    have hne : h.si ≠ .fullSdu := by
      rintro hf
      rw [hf] at hsi
      cases hsi
    split at e
    next b c rest =>
      cases e
      simp only [umNrPackedLength, hne, if_false, hso, hsi, ne_eq, not_true_eq_false, true_imp_iff, length_cons]
      by_cases hz : b.toNat * 2 ^ 8 + c.toNat = 0 <;> simp only [hz, not_true_eq_false, not_false_eq_true,
        if_true, if_false, iff_true, iff_false] <;> omega
    · cases e
  next hsi =>
    cases e
    simp [hsi]

lemma umRead_length {pdu rest : Bytes} {snSize : UmSnSize} {h : UmPduHeader}
    (e : umReadDataPduHeader pdu snSize = some (h, rest)) :
    umNrPackedLength h + rest.length = pdu.length ↔ (h.si.hasSo = true → h.so ≠ 0) := by
  unfold umReadDataPduHeader at e
  split at e
  · cases e
  rename_i b rest'
  dsimp only at e
  split at e
  · split at e
    · cases e
    rw [← umReadSo_length rfl e, length_cons,
      show umNrPackedLength ⟨_, .size6bits, _, 0⟩ = 1 from ite_self 1, Nat.add_comm 1]
  split at e
  · cases e
  split at e
  · cases e
  split at e
  next hf =>
    rw [← umReadSo_length rfl e]
    simp only [umNrPackedLength, hf, if_true, length_cons]
    omega
  next hf =>
    split at e
    · cases e
    · rw [← umReadSo_length rfl e]
      simp only [umNrPackedLength, hf, ne_eq, not_true_eq_false, if_false, length_cons, umPduHeaderSizeNoSo]
      omega

/-- **Header codecs of UM and AM.** A UM header is read back iff it has no SN that its format does not carry, an AM
header iff the PDU is longer than the shortest header. -/
theorem headerCodec_iff {u : UmPduHeader} (wu : u.WellFormed) {a : AmPduHeader} (wa : a.WellFormed)
    (payload pdu : Bytes) (umSize : UmSnSize) (amSize : AmSnSize) :
    (umWriteDataPduHeader u).length = umNrPackedLength u ∧
    (umReadDataPduHeader (umWriteDataPduHeader u ++ payload) u.snSize = some (u, payload) ↔
      (u.si = .fullSdu → u.sn = 0)) ∧
    (∀ h rest, umReadDataPduHeader pdu umSize = some (h, rest) →
      (umNrPackedLength h + rest.length = pdu.length ↔ (h.si.hasSo = true → h.so ≠ 0))) ∧
    (amWriteDataPduHeader a).length = a.getPackedSize ∧
    (amReadHeaderRest (amWriteDataPduHeader a ++ payload) a.snSize = some (a, payload) ↔
      payload ≠ [] ∨ a.si.hasSo = true) ∧
    (∀ h rest, amReadHeaderRest pdu amSize = some (h, rest) → h.getPackedSize + rest.length = pdu.length) := by
  refine ⟨length_umWrite u, ?_, fun h rest e => umRead_length e, wa.length_write, ?_,
    fun h rest e => amReadHeaderRest_length e⟩
  · by_cases hsi : u.si = .fullSdu
    · rw [umRead_write_fullSdu wu hsi payload, Option.some.injEq, Prod.mk.injEq, and_iff_left rfl]
      constructor
      · intro h _
        rw [← h]
      · intro h
        rw [← h hsi]
    · simp [umRead_write_segment wu hsi payload, hsi]
  · simp [amReadHeaderRest_write wa payload, or_iff_not_imp_left]

theorem headerCodec_segments :
    umReadDataPduHeader (umWriteDataPduHeader ⟨.middleSegment, .size6bits, 5, 300⟩ ++ [1, 2]) .size6bits =
      some (⟨.middleSegment, .size6bits, 5, 300⟩, [1, 2]) ∧
    amReadHeaderRest (amWriteDataPduHeader ⟨.data, true, .lastSegment, .size18bits, 70000, 9⟩ ++ [1, 2])
      .size18bits = some (⟨.data, true, .lastSegment, .size18bits, 70000, 9⟩, [1, 2]) := by
  have h := headerCodec_iff (u := ⟨.middleSegment, .size6bits, 5, 300⟩)
    ⟨by decide, by decide, by decide⟩ (a := ⟨.data, true, .lastSegment, .size18bits, 70000, 9⟩)
    ⟨by decide, by decide, by decide⟩ [1, 2] [] .size6bits .size12bits
  exact ⟨h.2.1.mpr (by decide), h.2.2.2.2.1.mpr (by decide)⟩

/-- A middle segment with SN 1 and segment offset 0: the reader consumes three bytes, and the receiver
strips one. -/
theorem umRead_length_offsetZero :
    ∃ h rest, umReadDataPduHeader [0xc1, 0, 0, 7, 8] .size6bits = some (h, rest) ∧ rest = [7, 8] ∧
      umNrPackedLength h = 1 :=
  ⟨_, _, rfl, rfl, rfl⟩

end SrsRan.Rlc
