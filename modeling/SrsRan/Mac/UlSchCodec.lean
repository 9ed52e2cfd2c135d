import SrsRan.Lib.Run
import SrsRan.Mac.UlSchPdu
import Mathlib.Data.Nat.Bitwise

/-!
# UL-SCH decoding

`Conformant` describes the subPDUs of TS 38.321, Table 6.2.1-2.  The decoder knows the sizes of all of them but the
recommended bit rate query and the multiple entry PHRs (`unpack_encodings_iff`).
-/

namespace SrsRan.Mac

open Support Lib.Run LcidUlSch List Option

/-! ### Coverage -/

/-- The bytes are the subheader of the subPDU. -/
structure IsHeader (hdr : Bytes) (x : UlSchSubPdu) : Prop where
  length : hdr.length = x.headerLength
  first : ∃ b ∈ hdr.head?, b.toNat % 2 ^ 6 = x.lcid ∧ decide (b.toNat / 2 ^ 6 % 2 = 1) = x.fBit
  lengthField : (hdr.drop 1 = []) ∨ (∃ l, hdr.drop 1 = [l] ∧ l.toNat = x.payload.length) ∨
    ∃ l l', hdr.drop 1 = [l, l'] ∧ l.toNat * 2 ^ 8 + l'.toNat = x.payload.length

/-- The subPDUs are consecutive from the start of `bytes`, and `rest` follows. -/
inductive Covers : List UlSchSubPdu → Bytes → Bytes → Prop
  | nil (rest : Bytes) : Covers [] rest rest
  | cons (hdr : Bytes) (x : UlSchSubPdu) (xs : List UlSchSubPdu) (bytes rest : Bytes) (h : IsHeader hdr x)
      (ih : Covers xs bytes rest) : Covers (x :: xs) (hdr ++ x.payload ++ bytes) rest

variable {lcid : ℕ} {bytes : Bytes} {xs : List UlSchSubPdu} {x : UlSchSubPdu}

lemma splitPayload_ok {f : Bool} {n len : ℕ} {reader : Bytes} {e : ℕ → ℕ → UnpackError}
    {r : UlSchSubPdu × Bytes} (h : splitPayload f lcid n len reader e = .ok r) :
    r.1.fBit = f ∧ r.1.lcid = lcid ∧ r.1.headerLength = n ∧ r.1.payload.length = len ∧
      reader = r.1.payload ++ r.2 := by
  unfold splitPayload at h
  split at h
  · cases h
  · cases h
    refine ⟨rfl, rfl, rfl, ?_, (take_append_drop len reader).symm⟩
    rw [length_take]
    omega

lemma UlSchSubPdu.unpack_ok {r : UlSchSubPdu × Bytes} (h : unpack bytes = .ok r) :
    (∃ hdr, IsHeader hdr r.1 ∧ bytes = hdr ++ r.1.payload ++ r.2) ∧
      (hasLengthField r.1.lcid = false → r.1.lcid ≠ padding →
        r.1.payload.length = LcidUlSch.sizeofCe r.1.lcid) := by
  cases bytes with
  | nil => cases h
  | cons b reader =>
    unfold unpack at h
    dsimp only at h
    split at h
    · cases h
    split at h
    · -- an L field of one or two bytes
      rename_i hfield
      unfold unpackVarLen at h
      split at h
      next l reader hf =>
        obtain ⟨h1, h2, h3, h4, h5⟩ := splitPayload_ok h
        refine ⟨⟨[b, l], ⟨h3.symm, ⟨b, rfl, h2.symm, hf.trans h1.symm⟩, .inr (.inl ⟨l, rfl, h4.symm⟩)⟩, ?_⟩,
          fun hno => ?_⟩
        · simp [← h5]
        · rw [h2, hfield] at hno
          cases hno
      next l l' reader hf =>
        obtain ⟨h1, h2, h3, h4, h5⟩ := splitPayload_ok h
        refine ⟨⟨[b, l, l'], ⟨h3.symm, ⟨b, rfl, h2.symm, hf.trans h1.symm⟩,
          .inr (.inr ⟨l, l', rfl, h4.symm⟩)⟩, ?_⟩, fun hno => ?_⟩
        · simp [← h5]
        · rw [h2, hfield] at hno
          cases hno
      · cases h
    split at h
    next hpad =>
      cases h
      exact ⟨⟨[b], ⟨rfl, ⟨b, rfl, rfl, rfl⟩, .inl rfl⟩, by simp⟩, fun _ hne => absurd hpad hne⟩
    · obtain ⟨h1, h2, h3, h4, h5⟩ := splitPayload_ok h
      refine ⟨⟨[b], ⟨h3.symm, ⟨b, rfl, h2.symm, h1.symm⟩, .inl rfl⟩, ?_⟩, fun _ _ => ?_⟩
      · simp [← h5]
      · rw [h4, h2]

lemma unpackLoop_covers {n : ℕ} (h : unpackLoop n bytes = .ok xs) :
    ∃ rest, Covers xs bytes rest ∧ (rest = [] ∨ xs.length = n) := by
  induction n generalizing bytes xs with
  | zero =>
    cases bytes with
    | nil => cases h; exact ⟨[], .nil [], .inl rfl⟩
    | cons b reader => cases h; exact ⟨_, .nil _, .inr rfl⟩
  | succ n ih =>
    cases bytes with
    | nil => cases h; exact ⟨[], .nil [], .inl rfl⟩
    | cons b reader =>
      obtain ⟨r, h1, h2⟩ := bind_eq_ok.mp h
      obtain ⟨xs', h3, h4⟩ := bind_eq_ok.mp h2
      cases h4
      obtain ⟨⟨hdr, h5, h6⟩, -⟩ := UlSchSubPdu.unpack_ok h1
      obtain ⟨rest, h7, h8⟩ := ih h3
      refine ⟨rest, h6 ▸ .cons hdr r.1 xs' r.2 rest h5 h7, h8.imp id fun hlen => ?_⟩
      rw [length_cons, hlen]

lemma unpackUlSch_covers (payload : Bytes) :
    (∃ e, unpackUlSch payload = ([], some e)) ∨
      ∃ xs rest, unpackUlSch payload = (xs, none) ∧ Covers xs payload rest ∧
        (rest = [] ∨ xs.length = maxSubPdusPerPdu) := by
  unfold unpackUlSch
  cases h : unpackLoop maxSubPdusPerPdu payload with
  | error e => exact .inl ⟨e, rfl⟩
  | ok xs =>
    obtain ⟨rest, h1, h2⟩ := unpackLoop_covers h
    exact .inr ⟨xs, rest, rfl, h1, h2⟩

/-! ### Conformant subPDUs -/

def tsHasLengthField (lcid : ℕ) : Bool := (1 ≤ lcid && lcid ≤ 32) || lcid = 54 || lcid = 56 || lcid = 60 || lcid = 62

def tsFixedSize (lcid : ℕ) : Option ℕ :=
  match lcid with
  | 0 => some 8
  | 52 => some 6
  | 53 => some 2
  | 55 => some 0
  | 57 => some 2
  | 58 => some 2
  | 59 => some 1
  | 61 => some 1
  | _ => none

/-- A subPDU of the standard; without an L field, F is reserved. -/
inductive Conformant : UlSchSubPdu → Prop
  | short (lcid : ℕ) (p : Bytes) (h : tsHasLengthField lcid = true) (hp : p.length < 2 ^ 8) :
      Conformant ⟨false, lcid, 2, p⟩
  | long (lcid : ℕ) (p : Bytes) (h : tsHasLengthField lcid = true) (hp : p.length < 2 ^ 16) :
      Conformant ⟨true, lcid, 3, p⟩
  | fixed (lcid : ℕ) (p : Bytes) (h : tsFixedSize lcid = some p.length) : Conformant ⟨false, lcid, 1, p⟩
  | padding (p : Bytes) : Conformant ⟨false, LcidUlSch.padding, 1, p⟩

/-- The bytes of a subPDU: the subheader, with a length field of one or two octets if it has one, and the payload. -/
def UlSchSubPdu.encode (x : UlSchSubPdu) : Bytes :=
  byte (x.fBit.toNat * 2 ^ 6 + x.lcid) ::
    ((if x.headerLength = 3 then [byte (x.payload.length / 2 ^ 8), byte (x.payload.length % 2 ^ 8)]
      else if x.headerLength = 2 then [byte x.payload.length] else []) ++ x.payload)

open UlSchSubPdu (encode unpack)

/-- All subPDUs are conformant, and padding is the last of them. -/
def ConformantList : List UlSchSubPdu → Prop
  | [] => True
  | [x] => Conformant x
  | x :: y :: rest => Conformant x ∧ x.lcid ≠ LcidUlSch.padding ∧ ConformantList (y :: rest)

/-- The recommended bit rate query and the multiple entry PHRs have no size the decoder knows. -/
def UlSchSubPdu.Known (x : UlSchSubPdu) : Prop := x.lcid ≠ 53 ∧ x.lcid ≠ 54 ∧ x.lcid ≠ 56

lemma splitPayload_append (f : Bool) (lcid n : ℕ) (p rest : Bytes) (e : ℕ → ℕ → UnpackError) :
    splitPayload f lcid n p.length (p ++ rest) e = .ok (⟨f, lcid, n, p⟩, rest) := by
  rw [splitPayload, if_neg (by simp), take_left, drop_left]

lemma unpack_cons (f : Bool) (h : lcid < 2 ^ 6) (hv : isValidLcid lcid = true) (reader : Bytes) :
    unpack (byte (f.toNat * 2 ^ 6 + lcid) :: reader) = if hasLengthField lcid then unpackVarLen f lcid reader
      else if lcid = padding then .ok (⟨f, lcid, 1, reader⟩, [])
      else splitPayload f lcid 1 (LcidUlSch.sizeofCe lcid) reader .cePayload := by
  obtain ⟨h1, h2⟩ := flagged_fields f h
  simp only [unpack, h1, h2, hv]
  rfl

lemma tsHasLengthField_cases (h : tsHasLengthField lcid = true) : lcid < 2 ^ 6 ∧ isValidLcid lcid = true ∧
      (hasLengthField lcid = true ∧ lcid ≠ 53 ∧ lcid ≠ 54 ∧ lcid ≠ 56 ∨
        hasLengthField lcid = false ∧ lcid ≠ padding ∧ LcidUlSch.sizeofCe lcid = 0 ∧ (lcid = 54 ∨ lcid = 56)) := by
  have hlt : lcid < 64 := by
    simp only [tsHasLengthField, Bool.or_eq_true, Bool.and_eq_true, decide_eq_true_eq] at h
    omega
  revert h
  revert lcid
  decide

lemma tsFixedSize_cases {n : ℕ} (h : tsFixedSize lcid = some n) :
    lcid < 2 ^ 6 ∧ isValidLcid lcid = true ∧ hasLengthField lcid = false ∧ lcid ≠ padding ∧
      (LcidUlSch.sizeofCe lcid = n ∧ lcid ≠ 53 ∧ lcid ≠ 54 ∧ lcid ≠ 56 ∨ LcidUlSch.sizeofCe lcid = 0 ∧ lcid = 53 ∧ n = 2) := by
  unfold tsFixedSize at h
  split at h <;> first | (cases h; decide) | cases h

lemma unpack_lengthField {f : Bool} {n : ℕ} {p rest reader : Bytes} (h : tsHasLengthField lcid = true)
    (hr : unpackVarLen f lcid reader = .ok (⟨f, lcid, n, p⟩, rest)) (hn : n ≠ 1) :
    ∃ x' rest', unpack (byte (f.toNat * 2 ^ 6 + lcid) :: reader) = .ok (x', rest') ∧
      (x' = ⟨f, lcid, n, p⟩ ↔ UlSchSubPdu.Known ⟨f, lcid, n, p⟩) ∧
      (UlSchSubPdu.Known ⟨f, lcid, n, p⟩ → rest' = rest) := by
  obtain ⟨h1, h2, h3⟩ := tsHasLengthField_cases h
  rw [unpack_cons f h1 h2]
  rcases h3 with ⟨h4, h5⟩ | ⟨h4, h5, h6, h7⟩
  · rw [if_pos h4, hr]
    exact ⟨_, _, rfl, iff_of_true rfl h5, fun _ => rfl⟩
  · rw [if_neg (by simp [h4]), if_neg h5, h6, splitPayload, if_neg (by omega)]
    refine ⟨_, _, rfl, iff_of_false (fun heq => ?_) (fun hk => ?_), fun hk => ?_⟩
    · exact hn (congrArg UlSchSubPdu.headerLength heq).symm
    · exact h7.elim hk.2.1 hk.2.2
    · exact absurd h7 (not_or.mpr ⟨hk.2.1, hk.2.2⟩)

lemma unpack_encode (h : Conformant x) (rest : Bytes) (hpad : x.lcid = padding → rest = []) :
    ∃ x' rest', unpack (x.encode ++ rest) = .ok (x', rest') ∧ (x' = x ↔ x.Known) ∧
      (x.Known → rest' = rest) := by
  cases h with
  | short lcid p hl hp =>
    have henc : encode ⟨false, lcid, 2, p⟩ ++ rest =
        byte (false.toNat * 2 ^ 6 + lcid) :: byte p.length :: (p ++ rest) := rfl
    have hlen : (byte p.length).toNat = p.length := by rw [toNat_byte, Nat.mod_eq_of_lt hp]
    rw [henc]
    refine unpack_lengthField hl ?_ (by decide)
    rw [unpackVarLen, hlen, splitPayload_append]
  | long lcid p hl hp =>
    have henc : encode ⟨true, lcid, 3, p⟩ ++ rest =
        byte (true.toNat * 2 ^ 6 + lcid) :: byte (p.length / 2 ^ 8) :: byte (p.length % 2 ^ 8) :: (p ++ rest) := rfl
    have hlen : (byte (p.length / 2 ^ 8)).toNat * 2 ^ 8 + (byte (p.length % 2 ^ 8)).toNat = p.length := by
      rw [toNat_byte, toNat_byte]
      omega
    rw [henc]
    refine unpack_lengthField hl ?_ (by decide)
    rw [unpackVarLen, hlen, splitPayload_append]
  | fixed lcid p hs =>
    obtain ⟨h1, h2, h3, h4, h5⟩ := tsFixedSize_cases hs
    have henc : encode ⟨false, lcid, 1, p⟩ ++ rest = byte (false.toNat * 2 ^ 6 + lcid) :: (p ++ rest) := rfl
    rw [henc, unpack_cons false h1 h2, if_neg (by simp [h3]), if_neg h4]
    rcases h5 with ⟨h5, h6⟩ | ⟨h5, h6, h7⟩
    · rw [h5, splitPayload_append]
      exact ⟨_, _, rfl, iff_of_true rfl h6, fun _ => rfl⟩
    · rw [h5, splitPayload, if_neg (by omega)]
      refine ⟨_, _, rfl, iff_of_false (fun heq => ?_) (fun hk => hk.1 h6), fun hk => absurd h6 hk.1⟩
      have := congrArg (fun y => y.payload.length) heq
      simp only [take_zero, length_nil] at this
      omega
  | padding p =>
    have hun : unpack (encode ⟨false, padding, 1, p⟩) = .ok (⟨false, padding, 1, p⟩, []) :=
      (unpack_cons false (show padding < 2 ^ 6 by decide) rfl p).trans rfl
    rw [hpad rfl, append_nil, hun]
    refine ⟨_, _, rfl, iff_of_true rfl ?_, fun _ => rfl⟩
    simp [UlSchSubPdu.Known, padding]

lemma ConformantList.tail (h : ConformantList (x :: xs)) :
    Conformant x ∧ ConformantList xs ∧ (x.lcid = padding → xs = []) := by
  cases xs with
  | nil => exact ⟨h, trivial, fun _ => rfl⟩
  | cons y rest => exact ⟨h.1, h.2.2, fun hp => absurd hp h.2.1⟩

lemma unpackLoop_encodings_iff {n : ℕ} (h : ConformantList xs) (hn : xs.length ≤ n) :
    unpackLoop n (xs.flatMap encode) = .ok xs ↔ ∀ x ∈ xs, x.Known := by
  induction xs generalizing n with
  | nil =>
    refine iff_of_true ?_ (by simp)
    cases n <;> rfl
  | cons x xs ih =>
    obtain ⟨h1, h2, h3⟩ := h.tail
    obtain ⟨n, rfl⟩ : ∃ k, n = k + 1 := ⟨n - 1, by simp at hn; omega⟩
    obtain ⟨x', rest', e1, e2, e3⟩ := unpack_encode h1 (xs.flatMap encode) fun hp => by rw [h3 hp]; rfl
    have hstep : unpackLoop (n + 1) ((x :: xs).flatMap encode) = (unpackLoop n rest' >>= fun ys => .ok (x' :: ys)) := by
      rw [flatMap_cons]
      have hcons : x.encode ++ xs.flatMap encode ≠ [] := by simp [encode]
      obtain ⟨b, t, hbt⟩ := exists_cons_of_ne_nil hcons
      rw [hbt] at e1 ⊢
      rw [unpackLoop, e1]
      rfl
    rw [hstep, forall_mem_cons]
    constructor
    · intro heq
      obtain ⟨ys, hys, hcons⟩ := bind_eq_ok.mp heq
      obtain ⟨rfl, rfl⟩ := List.cons.inj (Except.ok.inj hcons)
      have hk := e2.mp rfl
      rw [e3 hk] at hys
      exact ⟨hk, (ih h2 (by simpa using hn)).mp hys⟩
    · rintro ⟨hk, hrest⟩
      rw [e3 hk, e2.mpr hk, (ih h2 (by simpa using hn)).mpr hrest]
      rfl

lemma unpack_encodings_iff (h : ConformantList xs) (hn : xs.length ≤ maxSubPdusPerPdu) :
    unpackUlSch (xs.flatMap encode) = (xs, none) ↔ ∀ x ∈ xs, x.Known := by
  rw [← unpackLoop_encodings_iff h hn, unpackUlSch]
  cases unpackLoop maxSubPdusPerPdu (xs.flatMap encode) with
  | error e => simp
  | ok ys => simp

/-! ### Buffer status reports -/

lemma mem_unpackLoop {n : ℕ} (h : unpackLoop n bytes = .ok xs) :
    ∀ x ∈ xs, ∃ bytes rest, unpack bytes = .ok (x, rest) := by
  induction n generalizing bytes xs with
  | zero =>
    cases bytes <;> cases h <;> simp
  | succ n ih =>
    cases bytes with
    | nil => cases h; simp
    | cons b reader =>
      obtain ⟨r, h1, h2⟩ := bind_eq_ok.mp h
      obtain ⟨xs', h3, h4⟩ := bind_eq_ok.mp h2
      cases h4
      rw [forall_mem_cons]
      exact ⟨⟨_, r.2, h1⟩, ih h3⟩

/-- A long BSR, truncated or not. -/
def UlSchSubPdu.IsLongBsr (x : UlSchSubPdu) : Prop := x.lcid = longBsr ∨ x.lcid = longTruncBsr

variable (format : LongBsrFormat)

lemma decodeLbsr_ne_none_iff (p : Bytes) : decodeLbsr format p ≠ none ↔ p ≠ [] := by
  cases p with
  | nil => simp [decodeLbsr]
  | cons b reader =>
    rw [decodeLbsr]
    split <;> simp

lemma decodeBsr_ne_none_iff {rest : Bytes} (h : unpack bytes = .ok (x, rest)) :
    decodeBsr x ≠ none ↔ (x.IsLongBsr → x.payload ≠ []) := by
  unfold decodeBsr UlSchSubPdu.IsLongBsr
  split
  next hs =>
    have hlen : x.payload.length = 1 := by
      have hsize := (UlSchSubPdu.unpack_ok h).2
      rcases hs with hs | hs <;> simp only [hs] at hsize <;> exact hsize (by decide) (by decide)
    obtain ⟨b, hb⟩ := length_eq_one_iff.mp hlen
    refine iff_of_true ?_ fun _ => by simp [hb]
    simp [hb, decodeSbsr]
  split
  next hl =>
    rw [decodeLbsr_ne_none_iff]
    exact ⟨fun hne _ => hne, fun himp => himp (.inl hl)⟩
  split
  next hl =>
    rw [decodeLbsr_ne_none_iff]
    exact ⟨fun hne _ => hne, fun himp => himp (.inr hl)⟩
  next h1 h2 => exact iff_of_true (by simp) fun hl => absurd hl (not_or.mpr ⟨h1, h2⟩)

lemma containsPositiveBsr_ne_none (h : ∀ x ∈ xs, decodeBsr x ≠ none) : containsPositiveBsr xs ≠ none := by
  induction xs with
  | nil => simp [containsPositiveBsr]
  | cons x xs ih =>
    rw [forall_mem_cons] at h
    unfold containsPositiveBsr
    split
    next hnone => exact absurd hnone h.1
    split
    · simp
    · exact ih h.2

def markedFrom (bitmap i n : ℕ) : List ℕ := (List.range' i n).filter fun j => bitmap.testBit j

lemma markedFrom_succ (bitmap i n : ℕ) :
    markedFrom bitmap i (n + 1) =
      if bitmap.testBit i then i :: markedFrom bitmap (i + 1) n else markedFrom bitmap (i + 1) n := by
  rw [markedFrom, range'_succ, filter_cons]
  rfl

def reports (lcgs : List ℕ) (sizes : List ℕ) : List LcgBsrReport :=
  List.zipWith (fun i n => { lcgId := i, bufferSize := n }) lcgs sizes

/-- One report per marked LCG. A truncated BSR can leave out sizes, which count as 64. -/
def lbsrMeaning (bitmap : ℕ) (sizes : Bytes) : Option (List LcgBsrReport) :=
  let lcgs := markedFrom bitmap 0 maxNofLcgs
  match format with
  | .long => if lcgs.length ≤ sizes.length then some (reports lcgs (sizes.map UInt8.toNat)) else none
  | .longTrunc => some (reports lcgs (sizes.map UInt8.toNat ++ List.replicate maxNofLcgs 64))

section Loop

variable {format : LongBsrFormat} {bitmap n i : ℕ}

lemma lbsrLoop_cons (h : bitmap.testBit i = true) (b : UInt8) (reader : Bytes) :
    lbsrLoop format bitmap (n + 1) i (b :: reader) = if b = 255 then none
      else (lbsrLoop format bitmap n (i + 1) reader).map ({ lcgId := i, bufferSize := b.toNat } :: ·) := by
  have hb : b.toNat = 255 ↔ b = 255 := ⟨fun hb => UInt8.toNat_inj.mp hb, fun hb => by rw [hb]; rfl⟩
  rw [lbsrLoop.eq_def]
  simp only [h, if_true, hb]

lemma lbsrLoop_nil (h : bitmap.testBit i = true) : lbsrLoop format bitmap (n + 1) i [] = match format with
      | .longTrunc => (lbsrLoop format bitmap n (i + 1) []).map ({ lcgId := i, bufferSize := 64 } :: ·)
      | .long => none := by
  rw [lbsrLoop.eq_def]
  cases format <;> simp only [h, if_true]

lemma lbsrLoop_unmarked (h : bitmap.testBit i = false) (reader : Bytes) :
    lbsrLoop .long bitmap (n + 1) i reader = lbsrLoop .long bitmap n (i + 1) reader := by
  rw [lbsrLoop.eq_def]
  simp [h]

end Loop

lemma lbsrLoop_long (bitmap n i : ℕ) (sizes : Bytes) :
    lbsrLoop .long bitmap n i sizes =
      if (markedFrom bitmap i n).length ≤ sizes.length ∧ 255 ∉ sizes.take (markedFrom bitmap i n).length then
        some (reports (markedFrom bitmap i n) (sizes.map UInt8.toNat)) else none := by
  induction n generalizing i sizes with
  | zero => simp [lbsrLoop, markedFrom, reports]
  | succ n ih =>
    rw [markedFrom_succ]
    cases hbit : bitmap.testBit i with
    | false => simpa [lbsrLoop_unmarked hbit] using ih (i + 1) sizes
    | true =>
      cases sizes with
      | nil => simp [lbsrLoop_nil hbit]
      | cons b reader =>
        rw [lbsrLoop_cons hbit, ih]
        by_cases hb : b = 255
        · simp [hb]
        · simp only [if_neg hb, if_true, length_cons, Nat.add_le_add_iff_right, take_succ_cons,
            mem_cons, not_or, Ne.symm hb, not_false_eq_true, true_and]
          split <;> simp [reports]

lemma length_lbsrLoop_longTrunc {bitmap n i : ℕ} {sizes : Bytes} {l : List LcgBsrReport}
    (h : lbsrLoop .longTrunc bitmap n i sizes = some l) : l.length = n := by
  induction n generalizing i sizes l with
  | zero => cases h; rfl
  | succ n ih =>
    unfold lbsrLoop at h
    split at h
    · split at h
      · split at h
        · cases h
        · obtain ⟨t, ht, rfl⟩ := map_eq_some_iff.mp h
          rw [length_cons, ih ht]
      · obtain ⟨t, ht, rfl⟩ := map_eq_some_iff.mp h
        rw [length_cons, ih ht]
    · obtain ⟨t, ht, rfl⟩ := map_eq_some_iff.mp h
      rw [length_cons, ih ht]

lemma lbsrLoop_longTrunc_all {bitmap n i m : ℕ} (sizes : Bytes) (h : ∀ j < i + n, bitmap.testBit j = true)
    (hm : n ≤ m) :
    lbsrLoop .longTrunc bitmap n i sizes = if 255 ∈ sizes.take n then none
      else some (reports (range' i n) (sizes.map UInt8.toNat ++ replicate m 64)) := by
  induction n generalizing i m sizes with
  | zero => simp [lbsrLoop, reports]
  | succ n ih =>
    have hi : bitmap.testBit i = true := h i (by omega)
    obtain ⟨m, rfl⟩ : ∃ k, m = k + 1 := ⟨m - 1, by omega⟩
    have h' : ∀ j < i + 1 + n, bitmap.testBit j = true := fun j hj => h j (by omega)
    cases sizes with
    | nil =>
      simp only [lbsrLoop_nil hi, ih [] h' (show n ≤ m by omega)]
      simp [reports, range'_succ, replicate_succ]
    | cons b reader =>
      rw [lbsrLoop_cons hi, ih reader h' (show n ≤ m + 1 by omega)]
      by_cases hb : b = 255
      · simp [hb]
      · simp only [if_neg hb, take_succ_cons, mem_cons, Ne.symm hb, false_or]
        split <;> simp [reports, range'_succ]

/-- The bitmap 0 is read as eight empty buffers, and a truncated BSR as a report for all LCGs. -/
def LbsrPlain (format : LongBsrFormat) (bitmap : ℕ) (sizes : Bytes) : Prop :=
  match format with
  | .long => bitmap ≠ 0 ∧ ((markedFrom bitmap 0 maxNofLcgs).length ≤ sizes.length →
      255 ∉ sizes.take (markedFrom bitmap 0 maxNofLcgs).length)
  | .longTrunc => bitmap = 255 ∧ 255 ∉ sizes.take maxNofLcgs

lemma markedFrom_zero : markedFrom 0 0 maxNofLcgs = [] := by decide

lemma eq_255_of_marked {bitmap : ℕ} (hlt : bitmap < 256) (h : (markedFrom bitmap 0 maxNofLcgs).length = 8) :
    bitmap = 255 := by
  revert h
  revert bitmap
  decide +kernel

lemma decodeLbsr_iff (format : LongBsrFormat) (b : UInt8) (sizes : Bytes) :
    decodeLbsr format (b :: sizes) = some (lbsrMeaning format b.toNat sizes) ↔
      LbsrPlain format b.toNat sizes := by
  rw [decodeLbsr]
  cases format with
  | long =>
    by_cases h0 : b.toNat = 0
    · rw [if_pos h0, h0]
      refine iff_of_false ?_ fun h => h.1 rfl
      rw [lbsrMeaning]
      simp only [markedFrom_zero]
      simp [reports, emptyLbsrReport, maxNofLcgs]
    · rw [if_neg h0, lbsrLoop_long, some.injEq, lbsrMeaning, LbsrPlain]
      simp only [ne_eq, h0, not_false_eq_true, true_and]
      by_cases hlen : (markedFrom b.toNat 0 maxNofLcgs).length ≤ sizes.length
      · simp only [hlen, true_and, if_true, forall_const]
        split
        · exact iff_of_true rfl ‹_›
        · exact iff_of_false (by simp) ‹_›
      · simp [hlen]
  | longTrunc =>
    have hmeaning : ∀ l, lbsrMeaning .longTrunc b.toNat sizes = some l →
        l.length = (markedFrom b.toNat 0 maxNofLcgs).length := by
      intro l hl
      obtain rfl := some.inj hl
      have hle : (markedFrom b.toNat 0 maxNofLcgs).length ≤ 8 := length_filter_le _ _
      simp only [reports, length_zipWith, length_append, length_map, length_replicate, maxNofLcgs]
        at hle ⊢
      omega
    by_cases hall : b.toNat = 255
    · have hbits : ∀ j < 0 + maxNofLcgs, (255 : ℕ).testBit j = true := by decide
      rw [if_neg (by omega), hall, lbsrLoop_longTrunc_all sizes hbits le_rfl, some.injEq, lbsrMeaning, LbsrPlain]
      have hm : markedFrom 255 0 maxNofLcgs = range' 0 maxNofLcgs := by decide
      simp only [hm, true_and]
      split
      · exact iff_of_false (by simp) (not_not_intro ‹_›)
      · exact iff_of_true rfl ‹_›
    · refine iff_of_false (fun heq => ?_) fun h => hall h.1
      -- eight reports are returned, and fewer are meant
      have hlen : (markedFrom b.toNat 0 maxNofLcgs).length = 8 := by
        split at heq
        · exact (hmeaning _ (some.inj heq).symm).symm
        · have hl := some.inj heq
          exact (hmeaning _ rfl).symm.trans (length_lbsrLoop_longTrunc (hl.trans rfl))
      exact hall (eq_255_of_marked b.toNat_lt hlen)

/-- **UL-SCH decoding.** Unpacked subPDUs cover the PDU, conformant ones are decoded into themselves iff their LCIDs are
known, and long BSRs as they are meant iff they are plain. -/
theorem ulSch_decoding (payload : Bytes) (xs : List UlSchSubPdu) (format : LongBsrFormat) (b : UInt8)
    (sizes : Bytes) :
    ((∃ e, unpackUlSch payload = ([], some e)) ∨
      ∃ ys rest, unpackUlSch payload = (ys, none) ∧ Covers ys payload rest ∧
        (rest = [] ∨ ys.length = maxSubPdusPerPdu)) ∧
    (ConformantList xs → xs.length ≤ maxSubPdusPerPdu →
      (unpackUlSch (xs.flatMap UlSchSubPdu.encode) = (xs, none) ↔ ∀ x ∈ xs, x.Known)) ∧
    (unpackUlSch payload = (xs, none) →
      ((∀ x ∈ xs, decodeBsr x ≠ none) ↔ ∀ x ∈ xs, x.IsLongBsr → x.payload ≠ []) ∧
      ((∀ x ∈ xs, x.IsLongBsr → x.payload ≠ []) → containsPositiveBsr xs ≠ none)) ∧
    (decodeLbsr format (b :: sizes) = some (lbsrMeaning format b.toNat sizes) ↔
      LbsrPlain format b.toNat sizes) := by
  refine ⟨unpackUlSch_covers payload, fun h hn => unpack_encodings_iff h hn, fun h => ?_, decodeLbsr_iff format b sizes⟩
  have hloop : unpackLoop maxSubPdusPerPdu payload = .ok xs := by
    unfold unpackUlSch at h
    split at h
    next ys hys => rw [hys, (Prod.mk.inj h).1]
    · cases (Prod.mk.inj h).2
  have hiff : (∀ x ∈ xs, decodeBsr x ≠ none) ↔ ∀ x ∈ xs, x.IsLongBsr → x.payload ≠ [] := by
    refine forall₂_congr fun x hx => ?_
    obtain ⟨bytes, rest, hun⟩ := mem_unpackLoop hloop x hx
    exact decodeBsr_ne_none_iff hun
  exact ⟨hiff, fun hne => containsPositiveBsr_ne_none (hiff.mpr hne)⟩

/-- A short BSR and an SDU of two bytes. -/
def shortBsrAndSdu : List UlSchSubPdu := [⟨false, shortBsr, 1, [0x21]⟩, ⟨false, 4, 2, [7, 8]⟩]

/-- A short BSR, and an SDU behind it. -/
theorem ulSch_decoding_shortBsr :
    unpackUlSch (shortBsrAndSdu.flatMap UlSchSubPdu.encode) = (shortBsrAndSdu, none) := by
  have hconf : ConformantList shortBsrAndSdu := ⟨.fixed _ _ rfl, by decide, .short _ _ rfl (by decide)⟩
  have hknown : ∀ x ∈ shortBsrAndSdu, x.Known := by
    unfold UlSchSubPdu.Known
    decide
  exact ((ulSch_decoding [] shortBsrAndSdu .long 0 []).2.1 hconf (by decide)).mpr hknown

/-- A long BSR with L = 0 is accepted, and its bitmap is then read from an empty payload. -/
theorem ulSch_empty_longBsr :
    unpackUlSch [0x3e, 0] = ([⟨false, longBsr, 2, []⟩], none) ∧ decodeBsr ⟨false, longBsr, 2, []⟩ = none ∧
      containsPositiveBsr [⟨false, longBsr, 2, []⟩] = none := by
  decide

end SrsRan.Mac
