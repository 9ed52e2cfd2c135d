import Mathlib.Data.List.TakeDrop
import Mathlib.Tactic.IntervalCases
import SrsRan.Mac.DlSchPdu

/-!
# DL-SCH MAC PDUs are well formed

`decodeDlSch` is the receiver's view of a DL-SCH MAC PDU (TS 38.321 Sec. 6.1.2).  It gets back the subPDUs that can be
represented (`decode_encodings_iff`).
-/

namespace SrsRan.Mac

open Support List Option

/-- A subPDU; `f` is the F bit of the subheader of an SDU. -/
inductive SubPdu where
  | sdu (f : Bool) (lcid : ℕ) (payload : Bytes)
  | ueConResId (id : UeConResId)
  | taCmd (ce : TaCmdCePayload)
deriving DecidableEq

/-- The bytes of a subPDU: its subheader, and the payload or the control element -/
def SubPdu.encode : SubPdu → Bytes
  | .sdu f lcid payload => DlSchPdu.subheader f lcid (if f then 3 else 2) payload.length ++ payload
  | .ueConResId id => DlSchPdu.subheader false lcidUeConResId 1 6 ++ id.bytes
  | .taCmd ce => DlSchPdu.subheader false lcidTaCmd 1 1 ++ [DlSchPdu.tagCmdByte ce]

/-! ### Writes -/

section Write

variable {buf buf' b : Bytes} {off : ℕ}

lemma writeAt_ok (h : off + b.length ≤ buf.length) :
    writeAt buf off b = some (buf.take off ++ b ++ buf.drop (off + b.length)) := if_pos h

lemma writeAt_nil (h : off ≤ buf.length) : writeAt buf off [] = some buf := by
  rw [writeAt_ok (by simpa using h), append_nil, length_nil, Nat.add_zero, take_append_drop]

section

variable (h : writeAt buf off b = some buf')
include h

lemma length_writeAt : buf'.length = buf.length := by
  unfold writeAt at h
  split at h
  next hle =>
    rw [← some.inj h]
    simp only [length_append, length_take, length_drop]
    omega
  · cases h

lemma take_writeAt : buf'.take (off + b.length) = buf.take off ++ b := by
  unfold writeAt at h
  split at h
  next hle =>
    rw [← some.inj h]
    refine take_left' ?_
    simp only [length_append, length_take]
    omega
  · cases h

lemma drop_writeAt : buf'.drop (off + b.length) = buf.drop (off + b.length) := by
  unfold writeAt at h
  split at h
  next hle =>
    rw [← some.inj h]
    refine drop_left' ?_
    simp only [length_append, length_take]
    omega
  · cases h

lemma take_of_writeAt : buf'.take off = buf.take off := by
  have h1 := congrArg (List.take off) (take_writeAt h)
  unfold writeAt at h
  split at h
  next hle =>
    rw [take_take, take_append_of_le_length (by simp; omega), take_take] at h1
    simpa [Nat.min_eq_left] using h1
  · cases h

lemma slice_writeAt : slice buf' off b.length = b := by
  have h1 := take_writeAt h
  have h2 := take_of_writeAt h
  rw [take_add, h2] at h1
  exact append_cancel_left h1

end

end Write

namespace DlSchPdu

/-- The first `byteOffset` bytes are the encodings of the subPDUs `xs`. -/
structure Filled (p : DlSchPdu) (n : ℕ) (xs : List SubPdu) : Prop where
  length : p.pdu.length = n
  le : p.byteOffset ≤ n
  content : p.pdu.take p.byteOffset = xs.flatMap SubPdu.encode

variable {p : DlSchPdu} {n : ℕ} {xs : List SubPdu}

lemma put_spec {b : Bytes} (h : p.byteOffset + b.length ≤ p.pdu.length) :
    ∃ buf, p.put b = some { pdu := buf, byteOffset := p.byteOffset + b.length } ∧
      buf.length = p.pdu.length ∧ buf.take (p.byteOffset + b.length) = p.pdu.take p.byteOffset ++ b ∧
      buf.drop (p.byteOffset + b.length) = p.pdu.drop (p.byteOffset + b.length) := by
  have hw := writeAt_ok h
  refine ⟨_, ?_, length_writeAt hw, take_writeAt hw, drop_writeAt hw⟩
  rw [put, hw, map_some]

lemma length_subheader (f : Bool) (lcid payloadLen headerLen : ℕ) (h : 1 ≤ headerLen)
    (h' : headerLen ≤ 3) : (subheader f lcid headerLen payloadLen).length = headerLen := by
  interval_cases headerLen <;> rfl

lemma put_ce {b : Bytes} (lcid len : ℕ) (hle : p.byteOffset + 1 + b.length ≤ p.pdu.length) :
    ∃ buf, ((p.encodeSubheader false lcid 1 len).bind fun p => p.put b) =
        some { pdu := buf, byteOffset := p.byteOffset + (1 + b.length) } ∧
      buf.length = p.pdu.length ∧
      buf.take (p.byteOffset + (1 + b.length)) = p.pdu.take p.byteOffset ++ (subheader false lcid 1 len ++ b) := by
  have hlen : (subheader false lcid 1 len).length = 1 := rfl
  obtain ⟨buf, h1, h2, h3, -⟩ := put_spec (p := p) (b := subheader false lcid 1 len) (by omega)
  rw [hlen] at h1 h3
  obtain ⟨buf', h4, h5, h6, -⟩ := put_spec (p := { pdu := buf, byteOffset := p.byteOffset + 1 }) (b := b)
    (by simp only [h2]; exact hle)
  simp only at h4 h5 h6
  rw [Nat.add_assoc] at h4 h6
  refine ⟨buf', by rw [encodeSubheader, h1, bind_some, h4], h5.trans h2, ?_⟩
  rw [h6, h3, append_assoc]

lemma Filled.put_ce (h : Filled p n xs) {lcid len : ℕ} {b : Bytes} {x : SubPdu}
    (hx : x.encode = subheader false lcid 1 len ++ b) (hle : p.byteOffset + (1 + b.length) ≤ n) :
    ∃ p', ((p.encodeSubheader false lcid 1 len).bind fun p => p.put b) = some p' ∧ Filled p' n (xs ++ [x]) ∧
      p'.byteOffset = p.byteOffset + (1 + b.length) := by
  obtain ⟨buf, h1, h2, h3⟩ := DlSchPdu.put_ce (p := p) (b := b) lcid len (by rw [h.length]; omega)
  refine ⟨_, h1, ⟨h2.trans h.length, hle, ?_⟩, rfl⟩
  rw [flatMap_append, flatMap_singleton, ← h.content, hx]
  exact h3

lemma Filled.addUeConResId (h : Filled p n xs) (id : UeConResId) (hle : p.byteOffset + 7 ≤ n) :
    ∃ p', p.addUeConResId id = some p' ∧ Filled p' n (xs ++ [.ueConResId id]) ∧
      p'.byteOffset = p.byteOffset + 7 := by
  have := h.put_ce (x := .ueConResId id) (b := id.bytes) rfl (by rw [id.length_eq]; omega)
  rwa [id.length_eq] at this

lemma Filled.addTagCmd (h : Filled p n xs) (ce : TaCmdCePayload) (hle : p.byteOffset + 2 ≤ n) :
    ∃ p', p.addTagCmd ce = some p' ∧ Filled p' n (xs ++ [.taCmd ce]) ∧ p'.byteOffset = p.byteOffset + 2 :=
  h.put_ce (x := .taCmd ce) (b := [tagCmdByte ce]) rfl hle

/-! ### SDUs -/

lemma required_payloadSize (space : ℕ) (h : 3 ≤ space) :
    0 < getMacSduPayloadSize space ∧
      getMacSduSubheaderSize (getMacSduPayloadSize space) + getMacSduPayloadSize space ≤ space := by
  unfold getMacSduPayloadSize getMacSduSubheaderSize macSduSubheaderLengthThres minMacSduSubheaderSize
    maxMacSduSubheaderSize
  split <;> split <;> (try split) <;> omega

lemma subheaderSize_mono {a b : ℕ} (h : a ≤ b) : getMacSduSubheaderSize a ≤ getMacSduSubheaderSize b := by
  unfold getMacSduSubheaderSize macSduSubheaderLengthThres minMacSduSubheaderSize maxMacSduSubheaderSize
  split <;> split <;> (try split) <;> (try split) <;> omega

lemma subheaderSize_cases {a : ℕ} (h : 0 < a) : getMacSduSubheaderSize a = if 256 ≤ a then 3 else 2 := by
  unfold getMacSduSubheaderSize macSduSubheaderLengthThres minMacSduSubheaderSize maxMacSduSubheaderSize
  rw [if_neg (by omega)]

/-- The opportunity of a bearer is the payload that fits into the rest of its grant. -/
lemma getSduEncoder_eq {lcid rem : ℕ} (hrem : minMacSubhdrAndSduSpaceRequired lcid ≤ rem) (hle : rem ≤ p.nofEmptyBytes) :
    ∃ enc, p.getSduEncoder lcid (getMacSduPayloadSize rem) = some enc ∧ enc.maxSduSize = getMacSduPayloadSize rem := by
  have hrem3 : 3 ≤ rem := by
    unfold minMacSubhdrAndSduSpaceRequired minMacSduSubheaderSize at hrem
    omega
  obtain ⟨hpos, hfits⟩ := required_payloadSize rem hrem3
  have hsame : getMacSduPayloadSize (getMacSduRequiredBytes (getMacSduPayloadSize rem)) = getMacSduPayloadSize rem := by
    unfold getMacSduRequiredBytes
    rw [subheaderSize_cases hpos]
    unfold getMacSduPayloadSize macSduSubheaderLengthThres minMacSduSubheaderSize maxMacSduSubheaderSize at *
    split_ifs at * <;> omega
  have hmin : min p.nofEmptyBytes (getMacSduRequiredBytes (getMacSduPayloadSize rem)) =
      getMacSduRequiredBytes (getMacSduPayloadSize rem) := by
    unfold getMacSduRequiredBytes
    omega
  rw [getSduEncoder, if_neg hpos.ne', if_neg (by omega)]
  exact ⟨_, rfl, by simp only [hmin, hsame]⟩

lemma getSduEncoder_spec {lcid rem : ℕ} {enc : MacSduEncoder} (hrem : 3 ≤ rem)
    (h : p.getSduEncoder lcid (getMacSduPayloadSize rem) = some enc) :
    enc.lcid = lcid ∧ 0 < enc.maxSduSize ∧ enc.subhrLen = getMacSduSubheaderSize enc.maxSduSize ∧
      enc.subhrLen + enc.maxSduSize ≤ rem ∧ enc.subhrLen + enc.maxSduSize ≤ p.nofEmptyBytes := by
  unfold getSduEncoder at h
  split at h
  · cases h
  split at h
  · cases h
  rename_i h1 h2
  have h2 : 3 ≤ p.nofEmptyBytes := by
    unfold minMacSubhdrAndSduSpaceRequired minMacSduSubheaderSize at h2
    omega
  obtain ⟨h3, h4⟩ := required_payloadSize rem hrem
  have h5 : 3 ≤ getMacSduRequiredBytes (getMacSduPayloadSize rem) := by
    unfold getMacSduRequiredBytes
    rw [subheaderSize_cases h3]
    split <;> omega
  have h6 : getMacSduRequiredBytes (getMacSduPayloadSize rem) ≤ rem := by
    unfold getMacSduRequiredBytes
    omega
  obtain ⟨h7, h8⟩ := required_payloadSize
    (min p.nofEmptyBytes (getMacSduRequiredBytes (getMacSduPayloadSize rem))) (by omega)
  obtain rfl := some.inj h
  refine ⟨rfl, h7, rfl, ?_, ?_⟩
  · exact h8.trans ((min_le_right _ _).trans h6)
  · exact h8.trans (min_le_left _ _)

lemma shiftSdu_spec {b : Bytes} (hs : slice p.pdu (p.byteOffset + 3) b.length = b)
    (hle : p.byteOffset + 3 + b.length ≤ p.pdu.length) :
    ∃ buf, p.shiftSdu b.length = some { p with pdu := buf } ∧ buf.length = p.pdu.length ∧
      buf.take p.byteOffset = p.pdu.take p.byteOffset ∧ slice buf (p.byteOffset + 2) b.length = b := by
  have hw : writeAt p.pdu (p.byteOffset + 2) b = some _ := writeAt_ok (by omega)
  refine ⟨_, ?_, length_writeAt hw, ?_, slice_writeAt hw⟩
  · have hs' : slice p.pdu (p.byteOffset + minMacSduSubheaderSize + 1) b.length = b := hs
    rw [shiftSdu, hs']
    change (writeAt p.pdu (p.byteOffset + 2) b).map _ = _
    rw [hw, map_some]
  · have h1 := congrArg (List.take p.byteOffset) (take_of_writeAt hw)
    rwa [take_take, take_take, Nat.min_eq_left (by omega)] at h1

lemma Filled.encodeSubheader {f : Bool} {k : ℕ} {b buf : Bytes} (h : Filled p n xs) (lcid : ℕ)
    (hbuf : buf.length = n) (htake : buf.take p.byteOffset = p.pdu.take p.byteOffset)
    (hk : k = if f then 3 else 2) (hs : slice buf (p.byteOffset + k) b.length = b)
    (hle : p.byteOffset + k + b.length ≤ n) :
    ∃ p', ({ p with pdu := buf } : DlSchPdu).encodeSubheader f lcid k b.length = some p' ∧
      p'.byteOffset = p.byteOffset + k ∧
      Filled { p' with byteOffset := p'.byteOffset + b.length } n (xs ++ [.sdu f lcid b]) := by
  have hlen : (subheader f lcid k b.length).length = k := by
    refine length_subheader f lcid b.length k ?_ ?_ <;> cases f <;> simp [hk]
  obtain ⟨buf', h1, h2, h3, h4⟩ := put_spec (p := { p with pdu := buf }) (b := subheader f lcid k b.length)
    (by simp only [hlen, hbuf]; omega)
  simp only [hlen] at h1 h2 h3 h4
  refine ⟨_, h1, rfl, h2.trans hbuf, hle, ?_⟩
  -- the header has been written, and the SDU behind it is untouched
  simp only [flatMap_append, flatMap_singleton]
  rw [take_add, h3, h4, htake, h.content]
  change _ ++ _ ++ slice buf (p.byteOffset + k) b.length = _
  rw [hs, append_assoc, hk]
  rfl

def sduOf (lcid : ℕ) (b : Bytes) : SubPdu := .sdu (b.length ≥ macSduSubheaderLengthThres) lcid b

/-- **One SDU.** The bearer writes it into the buffer of the encoder, and the subheader is put in front. -/
theorem Filled.encodeSdu (h : Filled p n xs) {enc : MacSduEncoder} {b : Bytes}
    (hsub : enc.subhrLen = getMacSduSubheaderSize enc.maxSduSize)
    (hle : p.byteOffset + (enc.subhrLen + enc.maxSduSize) ≤ n) (hb : 0 < b.length)
    (hb' : b.length ≤ enc.maxSduSize) :
    ∃ p1 p2, p.writeSdu enc b = some p1 ∧
      p1.encodeSdu enc b.length = some (getMacSduSubheaderSize b.length + b.length, p2) ∧
      Filled p2 n (xs ++ [sduOf enc.lcid b]) ∧
      p2.byteOffset = p.byteOffset + (getMacSduSubheaderSize b.length + b.length) := by
  have hlen := h.length
  have hw : writeAt p.pdu (p.byteOffset + enc.subhrLen) b = some _ := writeAt_ok (by omega)
  set buf := p.pdu.take (p.byteOffset + enc.subhrLen) ++ b ++ p.pdu.drop (p.byteOffset + enc.subhrLen + b.length)
  have hbuf : buf.length = n := (length_writeAt hw).trans hlen
  have htake : buf.take p.byteOffset = p.pdu.take p.byteOffset := by
    have h1 := congrArg (List.take p.byteOffset) (take_of_writeAt hw)
    rwa [take_take, take_take, Nat.min_eq_left (by omega)] at h1
  have hslice := slice_writeAt hw
  have hmono := subheaderSize_mono hb'
  have hcase := subheaderSize_cases hb
  have hcase' := subheaderSize_cases (hb.trans_le hb')
  rw [← hsub] at hcase' hmono
  refine ⟨{ p with pdu := buf }, ?_⟩
  by_cases hsame : getMacSduSubheaderSize b.length = enc.subhrLen
  · -- the predicted size is right
    have hf : (decide (enc.subhrLen > minMacSduSubheaderSize)) = decide (b.length ≥ macSduSubheaderLengthThres) := by
      rw [← hsame, hcase]
      unfold minMacSduSubheaderSize macSduSubheaderLengthThres
      split <;> simp <;> omega
    have hk : enc.subhrLen = if (decide (b.length ≥ macSduSubheaderLengthThres)) = true then 3 else 2 := by
      rw [← hsame, hcase]
      simp [macSduSubheaderLengthThres]
    obtain ⟨p', h1, h2, h3⟩ := h.encodeSubheader enc.lcid hbuf htake hk hslice (by omega)
    refine ⟨{ p' with byteOffset := p'.byteOffset + b.length }, by rw [writeSdu, hw, map_some], ?_, h3, ?_⟩
    · unfold DlSchPdu.encodeSdu
      rw [if_neg (by omega)]
      simp [hsame, hf, h1]
    · simp only [h2, hsame]
      omega
  · -- a long subheader was predicted and a short one is needed
    have h3 : enc.subhrLen = 3 := by
      split at hcase <;> split at hcase' <;> omega
    have h2 : getMacSduSubheaderSize b.length = 2 := by
      split at hcase <;> omega
    rw [h3] at hslice
    obtain ⟨buf2, e1, e2, e3, e4⟩ := shiftSdu_spec (p := { p with pdu := buf }) hslice
      (by simp only [hbuf]; omega)
    simp only at e1 e2 e3 e4
    have hf : decide (b.length ≥ macSduSubheaderLengthThres) = false := by
      unfold macSduSubheaderLengthThres
      split at hcase <;> simp <;> omega
    obtain ⟨p', h4, h5, h6⟩ := h.encodeSubheader (f := false) (k := 2) enc.lcid (e2.trans hbuf)
      (e3.trans htake) rfl e4 (by omega)
    refine ⟨{ p' with byteOffset := p'.byteOffset + b.length }, by rw [writeSdu, hw, map_some], ?_, ?_, ?_⟩
    · unfold DlSchPdu.encodeSdu
      rw [if_neg (by omega)]
      have hne : 2 ≠ enc.subhrLen := by omega
      simp [h2, if_pos hne, e1, minMacSduSubheaderSize, gt_iff_lt, h4]
    · rw [sduOf, hf]
      exact h6
    · simp only [h5, h2]
      omega

end DlSchPdu

/-! ### What a PDU is meant to carry -/

open DlSchPdu

section Carries

variable {σ : Type}

/-- What a bearer writes into a grant of which `rem` bytes are left: it is asked for the payload that fits, until it has
nothing or the rest is too small for another SDU.  The last argument is the state of the bearers after that. -/
inductive Answers (bs : Bearers σ) (lcid : ℕ) : ℕ → σ → List SubPdu → σ → Prop
  | done (rem : ℕ) (s : σ) (hrem : rem < minMacSubhdrAndSduSpaceRequired lcid) : Answers bs lcid rem s [] s
  | silent (rem : ℕ) (s : σ) (hrem : minMacSubhdrAndSduSpaceRequired lcid ≤ rem)
      (h : (bs.onNewTxSdu s lcid (getMacSduPayloadSize rem)).1 = []) :
      Answers bs lcid rem s [] (bs.onNewTxSdu s lcid (getMacSduPayloadSize rem)).2
  | sdu (rem : ℕ) (s s' : σ) (xs : List SubPdu) (hrem : minMacSubhdrAndSduSpaceRequired lcid ≤ rem)
      (h : (bs.onNewTxSdu s lcid (getMacSduPayloadSize rem)).1 ≠ [])
      (ih : Answers bs lcid (rem - getMacSduRequiredBytes (bs.onNewTxSdu s lcid (getMacSduPayloadSize rem)).1.length)
        (bs.onNewTxSdu s lcid (getMacSduPayloadSize rem)).2 xs s') :
      Answers bs lcid rem s (sduOf lcid (bs.onNewTxSdu s lcid (getMacSduPayloadSize rem)).1 :: xs) s'

/-- The SDUs that the bearers write and the control elements, in the order of the grants -/
inductive Carries (bs : Bearers σ) : σ → List SchedSubPdu → List SubPdu → σ → Prop
  | nil (s : σ) : Carries bs s [] [] s
  | sdu (s s' s'' : σ) (lcid schedBytes : ℕ) (xs ys : List SubPdu) (rest : List SchedSubPdu)
      (h : Answers bs lcid (getMacSduRequiredBytes schedBytes) s xs s') (ih : Carries bs s' rest ys s'') :
      Carries bs s (.sdu lcid schedBytes :: rest) (xs ++ ys) s''
  | ueConResId (s s' : σ) (ys : List SubPdu) (rest : List SchedSubPdu) (ih : Carries bs s rest ys s') :
      Carries bs s (.ueConResId :: rest) (.ueConResId bs.conResId :: ys) s'
  | taCmd (s s' : σ) (ce : TaCmdCePayload) (ys : List SubPdu) (rest : List SchedSubPdu) (ih : Carries bs s rest ys s') :
      Carries bs s (.taCmd ce :: rest) (.taCmd ce :: ys) s'

variable {p : DlSchPdu} {n : ℕ} {xs : List SubPdu} (bs : Bearers σ)

lemma assembleSdusLoop_spec (lcid fuel rem : ℕ) (s : σ) (h : Filled p n xs) (hfuel : rem ≤ fuel)
    (hle : p.byteOffset + rem ≤ n) :
    ∃ s' p' ys, assembleSdusLoop bs lcid fuel rem s p = some (s', p') ∧ Filled p' n (xs ++ ys) ∧
      Answers bs lcid rem s ys s' ∧ p'.byteOffset ≤ p.byteOffset + rem := by
  have hstop : Filled p n (xs ++ []) := by rwa [append_nil]
  have hthree : 3 ≤ minMacSubhdrAndSduSpaceRequired lcid := by
    unfold minMacSubhdrAndSduSpaceRequired minMacSduSubheaderSize
    omega
  induction fuel generalizing rem s p xs with
  | zero => exact ⟨s, p, [], rfl, hstop, .done rem s (by omega), Nat.le_add_right _ _⟩
  | succ fuel ih =>
    unfold assembleSdusLoop
    split
    next hmin => exact ⟨s, p, [], rfl, hstop, .done rem s hmin, Nat.le_add_right _ _⟩
    next hmin =>
    have hspace : minMacSubhdrAndSduSpaceRequired lcid ≤ rem := not_lt.mp hmin
    have hempty : rem ≤ p.nofEmptyBytes := by
      rw [nofEmptyBytes, h.length]
      omega
    obtain ⟨enc, henc, hmax⟩ := getSduEncoder_eq hspace hempty
    obtain ⟨rfl, -, h2, h3, -⟩ := getSduEncoder_spec (by omega) henc
    rw [henc]
    have hb := bs.length_le s enc.lcid enc.maxSduSize
    rw [hmax] at hb h3
    simp only [bind_eq_bind, hmax]
    set r := bs.onNewTxSdu s enc.lcid (getMacSduPayloadSize rem) with hr
    by_cases h0 : r.1.length = 0
    · -- the bearer has nothing: the write is empty
      rw [length_eq_zero_iff] at h0
      refine ⟨_, p, [], ?_, hstop, .silent rem s hspace h0, Nat.le_add_right _ _⟩
      rw [h0, writeSdu, writeAt_nil (by rw [h.length]; omega), map_some, bind_some, length_nil, if_pos rfl]
    · obtain ⟨p1, p2, e1, e2, e3, e4⟩ := h.encodeSdu h2 (by omega) (Nat.pos_of_ne_zero h0) (hmax ▸ hb)
      have hm := subheaderSize_mono hb
      rw [← hmax, ← h2] at hm
      rw [e1, bind_some, if_neg h0, e2, bind_some, if_neg (by simp only; omega), if_neg (by simp only; omega)]
      have hrequired : getMacSduSubheaderSize r.1.length + r.1.length = getMacSduRequiredBytes r.1.length := Nat.add_comm ..
      simp only [hrequired] at e4 ⊢
      obtain ⟨s', p', ys, i1, i2, i3, i4⟩ := ih (rem - getMacSduRequiredBytes r.1.length) r.2 e3 (by omega) (by omega)
        (by rwa [append_nil])
      rw [append_assoc] at i2
      exact ⟨s', p', _, i1, i2, .sdu rem s s' ys hspace (fun h => h0 (by rw [← hr] at h; rw [h, length_nil])) i3, by omega⟩

lemma assembleSubPdus_spec (sched : List SchedSubPdu) (s : σ) (h : Filled p n xs)
    (hle : p.byteOffset + (sched.map SchedSubPdu.size).sum ≤ n) :
    ∃ s' p' ys, assembleSubPdus bs sched s p = some (s', p') ∧ Filled p' n (xs ++ ys) ∧
      Carries bs s sched ys s' := by
  induction sched generalizing s p xs with
  | nil => exact ⟨s, p, [], rfl, by rwa [append_nil], .nil s⟩
  | cons x rest ih =>
    rw [map_cons, sum_cons] at hle
    cases x with
    | sdu lcid schedBytes =>
      have hsize : SchedSubPdu.size (.sdu lcid schedBytes) = getMacSduRequiredBytes schedBytes := rfl
      have hempty : p.byteOffset + p.nofEmptyBytes = n := by
        have := h.le
        rw [nofEmptyBytes, h.length]
        omega
      have hspace : min (getMacSduRequiredBytes schedBytes) p.nofEmptyBytes = getMacSduRequiredBytes schedBytes := by omega
      obtain ⟨s1, p1, ys, e1, e2, e3, e4⟩ := assembleSdusLoop_spec bs lcid (getMacSduRequiredBytes schedBytes)
        (getMacSduRequiredBytes schedBytes) s h le_rfl (by omega)
      obtain ⟨s', p', zs, i1, i2, i3⟩ := ih s1 e2 (by omega)
      rw [append_assoc] at i2
      refine ⟨s', p', ys ++ zs, ?_, i2, .sdu s s1 s' lcid schedBytes ys zs rest e3 i3⟩
      rw [assembleSubPdus, assembleSubPdu, assembleSdus]
      simp only [hspace]
      rw [e1, bind_some, i1]
    | ueConResId =>
      have hsize : SchedSubPdu.ueConResId.size = 7 := rfl
      obtain ⟨p1, e1, e2, e3⟩ := h.addUeConResId bs.conResId (by omega)
      obtain ⟨s', p', zs, i1, i2, i3⟩ := ih s e2 (by omega)
      rw [append_assoc] at i2
      refine ⟨s', p', .ueConResId bs.conResId :: zs, ?_, i2, .ueConResId s s' zs rest i3⟩
      rw [assembleSubPdus, assembleSubPdu, e1, map_some, bind_some, i1]
    | taCmd ce =>
      have hsize : (SchedSubPdu.taCmd ce).size = 2 := rfl
      obtain ⟨p1, e1, e2, e3⟩ := h.addTagCmd ce (by omega)
      obtain ⟨s', p', zs, i1, i2, i3⟩ := ih s e2 (by omega)
      rw [append_assoc] at i2
      refine ⟨s', p', .taCmd ce :: zs, ?_, i2, .taCmd s s' ce zs rest i3⟩
      rw [assembleSubPdus, assembleSubPdu, e1, map_some, bind_some, i1]

/-- Nothing, or a padding subPDU. -/
def IsPadding (b : Bytes) : Prop := b = [] ∨ ∃ rest, b = byte lcidPadding :: rest

/-- **The assembled PDU** is the encodings of its subPDUs, and padding. -/
theorem assembleNewtxPdu_eq (s : σ) (sched : List SchedSubPdu) (buf : Bytes) (tbSizeBytes : ℕ)
    (hbuf : tbSizeBytes ≤ buf.length) (hle : (sched.map SchedSubPdu.size).sum ≤ tbSizeBytes) :
    ∃ s' p xs padding, assembleNewtxPdu bs s sched buf tbSizeBytes = some (s', p) ∧ p.pdu.length = tbSizeBytes ∧
      Carries bs s sched xs s' ∧ IsPadding padding ∧ p.pdu = xs.flatMap SubPdu.encode ++ padding := by
  have h0 : Filled { pdu := buf.take tbSizeBytes, byteOffset := 0 } tbSizeBytes [] :=
    ⟨by rw [length_take]; omega, Nat.zero_le _, by simp⟩
  obtain ⟨s', p, xs, e1, e2, e3⟩ := assembleSubPdus_spec bs sched s h0 (by simpa using hle)
  rw [nil_append] at e2
  have hoff := e2.le
  unfold assembleNewtxPdu
  rw [e1]
  simp only [bind_eq_bind, bind_some]
  by_cases hlt : p.byteOffset < tbSizeBytes
  · obtain ⟨buf', h1, h2, h3⟩ := put_ce (p := p)
      (b := List.replicate (tbSizeBytes - p.byteOffset - 1) 0) lcidPadding (tbSizeBytes - p.byteOffset - 1) (by rw [length_replicate, e2.length]; omega)
    rw [length_replicate] at h1 h3
    rw [if_pos hlt, addPadding, bind_eq_bind, h1]
    refine ⟨s', _, xs, _, rfl, h2.trans e2.length, e3, .inr ⟨List.replicate (tbSizeBytes - p.byteOffset - 1) 0, rfl⟩, ?_⟩
    rw [e2.content, take_of_length_le (by rw [h2, e2.length]; omega)] at h3
    exact h3
  · rw [if_neg hlt, if_neg (by omega)]
    refine ⟨s', p, xs, [], rfl, e2.length, e3, .inl rfl, ?_⟩
    rw [append_nil, ← e2.content, take_of_length_le (by rw [e2.length]; omega)]

end Carries

/-! ### The receiver -/

def takeExact (n : ℕ) (b : Bytes) : Option (Bytes × Bytes) :=
  if n ≤ b.length then some (b.take n, b.drop n) else none

def decodeSdu (f : Bool) (lcid : ℕ) : Bytes → Option (SubPdu × Bytes)
  | [] => none
  | l :: rest =>
    match f, rest with
    | false, rest => (takeExact l.toNat rest).map fun r => (.sdu false lcid r.1, r.2)
    | true, [] => none
    | true, l' :: rest => (takeExact (l.toNat * 2 ^ 8 + l'.toNat) rest).map fun r => (.sdu true lcid r.1, r.2)

def decodeTaCmd : Bytes → Option (SubPdu × Bytes)
  | [] => none
  | b :: rest => some (.taCmd { tagId := b.toNat / 2 ^ 6, taCmd := b.toNat % 2 ^ 6 }, rest)

def decodeUeConResId (b : Bytes) : Option (SubPdu × Bytes) :=
  if h : 6 ≤ b.length then
    some (.ueConResId ⟨b.take 6, by rw [List.length_take]; omega⟩, b.drop 6)
  else none

def decodeSubPdu : Bytes → Option (SubPdu × Bytes)
  | [] => none
  | b :: rest =>
    let lcid := b.toNat % 2 ^ 6
    if lcid ≤ 32 then decodeSdu (b.toNat / 2 ^ 6 % 2 = 1) lcid rest
    else if lcid = lcidTaCmd then decodeTaCmd rest
    else if lcid = lcidUeConResId then decodeUeConResId rest
    else none

def decodeLoop : ℕ → Bytes → Option (List SubPdu)
  | _, [] => some []
  | 0, _ :: _ => none
  | fuel + 1, b :: rest =>
    -- padding reaches to the end
    if b.toNat % 2 ^ 6 = lcidPadding then some []
    else (decodeSubPdu (b :: rest)).bind fun r => (decodeLoop fuel r.2).map (r.1 :: ·)

/-- The subPDUs of a DL-SCH MAC PDU; every subPDU takes at least one byte. -/
def decodeDlSch (pdu : Bytes) : Option (List SubPdu) := decodeLoop pdu.length pdu

/-- What an assembler can be asked to put into a PDU. -/
def SubPdu.Valid : SubPdu → Prop
  | .sdu f lcid b => lcid ≤ 32 ∧ f = decide (b.length ≥ macSduSubheaderLengthThres)
  | .ueConResId _ => True
  | .taCmd ce => ce.tagId < 4 ∧ ce.taCmd < 64

/-- SDUs whose length fits into the L field, and commands for TAG 0 -/
def SubPdu.Representable : SubPdu → Prop
  | .sdu _ _ b => b.length < 2 ^ 16
  | .ueConResId _ => True
  | .taCmd ce => ce.tagId = 0

lemma SubPdu.length_encode_pos (x : SubPdu) : 0 < x.encode.length := by
  cases x <;> simp [SubPdu.encode, subheader]

lemma subheader_fields (f : Bool) (lcid : ℕ) (hlcid : lcid < 2 ^ 6) :
    (byte (f.toNat * 2 ^ 6 + lcid % 2 ^ 6)).toNat % 2 ^ 6 = lcid ∧
      decide ((byte (f.toNat * 2 ^ 6 + lcid % 2 ^ 6)).toNat / 2 ^ 6 % 2 = 1) = f := by
  rw [Nat.mod_eq_of_lt hlcid]
  exact flagged_fields f hlcid

lemma decodeSubPdu_sdu {f : Bool} {lcid : ℕ} {b : Bytes} (rest : Bytes) (h : SubPdu.Valid (.sdu f lcid b)) :
    decodeSubPdu ((SubPdu.sdu f lcid b).encode ++ rest) =
      some (.sdu f lcid (b.take (b.length % 2 ^ 16)), (b ++ rest).drop (b.length % 2 ^ 16)) := by
  obtain ⟨hlcid, hf⟩ := h
  obtain ⟨e1, e2⟩ := subheader_fields f lcid (by omega)
  have hle : b.length % 2 ^ 16 ≤ b.length := Nat.mod_le _ _
  have htake : takeExact (b.length % 2 ^ 16) (b ++ rest) =
      some (b.take (b.length % 2 ^ 16), (b ++ rest).drop (b.length % 2 ^ 16)) := by
    rw [takeExact, if_pos (by rw [length_append]; omega), take_append_of_le_length hle]
  unfold macSduSubheaderLengthThres at hf
  simp only [SubPdu.encode, subheader, cons_append, decodeSubPdu, e1, e2, if_pos hlcid]
  cases f
  · have hlt : b.length < 256 := by simpa using hf
    have hmod : (byte (b.length % 2 ^ 8)).toNat = b.length % 2 ^ 16 := by
      rw [toNat_byte]
      omega
    simp only [Bool.false_eq_true, if_false, reduceIte, Nat.reduceEqDiff, cons_append,
      nil_append, decodeSdu, hmod, htake, map_some]
  · have hmod : (byte (b.length % 2 ^ 16 / 2 ^ 8)).toNat * 2 ^ 8 + (byte (b.length % 2 ^ 8)).toNat =
        b.length % 2 ^ 16 := by
      rw [toNat_byte, toNat_byte]
      omega
    simp only [reduceIte, cons_append, nil_append, decodeSdu, hmod, htake, map_some]

/-- The TAG identifier is masked instead of shifted. -/
lemma decodeSubPdu_taCmd {ce : TaCmdCePayload} (rest : Bytes) (h : SubPdu.Valid (.taCmd ce)) :
    decodeSubPdu ((SubPdu.taCmd ce).encode ++ rest) = some (.taCmd { ce with tagId := 0 }, rest) := by
  obtain ⟨h1, h2⟩ := h
  have hb : (tagCmdByte ce).toNat = ce.taCmd := by
    rw [tagCmdByte, toNat_byte]
    omega
  have h0 : decodeSubPdu ((SubPdu.taCmd ce).encode ++ rest) = decodeTaCmd (tagCmdByte ce :: rest) := rfl
  rw [h0, decodeTaCmd, hb, Nat.div_eq_of_lt (show ce.taCmd < 2 ^ 6 from h2),
    Nat.mod_eq_of_lt (show ce.taCmd < 2 ^ 6 from h2)]

lemma decodeSubPdu_ueConResId (id : UeConResId) (rest : Bytes) :
    decodeSubPdu ((SubPdu.ueConResId id).encode ++ rest) = some (.ueConResId id, rest) := by
  have h0 : decodeSubPdu ((SubPdu.ueConResId id).encode ++ rest) = decodeUeConResId (id.bytes ++ rest) := rfl
  have hlen := id.length_eq
  rw [h0, decodeUeConResId, dif_pos (by rw [length_append]; omega), drop_left' hlen]
  simp only [take_left' hlen]

lemma decodeSubPdu_encode {x : SubPdu} (rest : Bytes) (h : x.Valid) :
    ∃ x' rest', decodeSubPdu (x.encode ++ rest) = some (x', rest') ∧ (x' = x ↔ x.Representable) ∧
      (x.Representable → rest' = rest) := by
  cases x with
  | sdu f lcid b =>
    refine ⟨_, _, decodeSubPdu_sdu rest h, ?_, fun hr => ?_⟩
    · rw [SubPdu.sdu.injEq, SubPdu.Representable]
      simp only [true_and, take_eq_self_iff]
      omega
    · change b.length < 2 ^ 16 at hr
      rw [Nat.mod_eq_of_lt hr, drop_left]
  | ueConResId id => exact ⟨_, _, decodeSubPdu_ueConResId id rest, iff_of_true rfl trivial, fun _ => rfl⟩
  | taCmd ce =>
    refine ⟨_, _, decodeSubPdu_taCmd rest h, ?_, fun _ => rfl⟩
    rw [SubPdu.taCmd.injEq, SubPdu.Representable, TaCmdCePayload.mk.injEq]
    simp [eq_comm]

lemma SubPdu.Valid.encode_cons {x : SubPdu} (h : x.Valid) :
    ∃ b t, x.encode = b :: t ∧ b.toNat % 2 ^ 6 ≠ lcidPadding := by
  cases x with
  | sdu f lcid b =>
    have hlcid := h.1
    refine ⟨_, _, rfl, ?_⟩
    rw [(subheader_fields f lcid (by omega)).1]
    unfold lcidPadding
    omega
  | ueConResId id => exact ⟨_, _, rfl, by decide⟩
  | taCmd ce => exact ⟨_, _, rfl, by decide⟩

lemma decodeLoop_padding {padding : Bytes} (h : IsPadding padding) {fuel : ℕ} (hfuel : padding.length ≤ fuel) :
    decodeLoop fuel padding = some [] := by
  obtain rfl | ⟨rest, rfl⟩ := h
  · cases fuel <;> rfl
  · cases fuel with
    | zero => simp at hfuel
    | succ fuel => exact if_pos (by decide)

lemma decode_encodings_iff {xs : List SubPdu} (hxs : ∀ x ∈ xs, x.Valid) {padding : Bytes}
    (hp : IsPadding padding) {fuel : ℕ} (hfuel : (xs.flatMap SubPdu.encode ++ padding).length ≤ fuel) :
    decodeLoop fuel (xs.flatMap SubPdu.encode ++ padding) = some xs ↔ ∀ x ∈ xs, x.Representable := by
  induction xs generalizing fuel with
  | nil => exact iff_of_true (decodeLoop_padding hp hfuel) (by simp)
  | cons x xs ih =>
    have hx := hxs x mem_cons_self
    obtain ⟨b, t, ht, hb⟩ := hx.encode_cons
    obtain ⟨x', rest', h1, h2, h3⟩ := decodeSubPdu_encode (xs.flatMap SubPdu.encode ++ padding) hx
    have hpos := x.length_encode_pos
    rw [flatMap_cons, append_assoc] at hfuel ⊢
    rw [length_append] at hfuel
    obtain ⟨fuel, rfl⟩ : ∃ k, fuel = k + 1 := ⟨fuel - 1, by omega⟩
    have hstep : decodeLoop (fuel + 1) (x.encode ++ (xs.flatMap SubPdu.encode ++ padding)) =
        (decodeLoop fuel rest').map (x' :: ·) := by
      rw [ht, cons_append] at h1 ⊢
      rw [decodeLoop, if_neg hb, h1, bind_some]
    rw [hstep, forall_mem_cons]
    constructor
    · intro heq
      obtain ⟨ys, hys, hcons⟩ := map_eq_some_iff.mp heq
      obtain ⟨rfl, rfl⟩ := List.cons.inj hcons
      have hr := h2.mp rfl
      rw [h3 hr] at hys
      exact ⟨hr, (ih (fun y hy => hxs y (mem_cons_of_mem _ hy)) (by omega)).mp hys⟩
    · rintro ⟨hr, hrest⟩
      rw [h3 hr, h2.mpr hr, (ih (fun y hy => hxs y (mem_cons_of_mem _ hy)) (by omega)).mpr hrest, map_some]

/-- The LCID of a bearer, two bits of TAG identifier and a six-bit command -/
def SchedSubPdu.Valid : SchedSubPdu → Prop
  | .sdu lcid _ => lcid ≤ 32
  | .ueConResId => True
  | .taCmd ce => ce.tagId < 4 ∧ ce.taCmd < 64

lemma Answers.valid {σ : Type} {bs : Bearers σ} {lcid rem : ℕ} {s s' : σ} {xs : List SubPdu}
    (h : Answers bs lcid rem s xs s') (hlcid : lcid ≤ 32) : ∀ x ∈ xs, x.Valid := by
  induction h with
  | done => simp
  | silent => simp
  | sdu rem s s' xs _ _ _ ih =>
    rw [forall_mem_cons]
    exact ⟨⟨hlcid, rfl⟩, ih⟩

lemma Carries.valid {σ : Type} {bs : Bearers σ} {s s' : σ} {sched : List SchedSubPdu} {xs : List SubPdu}
    (h : Carries bs s sched xs s') (hsched : ∀ x ∈ sched, x.Valid) : ∀ x ∈ xs, x.Valid := by
  induction h with
  | nil => simp
  | sdu s s' s'' lcid n xs ys rest h _ ih =>
    rw [forall_mem_cons] at hsched
    rw [forall_mem_append]
    exact ⟨h.valid hsched.1, ih hsched.2⟩
  | ueConResId s s' ys rest _ ih =>
    rw [forall_mem_cons] at hsched ⊢
    exact ⟨trivial, ih hsched.2⟩
  | taCmd s s' ce ys rest _ ih =>
    rw [forall_mem_cons] at hsched ⊢
    exact ⟨hsched.1, ih hsched.2⟩

/-- **DL-SCH assembly.**  The assembler ends with a PDU of the size of the transport block and in the state of the bearers
after the answers `xs`; the PDU decodes into the SDUs of these answers and the scheduled control elements iff every SDU is
shorter than `2 ^ 16` bytes and every command is for TAG 0. -/
theorem assembleNewtxPdu_decodes_iff {σ : Type} (bs : Bearers σ) (s : σ) (sched : List SchedSubPdu) (buf : Bytes)
    (tbSizeBytes : ℕ) (hbuf : tbSizeBytes ≤ buf.length) (hle : (sched.map SchedSubPdu.size).sum ≤ tbSizeBytes)
    (hsched : ∀ x ∈ sched, x.Valid) :
    ∃ s' p xs, assembleNewtxPdu bs s sched buf tbSizeBytes = some (s', p) ∧ p.pdu.length = tbSizeBytes ∧
      Carries bs s sched xs s' ∧ (∀ f lcid b, .sdu f lcid b ∈ xs → (f = false ↔ b.length < 256)) ∧
      (decodeDlSch p.pdu = some xs ↔ ∀ x ∈ xs, x.Representable) := by
  obtain ⟨s', p, xs, padding, h1, h2, h3, h4, h5⟩ := assembleNewtxPdu_eq bs s sched buf tbSizeBytes hbuf hle
  have hvalid := h3.valid hsched
  refine ⟨s', p, xs, h1, h2, h3, fun f lcid b hmem => ?_, ?_⟩
  · rw [(hvalid _ hmem).2]
    simp [macSduSubheaderLengthThres]
  · rw [decodeDlSch, h5]
    exact decode_encodings_iff hvalid h4 le_rfl

/-- Bearers with an endless SDU of 300-byte pieces, that note the size of each piece -/
def saturatedBearers : Bearers (List ℕ) where
  onNewTxSdu sizes lcid n := (List.replicate (min n 300) (byte lcid), sizes ++ [min n 300])
  length_le _ _ _ := by simp
  conResId := ⟨List.replicate 6 7, rfl⟩

/-- Two SDUs share a grant, the first with a long and the second with a short subheader. -/
theorem assembleNewtxPdu_decodes_iff_twoSdus :
    ∃ p xs, assembleNewtxPdu saturatedBearers [] [.ueConResId, .taCmd ⟨0, 33⟩, .sdu 4 400]
        (List.replicate 500 0xff) 420 = some ([300, 98], p) ∧ p.pdu.length = 420 ∧
      Carries saturatedBearers [] [.ueConResId, .taCmd ⟨0, 33⟩, .sdu 4 400] xs [300, 98] ∧
      (∀ f lcid b, .sdu f lcid b ∈ xs → (f = false ↔ b.length < 256)) ∧
      (decodeDlSch p.pdu = some xs ↔ ∀ x ∈ xs, x.Representable) := by
  obtain ⟨s', p, xs, h⟩ := assembleNewtxPdu_decodes_iff saturatedBearers [] [.ueConResId, .taCmd ⟨0, 33⟩, .sdu 4 400]
    (List.replicate 500 0xff) 420 (by rw [List.length_replicate]; decide) (by decide) (by simp [SchedSubPdu.Valid])
  obtain rfl : s' = [300, 98] := by
    have hsizes : (assembleNewtxPdu saturatedBearers [] [.ueConResId, .taCmd ⟨0, 33⟩, .sdu 4 400]
        (List.replicate 500 0xff) 420).map Prod.fst = some [300, 98] := by decide +kernel
    rw [h.1] at hsizes
    exact Option.some.inj hsizes
  exact ⟨p, xs, h⟩

/-- The timing advance command 33 for TAG 1 leaves as a command for TAG 0. -/
theorem assembleNewtxPdu_tag_lost :
    (assembleNewtxPdu saturatedBearers [] [.taCmd ⟨1, 33⟩] [0, 0] 2).map (·.2.pdu) = some [0x3d, 33] ∧
      decodeDlSch [0x3d, 33] = some [.taCmd ⟨0, 33⟩] := by
  decide

end SrsRan.Mac
