import SrsRan.Rlc.AmPdu

/-!
# Reassembly of SDU segments

The receivers of RLC AM and RLC UM buffer the segments of an SDU in a set that is ordered by the segment offset.
`store_segment` inserts a segment without overlaps: it trims the new segment or a stored one, removes stored segments that
the new one covers, or discards the new one.
-/

namespace SrsRan.Rlc

open Support List

/-- `rlc_rx_am_sdu_segment` and `rlc_rx_um_sdu_segment` -/
structure SduSegment where
  si : SiField
  so : ℕ
  payload : Bytes
deriving DecidableEq

def SduSegment.lastByte (s : SduSegment) : ℕ := s.so + s.payload.length - 1

/-- Drops the bytes of a segment before the offset `start`; offsets have 16 bits. -/
def SduSegment.cutFrom (s : SduSegment) (start : ℕ) : SduSegment :=
  { s with so := start % 2 ^ 16, payload := s.payload.drop (start - s.so) }

/-- `std::set::insert`: an element with the same offset is kept. -/
def insertSegment (x : SduSegment) : List SduSegment → List SduSegment
  | [] => [x]
  | y :: l =>
    if x.so < y.so then x :: y :: l
    else if x.so = y.so then y :: l
    else y :: insertSegment x l

def storeLoop (seen : List SduSegment) (new : SduSegment) : List SduSegment → Option (List SduSegment)
  | [] => some (insertSegment new seen)
  | cur :: rest =>
    -- starts after the end of the current segment
    if new.so > cur.lastByte then storeLoop (seen ++ [cur]) new rest
    -- starts within the current segment
    else if new.so ≥ cur.so then
      if new.lastByte ≤ cur.lastByte then none
      else storeLoop (seen ++ [cur]) (new.cutFrom (cur.lastByte + 1)) rest
    -- ends before the current segment
    else if new.lastByte < cur.so then some (insertSegment new (seen ++ cur :: rest))
    -- ends within the current segment
    else if new.lastByte < cur.lastByte then
      some (insertSegment new (insertSegment (cur.cutFrom (new.lastByte + 1)) (seen ++ rest)))
    -- covers the current segment
    else storeLoop seen new rest

def storeSegment (segments : List SduSegment) (new : SduSegment) : Option (List SduSegment) := storeLoop [] new segments

/-- What `update_segment_inventory` finds out. -/
structure Inventory where
  fullyReceived : Bool := false
  hasGap : Bool := false
deriving DecidableEq

def inventoryLoop : ℕ → List SduSegment → Inventory
  | _, [] => {}
  | nextByte, segm :: rest =>
    if segm.so ≠ nextByte then { hasGap := true }
    else if segm.si = .lastSegment then { fullyReceived := true }
    else inventoryLoop (nextByte + segm.payload.length) rest

def segmentInventory (segments : List SduSegment) : Inventory := inventoryLoop 0 segments

def reassembleSegments (mem : Option ℕ) (segments : List SduSegment) : Option Bytes :=
  (ByteBufferChain.create mem).bind fun c => (c.appendAll (segments.map SduSegment.payload)).map ByteBufferChain.bytes

/-! ### The bytes that segments carry -/

/-- The segment has the byte. -/
def SduSegment.Has (s : SduSegment) (i : ℕ) : Prop := s.so ≤ i ∧ i < s.so + s.payload.length

/-- One of the segments has the byte. -/
def Covers (l : List SduSegment) (i : ℕ) : Prop := ∃ s ∈ l, s.Has i

@[simp] lemma covers_nil (i : ℕ) : Covers [] i ↔ False := by simp [Covers]

@[simp] lemma covers_cons (s : SduSegment) (l : List SduSegment) (i : ℕ) :
    Covers (s :: l) i ↔ s.Has i ∨ Covers l i := by simp [Covers]

@[simp] lemma covers_append (l1 l2 : List SduSegment) (i : ℕ) : Covers (l1 ++ l2) i ↔ Covers l1 i ∨ Covers l2 i := by
  simp only [Covers, mem_append, or_and_right, exists_or]

/-- The segment is a piece of `sdu`, and marked as the last one at its end. -/
structure SegmentOf (sdu : Bytes) (s : SduSegment) : Prop where
  ne_nil : s.payload ≠ []
  payload : s.payload = slice sdu s.so s.payload.length
  le_length : s.so + s.payload.length ≤ sdu.length
  last : s.si = .lastSegment ↔ s.so + s.payload.length = sdu.length

/-- The segments are pieces of `sdu` in increasing order without overlaps. -/
structure SegmentsOf (sdu : Bytes) (l : List SduSegment) : Prop where
  pieces : ∀ s ∈ l, SegmentOf sdu s
  sorted : l.Pairwise fun a b => a.so + a.payload.length ≤ b.so

section Store

variable {sdu : Bytes} {s : SduSegment}

lemma SegmentOf.length_pos (h : SegmentOf sdu s) : 0 < s.payload.length := length_pos_iff.mpr h.ne_nil

lemma SegmentOf.lastByte_succ (h : SegmentOf sdu s) : s.lastByte + 1 = s.so + s.payload.length := by
  have := h.length_pos
  unfold SduSegment.lastByte
  omega

lemma SegmentOf.cutFrom {start : ℕ} (h : SegmentOf sdu s) (hsdu : sdu.length ≤ 2 ^ 16)
    (h1 : s.so ≤ start) (h2 : start < s.so + s.payload.length) :
    SegmentOf sdu (s.cutFrom start) ∧ (s.cutFrom start).so = start ∧
      (s.cutFrom start).so + (s.cutFrom start).payload.length = s.so + s.payload.length := by
  have hle := h.le_length
  have hso : (s.cutFrom start).so = start := Nat.mod_eq_of_lt (by omega)
  have hlen : (s.cutFrom start).payload.length = s.payload.length - (start - s.so) := length_drop
  have hend : (s.cutFrom start).so + (s.cutFrom start).payload.length = s.so + s.payload.length := by
    rw [hso, hlen]
    omega
  refine ⟨⟨?_, ?_, by rw [hend]; exact hle, by rw [hend]; exact h.last⟩, hso, hend⟩
  · rw [← length_pos_iff, hlen]
    omega
  · rw [hso, hlen]
    change s.payload.drop (start - s.so) = _
    conv_lhs => rw [h.payload]
    simp only [slice, drop_take, drop_drop]
    congr 2
    omega

variable {pre post l : List SduSegment} {x new : SduSegment}

lemma SegmentsOf.append_iff : SegmentsOf sdu (pre ++ post) ↔
    SegmentsOf sdu pre ∧ SegmentsOf sdu post ∧ ∀ a ∈ pre, ∀ b ∈ post, a.so + a.payload.length ≤ b.so := by
  constructor
  · rintro ⟨h1, h2⟩
    obtain ⟨h3, h4, h5⟩ := pairwise_append.mp h2
    exact ⟨⟨fun s hs => h1 s (by simp [hs]), h3⟩, ⟨fun s hs => h1 s (by simp [hs]), h4⟩, h5⟩
  · rintro ⟨h1, h2, h3⟩
    refine ⟨?_, pairwise_append.mpr ⟨h1.sorted, h2.sorted, h3⟩⟩
    intro s hs
    rcases mem_append.mp hs with hs | hs
    · exact h1.pieces s hs
    · exact h2.pieces s hs

lemma SegmentsOf.cons_iff : SegmentsOf sdu (x :: l) ↔
    SegmentOf sdu x ∧ SegmentsOf sdu l ∧ ∀ b ∈ l, x.so + x.payload.length ≤ b.so := by
  constructor
  · rintro ⟨h1, h2⟩
    obtain ⟨h3, h4⟩ := pairwise_cons.mp h2
    exact ⟨h1 x (by simp), ⟨fun s hs => h1 s (by simp [hs]), h4⟩, h3⟩
  · rintro ⟨h1, h2, h3⟩
    exact ⟨forall_mem_cons.mpr ⟨h1, h2.pieces⟩, pairwise_cons.mpr ⟨h3, h2.sorted⟩⟩

lemma insertSegment_append (h1 : ∀ a ∈ pre, a.so < x.so)
    (h2 : ∀ b ∈ post, x.so < b.so) : insertSegment x (pre ++ post) = pre ++ x :: post := by
  induction pre with
  | nil =>
    cases post with
    | nil => rfl
    | cons b post => rw [nil_append, insertSegment, if_pos (h2 b (by simp))]; rfl
  | cons a pre ih =>
    have ha := h1 a (by simp)
    rw [cons_append, insertSegment, if_neg (by omega), if_neg (by omega), ih fun b hb => h1 b (by simp [hb])]
    rfl

lemma SegmentsOf.insertSegment (h : SegmentsOf sdu (pre ++ post)) (hx : SegmentOf sdu x)
    (h1 : ∀ a ∈ pre, a.so + a.payload.length ≤ x.so) (h2 : ∀ b ∈ post, x.so + x.payload.length ≤ b.so) :
    Rlc.insertSegment x (pre ++ post) = pre ++ x :: post ∧ SegmentsOf sdu (pre ++ x :: post) := by
  obtain ⟨hpre, hpost, hcross⟩ := SegmentsOf.append_iff.mp h
  constructor
  · refine insertSegment_append ?_ ?_
    · intro a ha
      have := h1 a ha
      have := (hpre.pieces a ha).length_pos
      omega
    · intro b hb
      have := h2 b hb
      have := hx.length_pos
      omega
  · refine SegmentsOf.append_iff.mpr ⟨hpre, SegmentsOf.cons_iff.mpr ⟨hx, hpost, h2⟩, ?_⟩
    intro a ha b hb
    rcases mem_cons.mp hb with rfl | hb
    · exact h1 a ha
    · exact hcross a ha b hb

/-- What is expected of storing a segment: new bytes are added, and a segment is refused if it has none. -/
def Stores (sdu : Bytes) (l : List SduSegment) (new : SduSegment) : Option (List SduSegment) → Prop
  | some l' => SegmentsOf sdu l' ∧ ∀ i, Covers l' i ↔ Covers l i ∨ new.Has i
  | none => ∀ i, new.Has i → Covers l i

lemma Stores.congr {l1 : List SduSegment} {new1 : SduSegment} {r : Option (List SduSegment)}
    (h : Stores sdu l1 new1 r) (hsome : ∀ i, Covers l1 i ∨ new1.Has i ↔ Covers l i ∨ new.Has i)
    (hnone : (∀ i, new1.Has i → Covers l1 i) → ∀ i, new.Has i → Covers l i) : Stores sdu l new r := by
  cases r with
  | none => exact hnone h
  | some l' => exact ⟨h.1, fun i => (h.2 i).trans (hsome i)⟩

/-- The loop invariant: the segments before the iterator end before the new segment. -/
lemma SegmentsOf.storeLoop {seen rest : List SduSegment}
    (hsdu : sdu.length ≤ 2 ^ 16) (h : SegmentsOf sdu (seen ++ rest)) (hnew : SegmentOf sdu new)
    (hseen : ∀ a ∈ seen, a.so + a.payload.length ≤ new.so) :
    Stores sdu (seen ++ rest) new (Rlc.storeLoop seen new rest) := by
  induction rest generalizing seen new with
  | nil =>
    obtain ⟨h1, h2⟩ := h.insertSegment hnew hseen (by simp)
    rw [append_nil] at h1
    rw [Rlc.storeLoop, h1]
    exact ⟨h2, fun i => by simp⟩
  | cons cur rest ih =>
    obtain ⟨hs, hcr, hcross⟩ := SegmentsOf.append_iff.mp h
    obtain ⟨hcur, hrest, hcur'⟩ := SegmentsOf.cons_iff.mp hcr
    have hcl := hcur.lastByte_succ
    have hnl := hnew.lastByte_succ
    have hmove : SegmentsOf sdu ((seen ++ [cur]) ++ rest) := by simpa using h
    have hdrop : SegmentsOf sdu (seen ++ rest) :=
      SegmentsOf.append_iff.mpr ⟨hs, hrest, fun a ha b hb => hcross a ha b (by simp [hb])⟩
    have hnext : ∀ {x : SduSegment}, (∀ a ∈ seen, a.so + a.payload.length ≤ x.so) →
        cur.so + cur.payload.length ≤ x.so → ∀ a ∈ seen ++ [cur], a.so + a.payload.length ≤ x.so := by
      intro x h1 h2 a ha
      rcases mem_append.mp ha with ha | ha
      · exact h1 a ha
      · rw [mem_singleton.mp ha]
        exact h2
    simp only [Rlc.storeLoop]
    split
    · -- after the current segment
      exact (ih hmove hnew (hnext hseen (by omega))).congr (fun i => by simp [or_assoc])
        fun hn i hi => by simpa [or_assoc] using hn i hi
    split
    · split
      · -- within the current segment
        intro i hi
        have hc : cur.Has i := by
          unfold SduSegment.Has at *
          omega
        simp [hc]
      · -- the front of the new segment is cut off
        obtain ⟨hcut, hso, hend⟩ := hnew.cutFrom hsdu (by omega : new.so ≤ cur.lastByte + 1) (by omega)
        have hbytes : ∀ i, new.Has i → (new.cutFrom (cur.lastByte + 1)).Has i ∨ cur.Has i := by
          intro i
          unfold SduSegment.Has
          omega
        have hbytes' : ∀ i, (new.cutFrom (cur.lastByte + 1)).Has i → new.Has i := by
          intro i
          unfold SduSegment.Has
          omega
        refine (ih hmove hcut (hnext (fun a ha => by have := hseen a ha; omega) (by omega))).congr
          (fun i => ?_) fun hn i hi => ?_
        · have h1 := hbytes i
          have h2 := hbytes' i
          simp only [covers_append, covers_cons, covers_nil]
          grind
        · have h1 := hbytes i hi
          have h2 := hn i
          simp only [covers_append, covers_cons, covers_nil] at h2 ⊢
          grind
    split
    · -- before the current segment
      obtain ⟨h1, h2⟩ := h.insertSegment hnew hseen (by
        intro b hb
        rcases mem_cons.mp hb with rfl | hb
        · omega
        · have := hcur' b hb
          omega)
      rw [h1]
      exact ⟨h2, fun i => by simp only [covers_append, covers_cons]; grind⟩
    split
    · -- the front of the current segment is cut off
      obtain ⟨hcut, hso, hend⟩ := hcur.cutFrom hsdu (by omega : cur.so ≤ new.lastByte + 1) (by omega)
      obtain ⟨h1, h2⟩ := hdrop.insertSegment hcut
        (fun a ha => by have := hseen a ha; omega)
        (fun b hb => by have := hcur' b hb; omega)
      obtain ⟨h3, h4⟩ := h2.insertSegment hnew hseen (by
        intro b hb
        rcases mem_cons.mp hb with rfl | hb
        · omega
        · have := hcur' b hb
          omega)
      rw [h1, h3]
      refine ⟨h4, fun i => ?_⟩
      have hbytes : (cur.cutFrom (new.lastByte + 1)).Has i ∨ new.Has i ↔ cur.Has i ∨ new.Has i := by
        unfold SduSegment.Has
        omega
      simp only [covers_append, covers_cons]
      grind
    · -- the current segment is removed
      have hbytes : ∀ i, cur.Has i → new.Has i := by
        intro i
        unfold SduSegment.Has
        omega
      refine (ih hdrop hnew hseen).congr (fun i => ?_) fun hn i hi => ?_
      · have := hbytes i
        simp only [covers_append, covers_cons]
        grind
      · have := hn i hi
        simp only [covers_append, covers_cons] at this ⊢
        grind

/-- **`store_segment`** keeps the segments disjoint pieces of the SDU and adds the bytes of the new
segment. -/
theorem SegmentsOf.storeSegment (hsdu : sdu.length ≤ 2 ^ 16) (h : SegmentsOf sdu l) (hnew : SegmentOf sdu new) :
    SegmentsOf sdu ((Rlc.storeSegment l new).getD l) ∧
      ∀ i, Covers ((Rlc.storeSegment l new).getD l) i ↔ Covers l i ∨ new.Has i := by
  have hst : Stores sdu ([] ++ l) new (Rlc.storeSegment l new) := SegmentsOf.storeLoop hsdu h hnew (by simp)
  cases hr : Rlc.storeSegment l new with
  | none =>
    rw [hr] at hst
    exact ⟨h, fun i => ⟨.inl, fun hc => hc.elim id (hst i)⟩⟩
  | some l' =>
    rw [hr] at hst
    exact hst

/-! ### The inventory -/

theorem SegmentsOf.inventoryLoop {n : ℕ} (h : SegmentsOf sdu l) (hn : ∀ s ∈ l, n ≤ s.so) (hlt : n < sdu.length) :
    ((inventoryLoop n l).fullyReceived = true ↔ ∀ i, n ≤ i → i < sdu.length → Covers l i) ∧
    ((inventoryLoop n l).hasGap = true ↔ ∃ i j, n ≤ i ∧ i < j ∧ Covers l j ∧ ¬ Covers l i) := by
  induction l generalizing n with
  | nil =>
    refine ⟨⟨nofun, fun hall => absurd (hall n le_rfl hlt) (by simp)⟩, ?_⟩
    exact ⟨nofun, fun ⟨i, j, _, _, hj, _⟩ => absurd hj (by simp)⟩
  | cons s rest ih =>
    obtain ⟨hs, hrest, hafter⟩ := SegmentsOf.cons_iff.mp h
    have hpos := hs.length_pos
    have hle := hs.le_length
    have hso := hn s (by simp)
    -- the bytes of the other segments are behind this one
    have hbehind : ∀ i, Covers rest i → s.so + s.payload.length ≤ i := by
      rintro i ⟨b, hb, hbi, -⟩
      exact (hafter b hb).trans hbi
    simp only [Rlc.inventoryLoop]
    split
    next hne =>
      have hmiss : ¬ Covers (s :: rest) n := by
        rw [covers_cons]
        rintro (hsn | hrn)
        · exact hne (le_antisymm hsn.1 hso)
        · have := hbehind n hrn
          omega
      refine ⟨⟨nofun, fun hall => absurd (hall n le_rfl hlt) hmiss⟩, fun _ => ?_, fun _ => rfl⟩
      exact ⟨n, s.so, le_rfl, by omega, (covers_cons ..).mpr (.inl ⟨le_rfl, by omega⟩), hmiss⟩
    rename_i hnot
    obtain rfl : s.so = n := not_not.mp hnot
    have hhas : ∀ i, s.so ≤ i → i < s.so + s.payload.length → Covers (s :: rest) i :=
      fun i h1 h2 => (covers_cons ..).mpr (.inl ⟨h1, h2⟩)
    split
    next hlast =>
      have hend := hs.last.mp hlast
      refine ⟨⟨fun _ i h1 h2 => hhas i h1 (by omega), fun _ => rfl⟩, nofun, ?_⟩
      rintro ⟨i, j, h1, h2, hj, hi⟩
      refine absurd (hhas i h1 ?_) hi
      obtain ⟨b, hb, hbj⟩ := hj
      have := (h.pieces b hb).le_length
      have := hbj.2
      omega
    next hlast =>
      have hlt' : s.so + s.payload.length < sdu.length := by
        rcases Nat.lt_or_eq_of_le hle with hlt' | heq
        · exact hlt'
        · exact absurd (hs.last.mpr heq) hlast
      obtain ⟨ih1, ih2⟩ := ih hrest (fun b hb => hafter b hb) hlt'
      rw [ih1, ih2]
      have hsplit : ∀ i, s.so + s.payload.length ≤ i → (Covers (s :: rest) i ↔ Covers rest i) := by
        intro i hi
        rw [covers_cons]
        refine or_iff_right fun hsi => ?_
        have := hsi.2
        omega
      constructor
      · constructor
        · intro hall i h1 h2
          by_cases hi : i < s.so + s.payload.length
          · exact hhas i h1 hi
          · exact (hsplit i (by omega)).mpr (hall i (by omega) h2)
        · intro hall i h1 h2
          exact (hsplit i h1).mp (hall i (by omega) h2)
      · constructor
        · rintro ⟨i, j, h1, h2, hj, hi⟩
          exact ⟨i, j, by omega, h2, (hsplit j (by omega)).mpr hj, mt (hsplit i h1).mp hi⟩
        · rintro ⟨i, j, h1, h2, hj, hi⟩
          have hi' : s.so + s.payload.length ≤ i := by
            by_contra hlt
            exact hi (hhas i h1 (by omega))
          exact ⟨i, j, hi', h2, (hsplit j (by omega)).mp hj, mt (hsplit i hi').mpr hi⟩

lemma SegmentsOf.flatten {n : ℕ} (h : SegmentsOf sdu l) (hn : ∀ s ∈ l, n ≤ s.so)
    (hle : n ≤ sdu.length) (hall : ∀ i, n ≤ i → i < sdu.length → Covers l i) :
    (l.map SduSegment.payload).flatten = sdu.drop n := by
  induction l generalizing n with
  | nil =>
    have : sdu.length ≤ n := by
      by_contra hlt
      exact absurd (hall n le_rfl (by omega)) (by simp)
    simp [drop_eq_nil_of_le this]
  | cons s rest ih =>
    obtain ⟨hs, hrest, hafter⟩ := SegmentsOf.cons_iff.mp h
    have hpos := hs.length_pos
    have hend := hs.le_length
    have hso := hn s (by simp)
    have hbehind : ∀ i, Covers rest i → s.so + s.payload.length ≤ i := by
      rintro i ⟨b, hb, hbi, -⟩
      exact (hafter b hb).trans hbi
    obtain rfl : s.so = n := by
      rcases (covers_cons ..).mp (hall n le_rfl (by omega)) with hsn | hrn
      · exact le_antisymm hsn.1 hso
      · have := hbehind n hrn
        omega
    rw [map_cons, flatten_cons, ih hrest (fun b hb => hafter b hb) hend]
    · have hdrop := take_append_drop s.payload.length (sdu.drop s.so)
      rw [drop_drop] at hdrop
      conv_rhs => rw [← hdrop]
      congr 1
      exact hs.payload
    · intro i h1 h2
      refine ((covers_cons ..).mp (hall i (by omega) h2)).resolve_left fun hsi => ?_
      have := hsi.2
      omega

end Store

lemma reassembleSegments_eq {mem : Option ℕ} {l : List SduSegment} (h : ∀ s ∈ l, s.payload ≠ []) :
    reassembleSegments mem l =
      if ∃ n ∈ mem, l.length ≤ n then some (l.map SduSegment.payload).flatten else none := by
  cases mem with
  | none => simp [reassembleSegments, ByteBufferChain.create]
  | some n =>
    have happ := ByteBufferChain.map_bytes_appendAll ⟨n, [], Nat.zero_le n⟩ (l.map SduSegment.payload)
      (by simpa using h)
    simpa [reassembleSegments, ByteBufferChain.create, ByteBufferChain.bytes] using happ

end SrsRan.Rlc
