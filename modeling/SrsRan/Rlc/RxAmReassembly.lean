import SrsRan.Rlc.RxAm

/-!
# Reassembly of one SDU in the RLC AM receiver

The entry of an SDU in the window after any segments of the SDU, in any order, with overlaps and repetitions.  What can still
fail is the last step: `reassemble_sdu` chains the stored segments, and a chain has room for a fixed number of slices.
-/

namespace SrsRan.Rlc.RxAm

open Support

def receiveSegment (info : RxAmSduInfo) (new : SduSegment) : RxAmSduInfo :=
  let old := RxSduData.segmentSet info.sduData
  entryOfSegments ((storeSegment old new).getD old)

/-- The entry after the segments `l`, in the order of their reception. -/
def receiveSegments (l : List SduSegment) : RxAmSduInfo := l.foldl receiveSegment {}

/-- The entry that the code stores is that of `receiveSegment`. -/
lemma handleSegmentDataSdu_eq (s : RxAm) (header : AmPduHeader) (payload : Bytes) :
    (s.handleSegmentDataSdu header payload).map (fun r => r.1.rxWindow) = (do
      let w ← ensureSn s.rxWindow header.sn
      let info ← SduWindow.access w header.sn
      .ok (w.modify header.sn fun _ => receiveSegment info ⟨header.si, header.so, payload⟩)) := by
  unfold handleSegmentDataSdu
  cases ensureSn s.rxWindow header.sn with
  | error e => rfl
  | ok w =>
    simp only [bind, Except.bind]
    cases SduWindow.access w header.sn <;> rfl

section Received

variable {sdu : Bytes} {received : List SduSegment}

/-- What is stored for an SDU of which the segments `l` were received. -/
structure Holds (sdu : Bytes) (l : List SduSegment) (info : RxAmSduInfo) : Prop where
  segments : SegmentsOf sdu (RxSduData.segmentSet info.sduData)
  bytes : ∀ i, Covers (RxSduData.segmentSet info.sduData) i ↔ Covers l i
  fullyReceived : info.fullyReceived = (segmentInventory (RxSduData.segmentSet info.sduData)).fullyReceived
  hasGap : info.hasGap = (segmentInventory (RxSduData.segmentSet info.sduData)).hasGap

lemma Holds.receiveSegment {info : RxAmSduInfo} {new : SduSegment} (hmax : sdu.length ≤ 65535)
    (h : Holds sdu received info) (hnew : SegmentOf sdu new) :
    Holds sdu (received ++ [new]) (receiveSegment info new) := by
  obtain ⟨h1, h2⟩ := h.segments.storeSegment (by omega) hnew
  refine ⟨h1, fun i => ?_, rfl, rfl⟩
  rw [covers_append, covers_cons, covers_nil, or_false, ← h.bytes i]
  exact h2 i

lemma holds_receiveSegments (hmax : sdu.length ≤ 65535) (h : ∀ s ∈ received, SegmentOf sdu s) :
    Holds sdu received (receiveSegments received) := by
  induction received using List.reverseRecOn with
  | nil => exact ⟨⟨nofun, .nil⟩, fun i => Iff.rfl, rfl, rfl⟩
  | append_singleton l new ih =>
    rw [receiveSegments, List.foldl_append]
    exact (ih fun s hs => h s (by simp [hs])).receiveSegment hmax (h new (by simp))

lemma Holds.reassembleSdu {info : RxAmSduInfo} (mem : Option ℕ) (hpos : 1 ≤ sdu.length)
    (h : Holds sdu received info) (hfull : info.fullyReceived = true) :
    reassembleSdu mem info =
      if ∃ n ∈ mem, (RxSduData.segmentSet info.sduData).length ≤ n then some sdu else none := by
  rw [h.fullyReceived] at hfull
  have hall := (h.segments.inventoryLoop (fun _ _ => Nat.zero_le _) hpos).1.mp hfull
  have hflat := h.segments.flatten (fun _ _ => Nat.zero_le _) (Nat.zero_le _) hall
  obtain ⟨full, gap, data⟩ := info
  cases data with
  | slice payload => cases hfull
  | segments l =>
    have hne : ∀ s ∈ l, s.payload ≠ [] := fun s hs => (h.segments.pieces s hs).ne_nil
    change (l.map SduSegment.payload).flatten = sdu at hflat
    change reassembleSegments mem l = if ∃ n ∈ mem, l.length ≤ n then some sdu else none
    rw [reassembleSegments_eq hne, hflat]

/-- **Reassembly.** The stored segments are disjoint pieces with exactly the received bytes, and `reassemble_sdu`
returns the SDU iff a chain has room for them. -/
theorem receiveSegments_iff (hpos : 1 ≤ sdu.length) (hmax : sdu.length ≤ 65535)
    (h : ∀ s ∈ received, SegmentOf sdu s) :
    SegmentsOf sdu (RxSduData.segmentSet (receiveSegments received).sduData) ∧
    (∀ i, Covers (RxSduData.segmentSet (receiveSegments received).sduData) i ↔ Covers received i) ∧
    ((receiveSegments received).fullyReceived = true ↔ ∀ i < sdu.length, Covers received i) ∧
    ((receiveSegments received).hasGap = true ↔ ∃ i j, i < j ∧ Covers received j ∧ ¬ Covers received i) ∧
    ((receiveSegments received).fullyReceived = true → ∀ mem,
      (reassembleSdu mem (receiveSegments received) = some sdu ↔
        ∃ n ∈ mem, (RxSduData.segmentSet (receiveSegments received).sduData).length ≤ n)) := by
  have hh := holds_receiveSegments hmax h
  obtain ⟨hfull, hgap⟩ := hh.segments.inventoryLoop (n := 0) (fun _ _ => Nat.zero_le _) hpos
  refine ⟨hh.segments, hh.bytes, ?_, ?_, ?_⟩
  · rw [hh.fullyReceived, segmentInventory]
    simpa [hh.bytes] using hfull
  · rw [hh.hasGap, segmentInventory]
    simpa [hh.bytes] using hgap
  · intro hf mem
    rw [hh.reassembleSdu mem hpos hf]
    simp

end Received

instance (sdu : Bytes) (s : SduSegment) : Decidable (SegmentOf sdu s) :=
  decidable_of_iff (s.payload ≠ [] ∧ s.payload = slice sdu s.so s.payload.length ∧
      s.so + s.payload.length ≤ sdu.length ∧ (s.si = .lastSegment ↔ s.so + s.payload.length = sdu.length))
    ⟨fun h => ⟨h.1, h.2.1, h.2.2.1, h.2.2.2⟩, fun h => ⟨h.1, h.2, h.3, h.4⟩⟩

/-- The middle, the end and the beginning of four bytes, overlapping each other. -/
theorem receiveSegments_overlap :
    reassembleSdu (some 51) (receiveSegments [⟨.middleSegment, 1, [2, 3]⟩, ⟨.lastSegment, 2, [3, 4]⟩,
      ⟨.firstSegment, 0, [1, 2]⟩]) = some [1, 2, 3, 4] := by
  have hpos : 1 ≤ [1, 2, 3, (4 : UInt8)].length := by decide
  refine ((receiveSegments_iff hpos (by decide) ?_).2.2.2.2 ?_ (some 51)).mpr ⟨51, rfl, ?_⟩
  · decide
  · decide
  · decide

def singleBytes (n : ℕ) : List SduSegment :=
  (List.range n).map fun i =>
    ⟨if i + 1 = n then .lastSegment else if i = 0 then .firstSegment else .middleSegment, i, [7]⟩

/-- A chain has room for 51 slices: an SDU of 52 bytes in segments of one byte cannot be reassembled. -/
theorem reassembly_fails_singleBytes :
    (∀ s ∈ singleBytes 52, SegmentOf (List.replicate 52 7) s) ∧
    (receiveSegments (singleBytes 52)).fullyReceived = true ∧
    reassembleSdu (some 51) (receiveSegments (singleBytes 52)) = none := by
  refine ⟨?_, ?_, ?_⟩
  · decide +kernel
  · decide +kernel
  · decide +kernel

end SrsRan.Rlc.RxAm
