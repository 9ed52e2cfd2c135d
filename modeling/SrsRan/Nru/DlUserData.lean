import SrsRan.Support.BitCoding

/-!
# NR-U DL user data

`nru_packing` for DL user data PDUs: `pack` writes the fields with a bit encoder and pads the PDU to `4n - 2` octets,
`unpack` reads them back.  What `pack` writes for data that fit their fields is what `unpack` returns (`unpack_pack`).
-/

namespace SrsRan.Nru

open Support List Option Nat
open BitEncoder (flag padding reads_padded)

structure PdcpSnDiscardBlock where
  pdcpSnStart : ℕ
  blockSize : ℕ
deriving DecidableEq

def maxNofPdcpSnDiscardBlocks : ℕ := 16

/-- `nru_dl_user_data` of TS 38.425. -/
structure DlUserData where
  reportPolling : Bool := false
  requestOutOfSeqReport : Bool := false
  reportDelivered : Bool := false
  userDataExistenceFlag : Bool := false
  assistInfoReportPollingFlag : Bool := false
  retransmissionFlag : Bool := false
  nruSn : ℕ := 0
  dlDiscardPdcpSn : Option ℕ := none
  discardBlocks : Option (List PdcpSnDiscardBlock) := none
  dlReportPdcpSn : ℕ := 0
deriving DecidableEq

namespace DlUserData

/-! ### Packing -/

/-- The discard blocks that are written, which are none if the list is empty. -/
def blocks (d : DlUserData) : List PdcpSnDiscardBlock := d.discardBlocks.getD []

def header (d : DlUserData) : List (ℕ × ℕ) :=
  [(0, 4), (0, 1), (flag !d.blocks.isEmpty, 1), (flag d.dlDiscardPdcpSn.isSome, 1), (flag d.reportPolling, 1),
    (0, 3), (flag d.requestOutOfSeqReport, 1), (flag d.reportDelivered, 1), (flag d.userDataExistenceFlag, 1),
    (flag d.assistInfoReportPollingFlag, 1), (flag d.retransmissionFlag, 1), (d.nruSn, 24)]

def discardSnField (d : DlUserData) : List (ℕ × ℕ) :=
  match d.dlDiscardPdcpSn with
  | some sn => [(sn, 24)]
  | none => []

def blockFields (bs : List PdcpSnDiscardBlock) : List (ℕ × ℕ) := bs.flatMap fun b => [(b.pdcpSnStart, 24), (b.blockSize, 8)]

def discardBlocksFields (d : DlUserData) : List (ℕ × ℕ) :=
  if d.blocks.isEmpty then [] else (d.blocks.length, 8) :: blockFields d.blocks

def reportField (d : DlUserData) : List (ℕ × ℕ) := if d.reportDelivered then [(d.dlReportPdcpSn, 24)] else []

def fields (d : DlUserData) : List (ℕ × ℕ) := d.header ++ (d.discardSnField ++ (d.discardBlocksFields ++ d.reportField))

def pack (d : DlUserData) : Bytes :=
  let outBuf := ((⟨[], 0⟩ : BitEncoder).packAll d.fields).bytes
  outBuf ++ padding outBuf.length

/-! ### Unpacking -/

def read (d : BitDecoder) (nBits : ℕ) : Option (ℕ × BitDecoder) := (d.unpack nBits).toOption

def readUnchecked (d : BitDecoder) (nBits : ℕ) : ℕ × BitDecoder := (read d nBits).getD (0, d)

def readBlocks : (count : ℕ) → BitDecoder → Option (List PdcpSnDiscardBlock × BitDecoder)
  | 0, d => some ([], d)
  | left + 1, d => do
    let (pdcpSnStart, d) ← read d 24
    let (blockSize, d) ← read d 8
    let (bs, d) ← readBlocks left d
    return (⟨pdcpSnStart, blockSize⟩ :: bs, d)

def readDiscardSn (d : BitDecoder) (dlFlush : ℕ) : Option (Option ℕ × BitDecoder) :=
  if dlFlush ≠ 0 then do
    let (sn, d) ← read d 24
    return (some sn, d)
  else some (none, d)

def readDiscardBlocks (d : BitDecoder) (dlDiscardBlocks : ℕ) : Option (Option (List PdcpSnDiscardBlock) × BitDecoder) :=
  if dlDiscardBlocks ≠ 0 then do
    let (nofDiscardBlocks, d) ← read d 8
    if nofDiscardBlocks > maxNofPdcpSnDiscardBlocks then none
    else
      let (bs, d) ← readBlocks nofDiscardBlocks d
      return (some bs, d)
  else some (none, d)

def readReport (d : BitDecoder) (reportDelivered : ℕ) : Option (ℕ × BitDecoder) :=
  if reportDelivered ≠ 0 then read d 24 else some (0, d)

def unpack (container : Bytes) : Option DlUserData :=
  if container.isEmpty then none
  else if (container.length + 2) % 4 ≠ 0 then none
  else do
    let (pduType, d) ← read ⟨container, 0, 0⟩ 4
    if pduType ≠ 0 then none
    else
      let (spare, d) ← read d 1
      if spare ≠ 0 then none
      else
        let (dlDiscardBlocks, d) ← read d 1
        let (dlFlush, d) ← read d 1
        let (reportPolling, d) ← read d 1
        let (spare, d) ← read d 3
        if spare ≠ 0 then none
        else
          let (requestOutOfSeqReport, d) := readUnchecked d 1
          let (reportDelivered, d) := readUnchecked d 1
          let (userDataExistenceFlag, d) := readUnchecked d 1
          let (assistInfoReportPollingFlag, d) := readUnchecked d 1
          let (retransmissionFlag, d) ← read d 1
          let (nruSn, d) ← read d 24
          let (dlDiscardPdcpSn, d) ← readDiscardSn d dlFlush
          let (discardBlocks, d) ← readDiscardBlocks d dlDiscardBlocks
          let (dlReportPdcpSn, _) ← readReport d reportDelivered
          return {
            reportPolling := reportPolling ≠ 0
            requestOutOfSeqReport := requestOutOfSeqReport ≠ 0
            reportDelivered := reportDelivered ≠ 0
            userDataExistenceFlag := userDataExistenceFlag ≠ 0
            assistInfoReportPollingFlag := assistInfoReportPollingFlag ≠ 0
            retransmissionFlag := retransmissionFlag ≠ 0
            nruSn, dlDiscardPdcpSn, discardBlocks, dlReportPdcpSn }

/-! ### Round trip -/

/-- The data fit; fields that are not written have their default. -/
structure Fits (d : DlUserData) : Prop where
  nruSn : d.nruSn < 2 ^ 24
  dlDiscardPdcpSn : ∀ sn ∈ d.dlDiscardPdcpSn, sn < 2 ^ 24
  nonempty : d.discardBlocks ≠ some []
  count : d.blocks.length ≤ maxNofPdcpSnDiscardBlocks
  blocks : ∀ b ∈ d.blocks, b.pdcpSnStart < 2 ^ 24 ∧ b.blockSize < 2 ^ 8
  dlReportPdcpSn : d.dlReportPdcpSn < 2 ^ 24
  report : d.reportDelivered = false → d.dlReportPdcpSn = 0

variable {d : DlUserData} {buffer : Bytes} {p val nBits : ℕ} {fs : List (ℕ × ℕ)}

lemma read_eq (h : BitDecoder.Reads buffer p ((val, nBits) :: fs)) :
    read (.ofPos buffer p) nBits = some (val % 2 ^ nBits, .ofPos buffer (p + nBits)) := by
  rw [read, h.unpack]
  rfl

lemma read_flag {b : Bool} (h : BitDecoder.Reads buffer p ((flag b, 1) :: fs)) :
    read (.ofPos buffer p) 1 = some (flag b, .ofPos buffer (p + 1)) := by
  rw [read_eq h]
  cases b <;> rfl

lemma readUnchecked_flag {b : Bool} (h : BitDecoder.Reads buffer p ((flag b, 1) :: fs)) :
    readUnchecked (.ofPos buffer p) 1 = (flag b, .ofPos buffer (p + 1)) := by
  rw [readUnchecked, read_flag h]
  rfl

lemma decide_flag (b : Bool) : decide (¬ flag b = 0) = b := by cases b <;> rfl

lemma readBlocks_eq {bs : List PdcpSnDiscardBlock} (hfit : ∀ b ∈ bs, b.pdcpSnStart < 2 ^ 24 ∧ b.blockSize < 2 ^ 8)
    (h : BitDecoder.Reads buffer p (blockFields bs ++ fs)) :
    readBlocks bs.length (.ofPos buffer p) = some (bs, .ofPos buffer (p + 32 * bs.length)) ∧
      BitDecoder.Reads buffer (p + 32 * bs.length) fs := by
  induction bs generalizing p with
  | nil => exact ⟨rfl, h⟩
  | cons b bs ih =>
    obtain ⟨hstart, hsize⟩ := hfit b mem_cons_self
    have h' : BitDecoder.Reads buffer p ((b.pdcpSnStart, 24) :: (b.blockSize, 8) :: (blockFields bs ++ fs)) := h
    obtain ⟨hr, hreads⟩ := ih (fun b' hb' => hfit b' (mem_cons_of_mem b hb')) h'.2.2
    have hpos : p + 24 + 8 + 32 * bs.length = p + 32 * (bs.length + 1) := by omega
    rw [hpos] at hr hreads
    refine ⟨?_, hreads⟩
    rw [length_cons, readBlocks, read_eq h', bind_eq_bind, bind_some]
    simp only
    rw [read_eq h'.2, bind_eq_bind, bind_some]
    simp only
    rw [hr, mod_eq_of_lt hstart, mod_eq_of_lt hsize]
    rfl

lemma readDiscardSn_eq (hfit : d.Fits) (h : BitDecoder.Reads buffer p (d.discardSnField ++ fs)) :
    ∃ p', readDiscardSn (.ofPos buffer p) (flag d.dlDiscardPdcpSn.isSome) = some (d.dlDiscardPdcpSn, .ofPos buffer p') ∧
      BitDecoder.Reads buffer p' fs := by
  cases hsn : d.dlDiscardPdcpSn with
  | none =>
    rw [discardSnField, hsn] at h
    exact ⟨p, rfl, h⟩
  | some sn =>
    have hlt := hfit.dlDiscardPdcpSn sn (by rw [hsn]; rfl)
    rw [discardSnField, hsn] at h
    have h' : BitDecoder.Reads buffer p ((sn, 24) :: fs) := h
    refine ⟨p + 24, ?_, h'.2⟩
    rw [isSome_some, readDiscardSn, if_pos (by decide), read_eq h', mod_eq_of_lt hlt]
    rfl

lemma readDiscardBlocks_eq (hfit : d.Fits) (h : BitDecoder.Reads buffer p (d.discardBlocksFields ++ fs)) :
    ∃ p', readDiscardBlocks (.ofPos buffer p) (flag !d.blocks.isEmpty) = some (d.discardBlocks, .ofPos buffer p') ∧
      BitDecoder.Reads buffer p' fs := by
  cases hb : d.discardBlocks with
  | none =>
    have hnil : d.blocks = [] := by rw [blocks, hb]; rfl
    rw [discardBlocksFields, hnil] at h
    rw [hnil]
    exact ⟨p, rfl, h⟩
  | some bs =>
    have hbs : d.blocks = bs := by rw [blocks, hb]; rfl
    have hne : bs.isEmpty = false := by
      rw [isEmpty_eq_false_iff]
      rintro rfl
      exact hfit.nonempty hb
    have hcount := hfit.count
    have hblocks := hfit.blocks
    rw [hbs] at hcount hblocks
    rw [discardBlocksFields, hbs, hne] at h
    have h' : BitDecoder.Reads buffer p ((bs.length, 8) :: (blockFields bs ++ fs)) := h
    obtain ⟨hr, hreads⟩ := readBlocks_eq hblocks h'.2
    refine ⟨_, ?_, hreads⟩
    have hlen : bs.length % 2 ^ 8 = bs.length := mod_eq_of_lt (by unfold maxNofPdcpSnDiscardBlocks at hcount; omega)
    rw [hbs, hne, readDiscardBlocks, if_pos (by decide), read_eq h', hlen, bind_eq_bind, bind_some]
    simp only
    rw [if_neg (by omega), hr]
    rfl

lemma readReport_eq (hfit : d.Fits) (h : BitDecoder.Reads buffer p (d.reportField ++ fs)) :
    ∃ p', readReport (.ofPos buffer p) (flag d.reportDelivered) = some (d.dlReportPdcpSn, .ofPos buffer p') := by
  cases hd : d.reportDelivered with
  | false => exact ⟨p, by rw [hfit.report hd]; rfl⟩
  | true =>
    rw [reportField, hd] at h
    have h' : BitDecoder.Reads buffer p ((d.dlReportPdcpSn, 24) :: fs) := h
    refine ⟨p + 24, ?_⟩
    rw [readReport, if_pos (by decide), read_eq h', mod_eq_of_lt hfit.dlReportPdcpSn]

/-- **Round trip.** -/
theorem unpack_pack (hfit : d.Fits) : unpack d.pack = some d := by
  obtain ⟨h0, hlen⟩ : BitDecoder.Reads d.pack 0 d.fields ∧ (d.pack.length + 2) % 4 = 0 := reads_padded _ rfl
  have h1 := h0.2
  have h2 := h1.2
  have h3 := h2.2
  have h4 := h3.2
  have h5 := h4.2
  have h6 := h5.2
  have h7 := h6.2
  have h8 := h7.2
  have h9 := h8.2
  have h10 := h9.2
  have h11 := h10.2
  obtain ⟨p1, hr1, h12⟩ := readDiscardSn_eq hfit h11.2
  obtain ⟨p2, hr2, h13⟩ := readDiscardBlocks_eq hfit h12
  rw [← append_nil d.reportField] at h13
  obtain ⟨p3, hr3⟩ := readReport_eq hfit h13
  have hne : ¬ d.pack.isEmpty = true := by
    intro he
    have hle := h0.1.1
    rw [isEmpty_iff.mp he] at hle
    simp at hle
  unfold unpack
  rw [if_neg hne, if_neg (not_not.mpr hlen)]
  have hstart : (⟨d.pack, 0, 0⟩ : BitDecoder) = .ofPos d.pack 0 := rfl
  rw [hstart, read_eq h0]
  simp only [zero_mod, bind_eq_bind, bind_some, ne_eq, not_true_eq_false, if_false]
  rw [read_eq h1]
  simp only [zero_mod, bind_some, not_true_eq_false, if_false]
  rw [read_flag h2, bind_some]
  simp only
  rw [read_flag h3, bind_some]
  simp only
  rw [read_flag h4, bind_some]
  simp only
  rw [read_eq h5]
  simp only [zero_mod, bind_some, not_true_eq_false, if_false]
  rw [readUnchecked_flag h6]
  simp only
  rw [readUnchecked_flag h7]
  simp only
  rw [readUnchecked_flag h8]
  simp only
  rw [readUnchecked_flag h9]
  simp only
  rw [read_flag h10, bind_some]
  simp only
  rw [read_eq h11, bind_some]
  simp only
  rw [hr1, bind_some]
  simp only
  rw [hr2, bind_some]
  simp only
  rw [hr3, bind_some, mod_eq_of_lt hfit.nruSn]
  simp only [decide_flag]
  rfl

end DlUserData

end SrsRan.Nru
