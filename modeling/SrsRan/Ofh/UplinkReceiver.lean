import SrsRan.Lib.Post
import SrsRan.Ofh.UplaneMessage

/-!
# Uplink resource grids of the Open Fronthaul receiver

A request for an uplink slot registers its grid and its Control-Plane parameters.  A User-Plane message is checked against
the parameters, its samples are written to the grid, and a symbol that is complete is reported.

Both repositories are arrays indexed by the slot modulo their size, and neither keeps the slot.
-/

namespace SrsRan.Ofh

open Support Lib.Run List Bool

/-! ### The index of a slot -/

def sfnMaxValue : ℕ := 2 ^ 8

def nofNamedSlots (numerology : ℕ) : ℕ := nofSlotsPerFrame numerology * sfnMaxValue

def repositorySizeFrom (nofSlots : ℕ) : ℕ → ℕ → ℕ
  | 0, size => size
  | fuel + 1, size => if nofSlots % size ≠ 0 then repositorySizeFrom nofSlots fuel (size + 1) else size

def calculateRepositorySize (numerology minimumRepoSize : ℕ) : ℕ :=
  repositorySizeFrom (nofNamedSlots numerology) (nofNamedSlots numerology - minimumRepoSize) minimumRepoSize

def calculateRepositoryIndex (numerology slot repoSize : ℕ) : ℕ :=
  (slotIndex numerology slot + sfn numerology slot % sfnMaxValue * nofSlotsPerFrame numerology) % repoSize

/-! ### The configuration -/

structure EthParams where
  macSrcAddress : ℕ
  macDstAddress : ℕ
  ethType : ℕ
deriving DecidableEq

structure ReceiverConfig (Sample : Type) where
  decoder : UplaneDecoder Sample
  vlanParams : EthParams
  ulEaxc : List ℕ
  prachEaxc : List ℕ
  ignoreEcpriSeqIdField : Bool
  minimumRepoSize : ℕ
  ulSymbols : ℕ → ℕ × ℕ
  minimumRepoSize_pos : 0 < minimumRepoSize
  minimumRepoSize_le : minimumRepoSize ≤ nofNamedSlots decoder.numerology

namespace ReceiverConfig

variable {Sample : Type} (cfg : ReceiverConfig Sample)

def numerology : ℕ := cfg.decoder.numerology

def repoSize : ℕ := calculateRepositorySize cfg.numerology cfg.minimumRepoSize

def index (slot : ℕ) : ℕ := calculateRepositoryIndex cfg.numerology slot cfg.repoSize

/-- Two slots with the same name in Open Fronthaul messages. -/
def SameName (slot slot' : ℕ) : Prop := slot % nofNamedSlots cfg.numerology = slot' % nofNamedSlots cfg.numerology

instance (slot slot' : ℕ) : Decidable (cfg.SameName slot slot') := inferInstanceAs (Decidable (_ = _))

def symbolRange (slot : ℕ) : ℕ × ℕ := cfg.ulSymbols (slotIndex cfg.numerology slot)

end ReceiverConfig

/-! ### The repositories -/

/-- An uplink resource grid; `id` tells the grids of the pool apart. -/
structure UplinkGrid where
  id : ℕ
  nofPorts : ℕ
  nofSubc : ℕ
deriving DecidableEq

/-- What `add_uplink_context` registers. -/
structure Registration where
  slot : ℕ
  grid : UplinkGrid
deriving DecidableEq

/-- `uplink_context`; `since` is the number of writes before the context was made. -/
structure UplinkContext where
  slot : ℕ
  grid : Option UplinkGrid
  reWritten : ℕ → ℕ → Bool
  since : ℕ

def UplinkContext.empty : UplinkContext := { slot := 0, grid := none, reWritten := fun _ _ => false, since := 0 }

def UplinkContext.haveAllPrbsBeenWritten (c : UplinkContext) (grid : UplinkGrid) : Bool :=
  (List.range grid.nofPorts).all fun port => (List.range grid.nofSubc).all fun re => c.reWritten port re

structure UlCplaneContext where
  filterIndex : FilterIndex
  startSymbol : ℕ
  prbStart : ℕ
  nofPrb : ℕ
  nofSymbols : ℕ
deriving DecidableEq

def UlCplaneContext.zero : UlCplaneContext := ⟨.standardChannelFilter, 0, 0, 0, 0⟩

/-- The copy of samples of a message that names `slot` into a grid. -/
structure GridWrite (Sample : Type) where
  slot : ℕ
  grid : UplinkGrid
  port : ℕ
  symbolId : ℕ
  startRe : ℕ
  samples : List Sample

structure SymbolReport where
  slot : ℕ
  grid : UplinkGrid
  symbolId : ℕ
  since : ℕ

/-- The receiver, with the registrations, the writes and the reports. -/
structure Receiver (Sample : Type) where
  /-- `pending_context_to_add` -/
  pending : List Registration
  buffer : ℕ → ℕ → UplinkContext
  cplane : ℕ → ℕ → UlCplaneContext
  /-- the sequence identifiers of the eAxC, once initialised -/
  counters : ℕ → Option ℕ
  registrations : List Registration
  writes : List (GridWrite Sample)
  reports : List SymbolReport

/-- A received frame, with a message if the eCPRI decoder finds one. -/
structure RxFrame where
  ethParams : EthParams
  isIqData : Bool
  eaxc : ℕ
  seqId : ℕ
  message : Bytes
deriving DecidableEq

inductive ReceiverFault where
  | invalidResourceGrid
  | invalidPort
deriving DecidableEq

def getNofSkippedSequenceId (seqId expectedSeqId : ℕ) : ℤ :=
  let a : ℤ := seqId - expectedSeqId
  if a ≥ 128 then a - 256 else if a < -128 then a + 256 else a

def updateAndCompareSeqId (counter : Option ℕ) (seqId : ℕ) : Option ℕ × ℤ :=
  match counter with
  | none => (some seqId, 0)
  | some counter =>
    let expectedSeqId := (counter + 1) % 256
    if seqId = expectedSeqId then (some expectedSeqId, 0)
    else
      let nofSkipped := getNofSkippedSequenceId seqId expectedSeqId
      (some (if nofSkipped > 0 then seqId else counter), nofSkipped)

def isSymbolIndexInCplaneValid (c : UlCplaneContext) (symbolId : ℕ) : Bool :=
  symbolId ≥ c.startSymbol && symbolId < c.startSymbol + c.nofSymbols

def isPrbFieldValid (c : UlCplaneContext) (header : SectionHeader) : Bool :=
  header.startPrb ≤ maxNofPrbs - 1 && header.startPrb + header.nofPrbs ≤ maxNofPrbs && header.isEveryRbUsed &&
    header.useCurrentSymbolNumber && header.startPrb ≥ c.prbStart &&
    header.startPrb + header.nofPrbs ≤ c.prbStart + c.nofPrb

/-- The calls of the receiver. -/
inductive ReceiverAction where
  | addContext (r : Registration)
  | addCplaneContext (slot eaxc : ℕ)
  /-- pending contexts are added, and that of a late symbol is popped -/
  | closeWindow (slot symbolId : ℕ)
  | receive (frame : RxFrame)
deriving DecidableEq

namespace Receiver

variable {Sample : Type} (cfg : ReceiverConfig Sample)

def init : Receiver Sample where
  pending := []
  buffer := fun _ _ => .empty
  cplane := fun _ _ => .zero
  counters := fun _ => none
  registrations := []
  writes := []
  reports := []

variable (s : Receiver Sample)

def entry (slot symbolId : ℕ) : UplinkContext := s.buffer (cfg.index slot) symbolId

def setEntry (i symbolId : ℕ) (c : UplinkContext) : Receiver Sample :=
  { s with buffer := fun i' symbolId' => if i' = i ∧ symbolId' = symbolId then c else s.buffer i' symbolId' }

def addContext (r : Registration) : Receiver Sample :=
  if s.pending.length < cfg.repoSize then
    { s with pending := s.pending ++ [r], registrations := s.registrations ++ [r] }
  else s

def cplaneContext (slot : ℕ) : UlCplaneContext :=
  { filterIndex := .standardChannelFilter, startSymbol := (cfg.symbolRange slot).1, prbStart := 0,
    nofPrb := cfg.decoder.ruNofPrbs, nofSymbols := (cfg.symbolRange slot).2 - (cfg.symbolRange slot).1 }

def addCplaneContext (slot eaxc : ℕ) : Receiver Sample :=
  if eaxc ∈ cfg.ulEaxc then
    { s with cplane := fun i e => if i = cfg.index slot ∧ e = eaxc then cplaneContext cfg slot else s.cplane i e }
  else s

def addPending (s : Receiver Sample) (r : Registration) : Receiver Sample :=
  { s with buffer := fun i symbolId =>
      if i = cfg.index r.slot ∧ (cfg.symbolRange r.slot).1 ≤ symbolId ∧ symbolId < (cfg.symbolRange r.slot).2 then
        { slot := r.slot, grid := some r.grid, reWritten := fun _ _ => false, since := s.writes.length }
      else s.buffer i symbolId }

def processPendingContexts : Receiver Sample := { s.pending.foldl (addPending cfg) s with pending := [] }

def popResourceGridSymbol (slot symbolId : ℕ) : Receiver Sample :=
  s.setEntry (cfg.index slot) symbolId { s.entry cfg slot symbolId with grid := none }

def writeGrid (slot port symbolId startRe : ℕ) (samples : List Sample) : Except ReceiverFault (Receiver Sample) :=
  let c := s.entry cfg slot symbolId
  match c.grid with
  | none => .error .invalidResourceGrid
  | some grid =>
    -- the port does not fit in the grid
    if port ≥ grid.nofPorts then .ok s
    else
      .ok { s.setEntry (cfg.index slot) symbolId
              { c with reWritten := fun p re =>
                  (p = port && startRe ≤ re && re < startRe + samples.length) || c.reWritten p re } with
            writes := s.writes ++ [{ slot, grid, port, symbolId, startRe, samples }] }

def writeSection (slot port symbolId duNofPrbs : ℕ) (s : Receiver Sample) (x : UplaneSection Sample) :
    Except ReceiverFault (Receiver Sample) :=
  if x.header.startPrb ≥ duNofPrbs then .ok s
  else
    let nofPrbsToWrite :=
      if x.header.startPrb + x.header.nofPrbs < duNofPrbs then x.header.nofPrbs else duNofPrbs - x.header.startPrb
    s.writeGrid cfg slot port symbolId (x.header.startPrb * nofSubcarriersPerRb)
      (x.iqSamples.take (nofPrbsToWrite * nofSubcarriersPerRb))

def writeToResourceGrid (eaxc : ℕ) (results : DecoderResults Sample) : Except ReceiverFault (Receiver Sample) :=
  match (s.entry cfg results.params.slot results.params.symbolId).grid with
  | none => .ok s
  | some grid =>
    let rgPort := cfg.ulEaxc.idxOf eaxc
    if rgPort ≥ cfg.ulEaxc.length then .error .invalidPort
    else
      results.sections.foldlM
        (writeSection cfg results.params.slot rgPort results.params.symbolId (grid.nofSubc / nofSubcarriersPerRb)) s

def notifyReceivedSymbol (slot symbolId : ℕ) : Receiver Sample :=
  let c := s.entry cfg slot symbolId
  match c.grid with
  | none => s
  | some grid =>
    if c.haveAllPrbsBeenWritten grid then
      { s.setEntry (cfg.index slot) symbolId .empty with
        reports := s.reports ++ [{ slot := c.slot, grid, symbolId, since := c.since }] }
    else s

def shouldUplanePacketBeFiltered (eaxc : ℕ) (results : DecoderResults Sample) : Bool :=
  let c := s.cplane (cfg.index results.params.slot) eaxc
  results.params.filterIndex = .reserved || results.params.filterIndex.isAPrachMessage ||
    results.params.filterIndex ≠ c.filterIndex || !isSymbolIndexInCplaneValid c results.params.symbolId ||
    !results.sections.all fun x => isPrbFieldValid c x.header

variable (frame : RxFrame)

/-- `should_ethernet_frame_be_filtered` and `should_ecpri_packet_be_filtered` -/
def shouldFrameBeFiltered : Bool :=
  frame.ethParams ≠ cfg.vlanParams || frame.message = [] || !frame.isIqData ||
    (frame.eaxc ∉ cfg.ulEaxc && frame.eaxc ∉ cfg.prachEaxc)

def seqIdOf : Option ℕ × ℤ :=
  if cfg.ignoreEcpriSeqIdField then (s.counters frame.eaxc, 0)
  else updateAndCompareSeqId (s.counters frame.eaxc) ((frame.seqId >>> 8) % 256)

def acceptedMessage : Option (DecoderResults Sample) :=
  if shouldFrameBeFiltered cfg frame then none
  else if (s.seqIdOf cfg frame).2 < 0 then none
  else do
    let _ ← peekSlotSymbolPoint cfg.numerology cfg.decoder.nofSymbols frame.message
    let filterType ← peekFilterIndex frame.message
    -- a PRACH message goes to a data flow of its own
    if filterType.isAPrachMessage then none
    else
      let results ← cfg.decoder.decode frame.message
      if s.shouldUplanePacketBeFiltered cfg frame.eaxc results then none else some results

def countSeqId : Receiver Sample :=
  if shouldFrameBeFiltered cfg frame then s
  else { s with counters := fun e => if e = frame.eaxc then (s.seqIdOf cfg frame).1 else s.counters e }

def receive : Except ReceiverFault (Receiver Sample) :=
  match s.acceptedMessage cfg frame with
  | none => .ok (s.countSeqId cfg frame)
  | some results => do
    let s' ← (s.countSeqId cfg frame).writeToResourceGrid cfg frame.eaxc results
    .ok (s'.notifyReceivedSymbol cfg results.params.slot results.params.symbolId)

def step : ReceiverAction → Except ReceiverFault (Receiver Sample)
  | .addContext r => .ok (s.addContext cfg r)
  | .addCplaneContext slot eaxc => .ok (s.addCplaneContext cfg slot eaxc)
  | .closeWindow slot symbolId => .ok ((s.processPendingContexts cfg).popResourceGridSymbol cfg slot symbolId)
  | .receive frame => s.receive cfg frame

/-! ### Data of the own slot -/

/-- The registration has asked for what is written. -/
structure Expected (r : Registration) (w : GridWrite Sample) : Prop where
  grid_eq : r.grid = w.grid
  slot : cfg.SameName r.slot w.slot
  symbol_ge : (cfg.symbolRange r.slot).1 ≤ w.symbolId
  symbol_lt : w.symbolId < (cfg.symbolRange r.slot).2
  port_lt : w.port < w.grid.nofPorts
  prbs_le : w.startRe + w.samples.length ≤ cfg.decoder.ruNofPrbs * nofSubcarriersPerRb
  subc_le : w.startRe + w.samples.length ≤ w.grid.nofSubc

/-- The write covers the resource element. -/
structure Covers (w : GridWrite Sample) (grid : UplinkGrid) (slot symbolId port re : ℕ) : Prop where
  grid_eq : w.grid = grid
  slot : cfg.SameName w.slot slot
  symbol_eq : w.symbolId = symbolId
  port_eq : w.port = port
  re_ge : w.startRe ≤ re
  re_lt : re < w.startRe + w.samples.length

/-- Samples are written only where expected, and complete symbols by messages of their slot. -/
structure DataOfOwnSlot : Prop where
  writes : ∀ w ∈ s.writes, ∃ r ∈ s.registrations, Expected cfg r w
  reports : ∀ r ∈ s.reports, ∀ port < r.grid.nofPorts, ∀ re < r.grid.nofSubc,
    ∃ k w, r.since ≤ k ∧ s.writes[k]? = some w ∧ Covers cfg w r.grid r.slot r.symbolId port re

/-- The registration fills the entry of the symbol in the place `i`. -/
def Fills (i symbolId : ℕ) (r : Registration) : Bool :=
  cfg.index r.slot = i && (cfg.symbolRange r.slot).1 ≤ symbolId && symbolId < (cfg.symbolRange r.slot).2

/-- The registrations that have left the pending list. -/
def added : List Registration := s.registrations.take (s.registrations.length - s.pending.length)

/-- Of the registrations that were added, the last one of a slot that shares the place of the named slot is one of the
slot that the message names. -/
def NamesLastAdded : Prop :=
  ∀ results ∈ cfg.decoder.decode frame.message,
    ∀ r ∈ s.added.reverse.find? (Fills cfg (cfg.index results.params.slot) results.params.symbolId),
      cfg.SameName r.slot results.params.slot

/-- A frame that is received names the slot of the last context added for its symbol. -/
def Cond : ReceiverAction → Prop
  | .receive frame => s.NamesLastAdded cfg frame
  | _ => True

/-! ### The slots of the entries -/

/-- A filled entry holds the slot of the last registration that was added for it. -/
structure Placed : Prop where
  pending : s.added ++ s.pending = s.registrations
  entries : ∀ i symbolId, (s.buffer i symbolId).grid.isSome →
    ∃ r, s.added.reverse.find? (Fills cfg i symbolId) = some r ∧ r.slot = (s.buffer i symbolId).slot

/-- The same contexts up to what has been written. -/
structure SameContexts (s s' : Receiver Sample) : Prop where
  pending : s'.pending = s.pending
  registrations : s'.registrations = s.registrations
  reports : s'.reports = s.reports
  grid : ∀ i symbolId, (s'.buffer i symbolId).grid = (s.buffer i symbolId).grid
  slot : ∀ i symbolId, (s'.buffer i symbolId).slot = (s.buffer i symbolId).slot

variable {cfg s} {s' : Receiver Sample}

lemma sameContexts_countSeqId (frame : RxFrame) : SameContexts s (s.countSeqId cfg frame) := by
  rw [countSeqId]
  split <;> exact ⟨rfl, rfl, rfl, fun _ _ => rfl, fun _ _ => rfl⟩

lemma SameContexts.writeGrid (h : SameContexts s s') (slot port symbolId startRe : ℕ) (samples : List Sample) :
    Post (fun _ => True) (SameContexts s) (s'.writeGrid cfg slot port symbolId startRe samples) := by
  rw [Receiver.writeGrid]
  dsimp only
  split
  · trivial
  next grid hgrid =>
    split
    · exact h
    · -- the entry is set to itself with more resource elements written
      refine ⟨h.pending, h.registrations, h.reports, fun i x => ?_, fun i x => ?_⟩
      · rw [← h.grid i x]
        simp only [setEntry]
        split
        next heq => rw [heq.1, heq.2]; rfl
        · rfl
      · rw [← h.slot i x]
        simp only [setEntry]
        split
        next heq => rw [heq.1, heq.2]; rfl
        · rfl

lemma SameContexts.writeToResourceGrid (h : SameContexts s s') (eaxc : ℕ) (res : DecoderResults Sample) :
    Post (fun _ => True) (SameContexts s) (s'.writeToResourceGrid cfg eaxc res) := by
  rw [Receiver.writeToResourceGrid]
  split
  · exact h
  · dsimp only
    split
    · trivial
    · refine Post.foldlM h fun t x _ ht => ?_
      rw [writeSection]
      split
      · exact ht
      · exact ht.writeGrid ..

/-- A frame is written to the contexts, and one symbol may be complete then. -/
lemma receive_cases (h : s.receive cfg frame = .ok s') :
    ∃ t, SameContexts s t ∧ (s' = t ∨ ∃ slot symbolId, s' = t.notifyReceivedSymbol cfg slot symbolId) := by
  rw [Receiver.receive] at h
  split at h
  · cases h
    exact ⟨_, sameContexts_countSeqId frame, .inl rfl⟩
  · obtain ⟨t, ht, h⟩ := bind_eq_ok.mp h
    cases h
    exact ⟨t, ((sameContexts_countSeqId frame).writeToResourceGrid _ _).of_ok ht, .inr ⟨_, _, rfl⟩⟩

namespace Placed

lemma init : (init : Receiver Sample).Placed cfg := ⟨rfl, nofun⟩

/-- What clears entries and fills none keeps the slots in place. -/
lemma of_clear (h : s.Placed cfg) (hpending : s'.pending = s.pending) (hreg : s'.registrations = s.registrations)
    (hbuf : ∀ i x, (s'.buffer i x).grid.isSome →
      (s.buffer i x).grid.isSome ∧ (s'.buffer i x).slot = (s.buffer i x).slot) : s'.Placed cfg := by
  have hadded : s'.added = s.added := by rw [added, added, hpending, hreg]
  refine ⟨by rw [hadded, hpending, hreg, h.pending], fun i x hsome => ?_⟩
  rw [hadded, (hbuf i x hsome).2]
  exact h.entries i x (hbuf i x hsome).1

lemma sameContexts (h : s.Placed cfg) (hs : SameContexts s s') : s'.Placed cfg :=
  h.of_clear hs.pending hs.registrations fun i x hsome => ⟨hs.grid i x ▸ hsome, hs.slot i x⟩

lemma setEntry (h : s.Placed cfg) (i x : ℕ) {c : UplinkContext} (hc : c.grid = none) :
    (s.setEntry i x c).Placed cfg := by
  refine h.of_clear rfl rfl fun i' x' hsome => ?_
  simp only [Receiver.setEntry] at hsome ⊢
  split at hsome
  · rw [hc] at hsome
    cases hsome
  next hne => exact ⟨hsome, by rw [if_neg hne]⟩

lemma addContext (h : s.Placed cfg) (r : Registration) : (s.addContext cfg r).Placed cfg := by
  rw [Receiver.addContext]
  split
  · have hadded : Receiver.added { s with pending := s.pending ++ [r], registrations := s.registrations ++ [r] } =
        s.added := by
      simp only [added, length_append, length_singleton, Nat.add_sub_add_right]
      exact take_append_of_le_length (Nat.sub_le ..)
    refine ⟨?_, fun i x hsome => ?_⟩
    · rw [hadded, ← h.pending, append_assoc]
    · rw [hadded]
      exact h.entries i x hsome
  · exact h

/-- The loop over the pending contexts: `l` is what was added before. -/
lemma foldl_addPending {l pending : List Registration} {buffer : ℕ → ℕ → UplinkContext} {t : Receiver Sample}
    (ht : t.buffer = buffer) (hentries : ∀ i x, (buffer i x).grid.isSome →
      ∃ r, l.reverse.find? (Fills cfg i x) = some r ∧ r.slot = (buffer i x).slot) (i x : ℕ)
    (hsome : ((pending.foldl (Receiver.addPending cfg) t).buffer i x).grid.isSome) :
    ∃ r, (l ++ pending).reverse.find? (Fills cfg i x) = some r ∧
      r.slot = ((pending.foldl (Receiver.addPending cfg) t).buffer i x).slot := by
  induction pending generalizing l buffer t with
  | nil =>
    rw [append_nil]
    subst ht
    exact hentries i x hsome
  | cons r pending ih =>
    rw [append_cons]
    refine ih rfl (fun i' x' hfilled => ?_) hsome
    rw [reverse_append, reverse_singleton, singleton_append, find?_cons]
    simp only [Receiver.addPending, ht] at hfilled ⊢
    by_cases hfills : i' = cfg.index r.slot ∧ (cfg.symbolRange r.slot).1 ≤ x' ∧ x' < (cfg.symbolRange r.slot).2
    · have : Fills cfg i' x' r = true := by simp [Fills, hfills]
      rw [if_pos hfills, this]
      exact ⟨r, rfl, rfl⟩
    · have : Fills cfg i' x' r = false := by
        refine eq_false_iff.mpr fun hf => hfills ?_
        simp only [Fills, and_eq_true, decide_eq_true_eq] at hf
        exact ⟨hf.1.1.symm, hf.1.2, hf.2⟩
      rw [if_neg hfills] at hfilled ⊢
      rw [this]
      exact hentries i' x' hfilled

lemma processPendingContexts (h : s.Placed cfg) : (s.processPendingContexts cfg).Placed cfg := by
  have hreg : ∀ (l : List Registration) (t : Receiver Sample),
      (l.foldl (Receiver.addPending cfg) t).registrations = t.registrations := by
    intro l
    induction l with
    | nil => exact fun _ => rfl
    | cons r l ih => exact fun t => ih _
  have hadded : (s.processPendingContexts cfg).added = s.added ++ s.pending := by
    rw [h.pending, added]
    exact (congrArg (fun l => take l.length l) (hreg s.pending s)).trans (take_length ..)
  refine ⟨?_, fun i x hsome => ?_⟩
  · rw [hadded, h.pending]
    exact (append_nil _).trans (hreg s.pending s).symm
  · rw [hadded]
    exact foldl_addPending rfl h.entries i x hsome

lemma notifyReceivedSymbol (h : s.Placed cfg) (slot x : ℕ) : (s.notifyReceivedSymbol cfg slot x).Placed cfg := by
  rw [Receiver.notifyReceivedSymbol]
  split
  · exact h
  · dsimp only
    split
    · have hclear := h.setEntry (cfg.index slot) x (c := .empty) rfl
      exact ⟨hclear.pending, hclear.entries⟩
    · exact h

lemma step (h : s.Placed cfg) {a : ReceiverAction} (hstep : s.step cfg a = .ok s') : s'.Placed cfg := by
  cases a with
  | addContext r => cases hstep; exact h.addContext r
  | addCplaneContext slot eaxc =>
    cases hstep
    refine h.of_clear ?_ ?_ ?_ <;> rw [addCplaneContext] <;> split <;> simp
  | closeWindow slot x => cases hstep; exact h.processPendingContexts.setEntry _ x rfl
  | receive frame =>
    obtain ⟨t, ht, rfl | ⟨slot, x, rfl⟩⟩ := receive_cases frame hstep
    · exact h.sameContexts ht
    · exact (h.sameContexts ht).notifyReceivedSymbol slot x

end Placed

/-! ### The invariant -/

/-- The grid is registered for its slot, and written by messages that name the slot. -/
structure EntryOk (cfg : ReceiverConfig Sample) (registrations : List Registration) (writes : List (GridWrite Sample))
    (symbolId : ℕ) (c : UplinkContext) (grid : UplinkGrid) : Prop where
  registered : ⟨c.slot, grid⟩ ∈ registrations
  symbol_ge : (cfg.symbolRange c.slot).1 ≤ symbolId
  symbol_lt : symbolId < (cfg.symbolRange c.slot).2
  since_le : c.since ≤ writes.length
  written : ∀ port re, c.reWritten port re = true →
    ∃ k w, c.since ≤ k ∧ writes[k]? = some w ∧ Covers cfg w grid c.slot symbolId port re

/-- The context admits no symbol, or it is one of an uplink request. -/
def CplaneOk (cfg : ReceiverConfig Sample) (eaxc : ℕ) (c : UlCplaneContext) : Prop :=
  c.nofSymbols = 0 ∨ eaxc ∈ cfg.ulEaxc ∧ c.prbStart = 0 ∧ c.nofPrb = cfg.decoder.ruNofPrbs

/-- What all reachable states satisfy. -/
structure Inv (cfg : ReceiverConfig Sample) (s : Receiver Sample) : Prop where
  pending : ∀ r ∈ s.pending, r ∈ s.registrations
  entries : ∀ i symbolId grid, (s.buffer i symbolId).grid = some grid →
    EntryOk cfg s.registrations s.writes symbolId (s.buffer i symbolId) grid
  cplane : ∀ i eaxc, CplaneOk cfg eaxc (s.cplane i eaxc)
  data : s.DataOfOwnSlot cfg

lemma EntryOk.mono {registrations registrations' : List Registration} {writes : List (GridWrite Sample)}
    {symbolId : ℕ} {c : UplinkContext} {grid : UplinkGrid} (h : EntryOk cfg registrations writes symbolId c grid)
    (hreg : ∀ r ∈ registrations, r ∈ registrations') (more : List (GridWrite Sample)) :
    EntryOk cfg registrations' (writes ++ more) symbolId c grid where
  registered := hreg _ h.registered
  symbol_ge := h.symbol_ge
  symbol_lt := h.symbol_lt
  since_le := h.since_le.trans (by rw [List.length_append]; omega)
  written := by
    intro port re hre
    obtain ⟨k, w, hk, hw, hcov⟩ := h.written port re hre
    exact ⟨k, w, hk, getElem?_append_left (List.getElem?_eq_some_iff.mp hw).1 ▸ hw, hcov⟩

lemma Inv.init : Inv cfg (init : Receiver Sample) where
  pending := fun _ h => absurd h not_mem_nil
  entries := nofun
  cplane := fun _ _ => .inl rfl
  data := ⟨fun _ h => absurd h not_mem_nil, fun _ h => absurd h not_mem_nil⟩

section

variable (h : Inv cfg s)
include h

lemma Inv.addContext (r : Registration) : Inv cfg (s.addContext cfg r) := by
  rw [Receiver.addContext]
  split
  · have hreg : ∀ r' ∈ s.registrations, r' ∈ s.registrations ++ [r] := fun _ => mem_append_left _
    refine ⟨fun r' hr' => ?_, fun i symbolId grid hgrid => ?_, h.cplane, fun w hw => ?_, h.data.reports⟩
    · rcases mem_append.mp hr' with hr' | hr'
      · exact hreg _ (h.pending r' hr')
      · exact mem_append_right _ hr'
    · have := (h.entries i symbolId grid hgrid).mono hreg []
      rwa [append_nil] at this
    · obtain ⟨r', hr', hexp⟩ := h.data.writes w hw
      exact ⟨r', hreg r' hr', hexp⟩
  · exact h

lemma Inv.addCplaneContext (slot eaxc : ℕ) : Inv cfg (s.addCplaneContext cfg slot eaxc) := by
  rw [Receiver.addCplaneContext]
  split
  next hmem =>
    refine ⟨h.pending, h.entries, fun i e => ?_, h.data.writes, h.data.reports⟩
    show CplaneOk cfg e (if i = cfg.index slot ∧ e = eaxc then cplaneContext cfg slot else s.cplane i e)
    split
    next heq => exact .inr ⟨heq.2 ▸ hmem, rfl, rfl⟩
    · exact h.cplane i e
  · exact h

lemma Inv.setEntry (i symbolId : ℕ) {c : UplinkContext}
    (hc : ∀ grid, c.grid = some grid → EntryOk cfg s.registrations s.writes symbolId c grid) :
    Inv cfg (s.setEntry i symbolId c) := by
  refine ⟨h.pending, fun i' symbolId' grid hgrid => ?_, h.cplane, h.data.writes, h.data.reports⟩
  have hbuf : (s.setEntry i symbolId c).buffer i' symbolId' =
      if i' = i ∧ symbolId' = symbolId then c else s.buffer i' symbolId' := rfl
  rw [hbuf] at hgrid ⊢
  split at hgrid
  next heq =>
    rw [if_pos heq, heq.2]
    exact hc grid hgrid
  next hne =>
    rw [if_neg hne]
    exact h.entries i' symbolId' grid hgrid

lemma Inv.addPending {r : Registration} (hr : r ∈ s.registrations) : Inv cfg (s.addPending cfg r) := by
  refine ⟨h.pending, fun i symbolId grid hgrid => ?_, h.cplane, h.data.writes, h.data.reports⟩
  have hbuf : (s.addPending cfg r).buffer i symbolId =
      if i = cfg.index r.slot ∧ (cfg.symbolRange r.slot).1 ≤ symbolId ∧ symbolId < (cfg.symbolRange r.slot).2 then
        { slot := r.slot, grid := some r.grid, reWritten := fun _ _ => false, since := s.writes.length }
      else s.buffer i symbolId := rfl
  rw [hbuf] at hgrid ⊢
  split at hgrid
  next hin =>
    rw [if_pos hin]
    cases hgrid
    exact ⟨hr, hin.2.1, hin.2.2, le_rfl, nofun⟩
  next hout =>
    rw [if_neg hout]
    exact h.entries i symbolId grid hgrid

lemma Inv.processPendingContexts : Inv cfg (s.processPendingContexts cfg) := by
  have hfold : ∀ (l : List Registration) (t : Receiver Sample), Inv cfg t → (∀ r ∈ l, r ∈ t.registrations) →
      Inv cfg (l.foldl (Receiver.addPending cfg) t) := by
    intro l
    induction l with
    | nil => exact fun t ht _ => ht
    | cons r l ih =>
      intro t ht hl
      exact ih _ (ht.addPending (hl r mem_cons_self)) fun r' hr' => hl r' (mem_cons_of_mem r hr')
  have hall := hfold s.pending s h h.pending
  exact ⟨fun _ hr => absurd hr not_mem_nil, hall.entries, hall.cplane, hall.data.writes, hall.data.reports⟩

lemma Inv.popResourceGridSymbol (slot symbolId : ℕ) : Inv cfg (s.popResourceGridSymbol cfg slot symbolId) :=
  h.setEntry _ _ nofun

lemma Inv.countSeqId (frame : RxFrame) : Inv cfg (s.countSeqId cfg frame) := by
  rw [Receiver.countSeqId]
  split
  · exact h
  · exact ⟨h.pending, h.entries, h.cplane, h.data.writes, h.data.reports⟩

end

/-! ### A received message -/

/-- The frame meets the context of this grid. -/
def Meets (cfg : ReceiverConfig Sample) (s : Receiver Sample) (slot symbolId : ℕ) (grid : UplinkGrid) : Prop :=
  (s.entry cfg slot symbolId).grid = some grid ∧ cfg.SameName (s.entry cfg slot symbolId).slot slot

lemma entry_setEntry (slot symbolId : ℕ) (c : UplinkContext) :
    (s.setEntry (cfg.index slot) symbolId c).entry cfg slot symbolId = c := if_pos ⟨rfl, rfl⟩

section

variable (h : Inv cfg s)
include h

lemma Inv.writeGrid {slot port symbolId startRe : ℕ} {samples : List Sample} {grid : UplinkGrid}
    (hmeets : Meets cfg s slot symbolId grid)
    (hru : startRe + samples.length ≤ cfg.decoder.ruNofPrbs * nofSubcarriersPerRb)
    (hsubc : startRe + samples.length ≤ grid.nofSubc) :
    Post (fun _ => False) (fun s' => Inv cfg s' ∧ Meets cfg s' slot symbolId grid)
      (s.writeGrid cfg slot port symbolId startRe samples) := by
  obtain ⟨hgrid, hname⟩ := hmeets
  have hok : EntryOk cfg s.registrations s.writes symbolId (s.entry cfg slot symbolId) grid :=
    h.entries _ symbolId grid hgrid
  rw [Receiver.writeGrid]
  simp only [hgrid]
  split
  · exact ⟨h, hgrid, hname⟩
  rename_i hport
  set w : GridWrite Sample := { slot, grid, port, symbolId, startRe, samples } with hw
  have hkeep : ∀ {i symbolId' : ℕ} {grid' : UplinkGrid}, (s.buffer i symbolId').grid = some grid' →
      EntryOk cfg s.registrations (s.writes ++ [w]) symbolId' (s.buffer i symbolId') grid' :=
    fun hg => (h.entries _ _ _ hg).mono (fun _ hr => hr) [w]
  -- the history grows first, then the entry is replaced
  have hgrown : Inv cfg { s with writes := s.writes ++ [w] } := by
    refine ⟨h.pending, fun i symbolId' grid' hg => hkeep hg, h.cplane, fun w' hw' => ?_, fun r hr port' hp re hre => ?_⟩
    · rcases List.mem_append.mp hw' with hw' | hw'
      · exact h.data.writes w' hw'
      · rw [List.mem_singleton.mp hw']
        exact ⟨_, hok.registered, rfl, hname, hok.symbol_ge, hok.symbol_lt, Nat.lt_of_not_le hport, hru, hsubc⟩
    · obtain ⟨k, w', hk, hw', hcov⟩ := h.data.reports r hr port' hp re hre
      exact ⟨k, w', hk, List.getElem?_append_left (List.getElem?_eq_some_iff.mp hw').1 ▸ hw', hcov⟩
  refine ⟨hgrown.setEntry (cfg.index slot) symbolId fun grid' hg => ?_, ?_⟩
  · obtain rfl : grid = grid' := Option.some.inj hg
    have hok' := hkeep hgrid
    refine { hok' with written := fun p re hre => ?_ }
    rcases or_eq_true_iff.mp hre with hre | hre
    · simp only [and_eq_true, decide_eq_true_eq] at hre
      exact ⟨s.writes.length, w, hok.since_le, List.getElem?_concat_length, rfl, hname.symm, rfl, hre.1.1.symm, hre.1.2,
        hre.2⟩
    · exact hok'.written p re hre
  · exact ⟨congrArg UplinkContext.grid (entry_setEntry slot symbolId _),
      (congrArg (fun c => cfg.SameName (UplinkContext.slot c) slot) (entry_setEntry slot symbolId _)).mpr hname⟩

lemma Inv.writeSection {slot port symbolId : ℕ} {grid : UplinkGrid}
    (hmeets : Meets cfg s slot symbolId grid) {x : UplaneSection Sample}
    (hx : x.header.startPrb + x.header.nofPrbs ≤ cfg.decoder.ruNofPrbs) :
    Post (fun _ => False) (fun s' => Inv cfg s' ∧ Meets cfg s' slot symbolId grid)
      (writeSection cfg slot port symbolId (grid.nofSubc / nofSubcarriersPerRb) s x) := by
  rw [Receiver.writeSection]
  split
  · exact ⟨h, hmeets⟩
  rename_i hstart
  set n := if x.header.startPrb + x.header.nofPrbs < grid.nofSubc / nofSubcarriersPerRb then x.header.nofPrbs
    else grid.nofSubc / nofSubcarriersPerRb - x.header.startPrb with hn
  have hle : n ≤ x.header.nofPrbs ∧ x.header.startPrb + n ≤ grid.nofSubc / nofSubcarriersPerRb := by
    rw [hn]
    split <;> omega
  have hlen : (x.iqSamples.take (n * nofSubcarriersPerRb)).length = n * nofSubcarriersPerRb := by
    rw [length_take, x.length_iqSamples]
    exact Nat.min_eq_left (Nat.mul_le_mul_right _ hle.1)
  have hsum : x.header.startPrb * nofSubcarriersPerRb + n * nofSubcarriersPerRb =
      (x.header.startPrb + n) * nofSubcarriersPerRb := (Nat.add_mul ..).symm
  refine h.writeGrid hmeets ?_ ?_ <;> rw [hlen, hsum]
  · exact Nat.mul_le_mul_right _ (by omega)
  · exact (Nat.mul_le_mul_right _ hle.2).trans (Nat.div_mul_le_self ..)

lemma Inv.accepted {frame : RxFrame} {res : DecoderResults Sample}
    (hacc : s.acceptedMessage cfg frame = some res) :
    frame.eaxc ∈ cfg.ulEaxc ∧ cfg.decoder.decode frame.message = some res ∧
      ∀ x ∈ res.sections, x.header.startPrb + x.header.nofPrbs ≤ cfg.decoder.ruNofPrbs := by
  obtain ⟨hdecode, hfilter⟩ : cfg.decoder.decode frame.message = some res ∧
      s.shouldUplanePacketBeFiltered cfg frame.eaxc res = false := by
    simp only [acceptedMessage, Option.bind_eq_bind, Option.bind_eq_some_iff, Option.ite_none_left_eq_some] at hacc
    obtain ⟨-, -, _, -, _, -, -, results', hdecode, hf, hres⟩ := hacc
    cases hres
    exact ⟨hdecode, eq_false_iff.mpr hf⟩
  simp only [shouldUplanePacketBeFiltered, or_eq_false_iff, not_eq_false', isSymbolIndexInCplaneValid,
    and_eq_true, decide_eq_true_eq, all_eq_true] at hfilter
  obtain ⟨⟨-, hsym⟩, hsections⟩ := hfilter
  rcases h.cplane (cfg.index res.params.slot) frame.eaxc with hzero | ⟨hmem, hstart, hnof⟩
  · omega
  · refine ⟨hmem, hdecode, fun x hx => ?_⟩
    have hvalid := hsections x hx
    simp only [isPrbFieldValid, and_eq_true, decide_eq_true_eq, hstart, hnof] at hvalid
    omega

lemma Inv.writeToResourceGrid {eaxc : ℕ} {res : DecoderResults Sample} (heaxc : eaxc ∈ cfg.ulEaxc)
    (hsections : ∀ x ∈ res.sections, x.header.startPrb + x.header.nofPrbs ≤ cfg.decoder.ruNofPrbs)
    (hown : (s.entry cfg res.params.slot res.params.symbolId).grid.isSome →
      cfg.SameName (s.entry cfg res.params.slot res.params.symbolId).slot res.params.slot) :
    Post (fun _ => False) (Inv cfg) (s.writeToResourceGrid cfg eaxc res) := by
  rw [Receiver.writeToResourceGrid]
  split
  · exact h
  next grid hgrid =>
    rw [if_neg (Nat.not_le.mpr (idxOf_lt_length_iff.mpr heaxc))]
    have hmeets : Meets cfg s res.params.slot res.params.symbolId grid := ⟨hgrid, hown (by rw [hgrid]; rfl)⟩
    refine Post.mono (Q := fun s' => Inv cfg s' ∧ Meets cfg s' res.params.slot res.params.symbolId grid)
      (Post.foldlM ⟨h, hmeets⟩ fun s' x hx hs' => ?_) fun _ hs' => hs'.1
    exact hs'.1.writeSection hs'.2 (hsections x hx)

lemma Inv.notifyReceivedSymbol (slot symbolId : ℕ) : Inv cfg (s.notifyReceivedSymbol cfg slot symbolId) := by
  rw [Receiver.notifyReceivedSymbol]
  split
  · exact h
  next grid hgrid =>
    split
    next hall =>
      have hclear := h.setEntry (cfg.index slot) symbolId (c := .empty) nofun
      refine ⟨hclear.pending, hclear.entries, hclear.cplane, hclear.data.writes, fun r hr port hport re hre => ?_⟩
      rcases mem_append.mp hr with hr | hr
      · exact h.data.reports r hr port hport re hre
      · obtain rfl := mem_singleton.mp hr
        simp only [UplinkContext.haveAllPrbsBeenWritten, all_eq_true, mem_range] at hall
        exact (h.entries _ symbolId grid hgrid).written port re (hall port hport re hre)
    · exact h

end

lemma countSeqId_entry (slot symbolId : ℕ) :
    (s.countSeqId cfg frame).entry cfg slot symbolId = s.entry cfg slot symbolId := by
  rw [countSeqId]
  split <;> rfl

lemma Inv.receive (h : Inv cfg s) (hplaced : s.Placed cfg) {frame : RxFrame} (hnames : s.NamesLastAdded cfg frame) :
    Post (fun _ => False) (Inv cfg) (s.receive cfg frame) := by
  rw [Receiver.receive]
  split
  · exact h.countSeqId frame
  next res hacc =>
    obtain ⟨heaxc, hdecode, hsections⟩ := h.accepted hacc
    have hwrite := (h.countSeqId frame).writeToResourceGrid heaxc hsections (by
      rw [countSeqId_entry]
      intro hsome
      obtain ⟨r, hr, hslot⟩ := hplaced.entries _ _ hsome
      exact hslot ▸ hnames res hdecode r hr)
    refine hwrite.bind fun s' hs' => ?_
    exact hs'.notifyReceivedSymbol res.params.slot res.params.symbolId

lemma Inv.step (h : Inv cfg s) (hplaced : s.Placed cfg) {a : ReceiverAction} (ha : s.Cond cfg a) :
    Post (fun _ => False) (Inv cfg) (s.step cfg a) := by
  cases a with
  | addContext r => exact h.addContext r
  | addCplaneContext slot eaxc => exact h.addCplaneContext slot eaxc
  | closeWindow slot symbolId => exact h.processPendingContexts.popResourceGridSymbol slot symbolId
  | receive frame => exact h.receive hplaced ha

/-- **Uplink data of the own slot**, in every run whose messages name the slot that was last added in its place. -/
theorem uplinkData_of_ownSlot (cfg : ReceiverConfig Sample) {s : Receiver Sample}
    (h : Reach (Receiver.step cfg) (Receiver.Cond cfg) Receiver.init s) : s.DataOfOwnSlot cfg := by
  have hinv := h.invariant (P := fun s => Inv cfg s ∧ s.Placed cfg) ⟨Inv.init, Placed.init⟩
    fun _ _ _ hs ha hstep => ⟨(hs.1.step hs.2 ha).of_ok hstep, hs.2.step hstep⟩
  exact hinv.1.data

/-! ### Two runs -/

instance (frame : RxFrame) : Decidable (s.NamesLastAdded cfg frame) :=
  inferInstanceAs (Decidable (∀ results ∈ cfg.decoder.decode frame.message,
    ∀ r ∈ s.added.reverse.find? (Fills cfg (cfg.index results.params.slot) results.params.symbolId),
      cfg.SameName r.slot results.params.slot))

instance (a : ReceiverAction) : Decidable (s.Cond cfg a) :=
  match a with
  | .receive frame => inferInstanceAs (Decidable (s.NamesLastAdded cfg frame))
  | .addContext _ | .addCplaneContext .. | .closeWindow .. => inferInstanceAs (Decidable True)

def smallReceiver : ReceiverConfig ℕ where
  decoder :=
    { numerology := 1, nofSymbols := 14, ruNofPrbs := 1, staticParams := some ⟨.none, 1⟩
      decompress := fun _ nofPrbs _ => List.replicate (nofPrbs * nofSubcarriersPerRb) 0
      length_decompress := fun _ _ _ => List.length_replicate }
  vlanParams := ⟨1, 2, 0xaefe⟩
  ulEaxc := [0]
  prachEaxc := []
  ignoreEcpriSeqIdField := false
  minimumRepoSize := 20
  ulSymbols := fun _ => (0, 14)
  minimumRepoSize_pos := by decide
  minimumRepoSize_le := by decide

def onePrbFrame (radioFrame : UInt8) (seqId : ℕ) : RxFrame :=
  { ethParams := ⟨1, 2, 0xaefe⟩, isIqData := true, eaxc := 0, seqId
    message := [0x10, radioFrame, 0, 0, 0, 0, 0, 1, 0xaa, 0xaa, 0xaa] }

/-- A grid of one PRB is requested for slot 0, and a message is received. -/
def onePrbRun (radioFrame : UInt8) : List ReceiverAction :=
  [.addContext ⟨0, ⟨0, 1, 12⟩⟩, .addCplaneContext 0 0, .closeWindow 19 0, .receive (onePrbFrame radioFrame 0)]

/-- Slot 20 takes the place of slot 0, and then a message for it is received. -/
def nextFrameRun : List ReceiverAction :=
  onePrbRun 0 ++ [.addContext ⟨20, ⟨1, 1, 12⟩⟩, .closeWindow 39 0, .receive (onePrbFrame 1 256)]

theorem uplinkData_of_slotZero :
    ∃ s, Reach (Receiver.step smallReceiver) (Receiver.Cond smallReceiver) Receiver.init s ∧
      s.writes.map (fun w => (w.slot, w.grid.id)) = [(0, 0), (20, 1)] ∧ s.reports.length = 2 ∧
      s.DataOfOwnSlot smallReceiver := by
  obtain ⟨s, hreach, hs⟩ : ∃ s, Reach (step smallReceiver) (Cond smallReceiver) init s ∧
      s.writes.map (fun w => (w.slot, w.grid.id)) = [(0, 0), (20, 1)] ∧ s.reports.length = 2 :=
    Reach.exists_run nextFrameRun (by decide +kernel)
  exact ⟨s, hreach, hs.1, hs.2, uplinkData_of_ownSlot smallReceiver hreach⟩

/-- A message that names slot 20 is written to the grid of slot 0 and completes its symbol. -/
theorem uplinkData_of_otherSlot :
    ∃ s, Reach (Receiver.step smallReceiver) (fun _ _ => True) Receiver.init s ∧
      (∃ w ∈ s.writes, ∀ r ∈ s.registrations, ¬ smallReceiver.SameName r.slot w.slot) ∧
      ∃ r ∈ s.reports, ∀ w ∈ s.writes, ¬ smallReceiver.SameName w.slot r.slot :=
  Reach.exists_run (onePrbRun 1) (by decide +kernel)

end Receiver

end SrsRan.Ofh
