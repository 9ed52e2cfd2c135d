import SrsRan.Lib.Run
import SrsRan.Lib.Binary32
import SrsRan.Support.Window
import SrsRan.Support.SlotPoint

/-!
# The HARQ repository of a cell

`cell_harq_repository` holds the HARQ processes of all UEs of a cell in one direction.  Its intrusive lists are lists of
process names, and removing an element from a list it is not in is an error (`notLinked`).

The copies of the processes in `alloc_hist`, which get the ACKs in NTN mode, and the timeout notifier are not modelled.
-/

namespace SrsRan.Sched

open Support Lib.Run Lib.Binary32
open Function (update)

inductive HarqState where
  | empty
  | pendingRetx
  | waitingAck
deriving DecidableEq

inductive HarqAckReport where
  | nack
  | ack
  | dtx
deriving DecidableEq

/-- `base_harq_process`, with the fields that `dl_ack_info` reads -/
structure HarqProcess where
  status : HarqState
  slotTx : ℕ
  slotAck : ℕ
  slotTimeout : Option ℕ
  ndi : Bool
  nofRetxs : ℕ
  maxNofHarqRetxs : ℕ
  ackOnTimeout : Bool
  retxsCancelled : Bool
  pucchAckToReceive : ℕ
  chosenAck : HarqAckReport
  lastPucchSnr : Option F32
deriving DecidableEq

def HarqProcess.init : HarqProcess where
  status := .empty
  slotTx := 0
  slotAck := 0
  slotTimeout := none
  ndi := false
  nofRetxs := 0
  maxNofHarqRetxs := 0
  ackOnTimeout := false
  retxsCancelled := false
  pucchAckToReceive := 0
  chosenAck := .dtx
  lastPucchSnr := none

structure HarqConfig where
  maxUes : ℕ
  maxHarqsPerUe : ℕ
  maxAckWaitInSlots : ℕ
  harqRetxTimeout : ℕ
  ntnCsKoffset : ℕ
  wheelSize : ℕ
  /-- `nof_slots_per_hyper_system_frame` -/
  nofSlots : ℕ

namespace HarqConfig

variable (cfg : HarqConfig)

def plus (slot : ℕ) (n : ℤ) : ℕ := ((slot + n) % cfg.nofSlots).toNat

def slotLt (a b : ℕ) : Bool := Support.slotLt cfg.nofSlots a b

def isNtnMode : Bool := 0 < cfg.ntnCsKoffset

def latest (last : Option ℕ) (slot : ℕ) : Option ℕ :=
  match last with
  | some l => some (if cfg.slotLt l slot then slot else l)
  | none => some slot

def forget (last : Option ℕ) (slot : ℕ) : Option ℕ := last.filter fun l => cfg.slotLt slot l

end HarqConfig

/-- `cell_harq_repository`; `harqs (ue, h)` is `ues[ue].harqs[h]`. -/
structure HarqRepository where
  lastSlInd : ℕ
  nofHarqs : ℕ → ℕ
  harqs : ℕ × ℕ → HarqProcess
  freeHarqIds : ℕ → List ℕ
  lastSlotTx : ℕ → Option ℕ
  lastSlotAck : ℕ → Option ℕ
  harqPendingRetxList : List (ℕ × ℕ)
  harqTimeoutWheel : ℕ → List (ℕ × ℕ)

def wrongState : Abort := .assertion "HARQ process in wrong state"

def notLinked : Abort := .assertion "element is not in the list"

def popElement (l : List (ℕ × ℕ)) (p : ℕ × ℕ) : Except Abort (List (ℕ × ℕ)) :=
  if p ∈ l then .ok (l.erase p) else .error notLinked

def shortAckTimeoutDtx : ℕ := 8

namespace HarqRepository

variable (cfg : HarqConfig)

def init : HarqRepository where
  lastSlInd := 0
  nofHarqs _ := 0
  harqs _ := .init
  freeHarqIds _ := []
  lastSlotTx _ := none
  lastSlotAck _ := none
  harqPendingRetxList := []
  harqTimeoutWheel _ := []

variable (s : HarqRepository)

variable (p : ℕ × ℕ)

def setHarq (h : HarqProcess) : HarqRepository := { s with harqs := update s.harqs p h }

def wheelPop : Except Abort HarqRepository :=
  match (s.harqs p).slotTimeout with
  | none => .error notLinked
  | some t => do
    let bucket ← popElement (s.harqTimeoutWheel (t % cfg.wheelSize)) p
    .ok { s with harqTimeoutWheel := update s.harqTimeoutWheel (t % cfg.wheelSize) bucket }

/-- Sets the timeout and links the process. -/
def wheelPush (t : ℕ) : HarqRepository :=
  { s with
    harqs := update s.harqs p { s.harqs p with slotTimeout := some t }
    harqTimeoutWheel := update s.harqTimeoutWheel (t % cfg.wheelSize) (p :: s.harqTimeoutWheel (t % cfg.wheelSize)) }

def pendingPop : Except Abort HarqRepository := do
  let l ← popElement s.harqPendingRetxList p
  .ok { s with harqPendingRetxList := l }

def unlinkPending : Except Abort HarqRepository :=
  if (s.harqs p).status = .pendingRetx then s.pendingPop p else .ok s

def allocHarq (ue slotTx slotAck maxNofHarqRetxs : ℕ) : HarqRepository × Option ℕ :=
  match (s.freeHarqIds ue).getLast? with
  | none => (s, none)
  | some hId =>
    let h := s.harqs (ue, hId)
    let s := { s with freeHarqIds := update s.freeHarqIds ue (s.freeHarqIds ue).dropLast }
    let s := s.setHarq (ue, hId)
      { h with
        status := .waitingAck
        slotTx := slotTx
        slotAck := slotAck
        nofRetxs := 0
        ndi := !h.ndi
        maxNofHarqRetxs := maxNofHarqRetxs
        ackOnTimeout := false
        retxsCancelled := false
        pucchAckToReceive := 0
        chosenAck := .dtx
        lastPucchSnr := none }
    let s :=
      { s with
        lastSlotTx := update s.lastSlotTx ue (cfg.latest (s.lastSlotTx ue) slotTx)
        lastSlotAck := update s.lastSlotAck ue (cfg.latest (s.lastSlotAck ue) slotAck) }
    (s.wheelPush cfg (ue, hId) (cfg.plus slotAck (cfg.maxAckWaitInSlots - cfg.ntnCsKoffset)), some hId)

def deallocHarq : Except Abort HarqRepository :=
  if (s.harqs p).status = .empty then .ok s
  else do
    let h := s.harqs p
    let s ← s.unlinkPending p
    let s ← s.wheelPop cfg p
    let s := s.setHarq p { h with slotTimeout := none, status := .empty }
    .ok { s with
      lastSlotTx := update s.lastSlotTx p.1 (cfg.forget (s.lastSlotTx p.1) h.slotTx)
      lastSlotAck := update s.lastSlotAck p.1 (cfg.forget (s.lastSlotAck p.1) h.slotAck)
      freeHarqIds := update s.freeHarqIds p.1 (s.freeHarqIds p.1 ++ [p.2]) }

def setPendingRetx : Except Abort HarqRepository :=
  if (s.harqs p).status = .pendingRetx then .ok s
  else do
    let s ← s.wheelPop cfg p
    let s := s.wheelPush cfg p (cfg.plus s.lastSlInd cfg.harqRetxTimeout)
    let s := { s with harqPendingRetxList := s.harqPendingRetxList ++ [p] }
    .ok (s.setHarq p { s.harqs p with status := .pendingRetx })

def handleAck (ack : Bool) : Except Abort HarqRepository :=
  if cfg.isNtnMode then .error (.assertion "ACK Info handled for a non-NTN HARQ process")
  else if ack ∨ (s.harqs p).nofRetxs ≥ (s.harqs p).maxNofHarqRetxs then s.deallocHarq cfg p
  else s.setPendingRetx cfg p

/-- `handle_new_retx`, with the DL-specific parameters of `new_retx` -/
def handleNewRetx (slotTx slotAck : ℕ) : Except Abort HarqRepository :=
  if (s.harqs p).status ≠ .pendingRetx then .ok s
  else do
    let s ← s.pendingPop p
    let s ← s.wheelPop cfg p
    let h := s.harqs p
    let s := s.setHarq p
      { h with
        status := .waitingAck
        slotTx := slotTx
        slotAck := slotAck
        ackOnTimeout := false
        nofRetxs := h.nofRetxs + 1
        pucchAckToReceive := 0
        chosenAck := .dtx
        lastPucchSnr := none }
    let s :=
      { s with
        lastSlotTx := update s.lastSlotTx p.1 (cfg.latest (s.lastSlotTx p.1) slotTx)
        lastSlotAck := update s.lastSlotAck p.1 (cfg.latest (s.lastSlotAck p.1) slotAck) }
    .ok (s.wheelPush cfg p (cfg.plus slotAck cfg.maxAckWaitInSlots))

def cancelRetxs : Except Abort HarqRepository :=
  match (s.harqs p).status with
  | .empty => .ok s
  | .pendingRetx => s.deallocHarq cfg p
  | .waitingAck => .ok (s.setHarq p { s.harqs p with maxNofHarqRetxs := (s.harqs p).nofRetxs, retxsCancelled := true })

/-- Whether this report replaces an earlier one. -/
def prefers (h : HarqProcess) (report : HarqAckReport) (snr : Option F32) : Bool :=
  report ≠ .dtx &&
    match h.lastPucchSnr, snr with
    | none, _ => true
    | some last, some snr => last.lt snr
    | some _, none => false

def dlAckInfo (report : HarqAckReport) (snr : Option F32) : Except Abort HarqRepository :=
  if (s.harqs p).status ≠ .waitingAck then .ok s
  else
    let h := s.harqs p
    let h := if prefers h report snr then { h with chosenAck := report, lastPucchSnr := snr } else h
    let s := s.setHarq p h
    if h.pucchAckToReceive ≤ 1 then s.handleAck cfg p (h.chosenAck = .ack)
    else
      let s := s.setHarq p
        { h with pucchAckToReceive := h.pucchAckToReceive - 1, ackOnTimeout := h.chosenAck = .ack }
      if cfg.isNtnMode then .ok s
      else do
        let s ← s.wheelPop cfg p
        .ok (s.wheelPush cfg p (cfg.plus s.lastSlInd shortAckTimeoutDtx))

def ulCrcInfo (ack : Bool) : Except Abort HarqRepository :=
  if (s.harqs p).status ≠ .waitingAck then .ok s else s.handleAck cfg p ack

def uciSchedFailed (ue uciSlot : ℕ) : Except Abort HarqRepository :=
  (List.range (s.nofHarqs ue)).foldlM
    (fun s hId =>
      let h := s.harqs (ue, hId)
      if h.status = .waitingAck ∧ h.slotAck = uciSlot then
        (List.range (max h.pucchAckToReceive 1)).foldlM (fun s _ => s.dlAckInfo cfg (ue, hId) .dtx none) s
      else .ok s) s

def incrementPucchCounter : HarqRepository :=
  s.setHarq p { s.harqs p with pucchAckToReceive := (s.harqs p).pucchAckToReceive + 1 }

def addUe (ue nofHarqs : ℕ) : Except Abort HarqRepository :=
  if ¬ (nofHarqs ≤ cfg.maxHarqsPerUe ∧ 0 < nofHarqs) then .error (.assertion "Invalid number of DL HARQs")
  else if ¬ ue < cfg.maxUes then .error (.assertion "Invalid ue_index")
  else if s.nofHarqs ue ≠ 0 then .error (.assertion "Creating UE with duplicate ue_index")
  else
    .ok { s with
      nofHarqs := update s.nofHarqs ue nofHarqs
      harqs := fun p => if p.1 = ue then .init else s.harqs p
      freeHarqIds := update s.freeHarqIds ue (List.range nofHarqs).reverse }

def destroyUe (ue : ℕ) : Except Abort HarqRepository := do
  let s ← (List.range (s.nofHarqs ue)).foldlM (fun s hId => s.deallocHarq cfg (ue, hId)) s
  .ok { s with
    nofHarqs := update s.nofHarqs ue 0
    freeHarqIds := update s.freeHarqIds ue [] }

def handleHarqAckTimeout : Except Abort HarqRepository :=
  if (s.harqs p).status = .empty then .error wrongState else s.deallocHarq cfg p

def timeoutLoop (b : ℕ) : ℕ → HarqRepository → Except Abort HarqRepository
  | 0, s => .ok s
  | n + 1, s =>
    match s.harqTimeoutWheel b with
    | [] => .ok s
    | p :: _ => do
      let s ← s.handleHarqAckTimeout cfg p
      timeoutLoop b n s

/-- Releases retransmissions that have waited for a quarter of the frame cycle. -/
def trappedLoop : ℕ → HarqRepository → Except Abort HarqRepository
  | 0, s => .ok s
  | n + 1, s =>
    match s.harqPendingRetxList with
    | [] => .ok s
    | p :: _ =>
      if (s.harqs p).status ≠ .pendingRetx then .error wrongState
      else if cfg.slotLt s.lastSlInd (cfg.plus (s.harqs p).slotAck ((cfg.nofSlots / 4 : ℕ) : ℤ)) then .ok s
      else do
        let s ← s.deallocHarq cfg p
        trappedLoop n s

def slotIndication (slotTx : ℕ) : Except Abort HarqRepository := do
  let s := { s with lastSlInd := slotTx }
  let b := slotTx % cfg.wheelSize
  let s ← timeoutLoop cfg b (s.harqTimeoutWheel b).length s
  trappedLoop cfg s.harqPendingRetxList.length s

end HarqRepository

/-- The calls of the repository. -/
inductive HarqAction where
  | slotIndication (slotTx : ℕ)
  | alloc (ue slotTx slotAck maxNofHarqRetxs : ℕ)
  | newRetx (p : ℕ × ℕ) (slotTx slotAck : ℕ)
  | dlAckInfo (p : ℕ × ℕ) (report : HarqAckReport) (snr : Option F32)
  | ulCrcInfo (p : ℕ × ℕ) (ack : Bool)
  | uciSchedFailed (ue uciSlot : ℕ)
  | incrementPucchCounter (p : ℕ × ℕ)
  | cancelRetxs (p : ℕ × ℕ)
  | reset (p : ℕ × ℕ)
  | addUe (ue nofHarqs : ℕ)
  | destroyUe (ue : ℕ)
deriving DecidableEq

namespace HarqRepository

variable (cfg : HarqConfig)

variable (s : HarqRepository)

/-- The process is one of its UE. -/
def Exists (p : ℕ × ℕ) : Prop := p.2 < s.nofHarqs p.1

instance (s : HarqRepository) (p : ℕ × ℕ) : Decidable (s.Exists p) := Nat.decLt _ _

def withHandle (p : ℕ × ℕ) (x : Except Abort HarqRepository) : Except Abort HarqRepository :=
  if s.Exists p then x else .error (.assertion "no such process")

def step : HarqAction → Except Abort HarqRepository
  | .slotIndication slotTx => s.slotIndication cfg slotTx
  | .alloc ue slotTx slotAck maxNofHarqRetxs => .ok (s.allocHarq cfg ue slotTx slotAck maxNofHarqRetxs).1
  | .newRetx p slotTx slotAck => s.withHandle p (s.handleNewRetx cfg p slotTx slotAck)
  | .dlAckInfo p report snr => s.withHandle p (s.dlAckInfo cfg p report snr)
  | .ulCrcInfo p ack => s.withHandle p (s.ulCrcInfo cfg p ack)
  | .uciSchedFailed ue uciSlot => s.uciSchedFailed cfg ue uciSlot
  | .incrementPucchCounter p => s.withHandle p (.ok (s.incrementPucchCounter p))
  | .cancelRetxs p => s.withHandle p (s.cancelRetxs cfg p)
  | .reset p => s.withHandle p (s.deallocHarq cfg p)
  | .addUe ue nofHarqs => s.addUe cfg ue nofHarqs
  | .destroyUe ue => s.destroyUe cfg ue

end HarqRepository

end SrsRan.Sched
