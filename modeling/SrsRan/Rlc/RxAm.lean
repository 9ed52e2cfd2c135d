import SrsRan.Rlc.Segments
import SrsRan.Support.Window

/-!
# `rlc_rx_am_entity`

The receiving side of an RLC AM entity; a failed `srsran_assert` is an `Abort`.  A timer is a flag that tells whether it is
running.  The three status reports that are exchanged with the transmitter of the bearer are three fields, and calls are
atomic.  The memory pool of the reassembled SDUs is an argument of `handle_pdu`: the number of slices a new
`byte_buffer_chain` can hold, or `none` if there is no block left.
-/

namespace SrsRan.Rlc

open Support Lib.SeqNum

structure RxAmConfig where
  snFieldLength : AmSnSize
  /-- t-Reassembly in ms; the timer is configured only when it is positive -/
  tReassembly : ℤ
  /-- t-StatusProhibit in ms -/
  tStatusProhibit : ℤ
  maxSnPerStatus : Option ℕ
  /-- asserted by the constructor of the entity -/
  maxSn_valid : ∀ n ∈ maxSnPerStatus, 0 < n ∧ n ≤ snFieldLength.window

inductive RxSduData where
  | slice (payload : Bytes)
  | segments (l : List SduSegment)
deriving DecidableEq

structure RxAmSduInfo where
  fullyReceived : Bool := false
  hasGap : Bool := false
  sduData : RxSduData := .slice []
deriving DecidableEq

/-- The state variables of TS 38.322. -/
structure RxAmState where
  rxNext : ℕ := 0
  rxNextStatusTrigger : ℕ := 0
  rxHighestStatus : ℕ := 0
  rxNextHighest : ℕ := 0
deriving DecidableEq

/-- The calls to the upper layer and to the transmitter, and the metric of dropped SDUs. -/
inductive RxNotification where
  | newSdu (sdu : Bytes)
  /-- `metrics_add_lost_pdus`: a complete SDU could not be reassembled -/
  | lostPdu
  | statusPdu (status : StatusPdu)
  | statusReportChanged

/-- `rlc_rx_am_entity`. -/
structure RxAm where
  cfg : RxAmConfig
  st : RxAmState
  doStatus : Bool
  rxWindow : SduWindow RxAmSduInfo
  statusOwnedByWriter : StatusPdu
  statusForExchange : StatusPdu
  statusOwnedByReader : StatusPdu
  statusReportSize : ℕ
  statusProhibitTimerIsRunning : Bool
  reassemblyTimerRunning : Bool
  notifications : List RxNotification

namespace RxAm

def init (cfg : RxAmConfig) : RxAm where
  cfg := cfg
  st := {}
  doStatus := false
  rxWindow := CircularMap.empty cfg.snFieldLength.window cfg.snFieldLength.window_pos
  statusOwnedByWriter := StatusPdu.reset cfg.snFieldLength
  statusForExchange := { StatusPdu.reset cfg.snFieldLength with ackSn := 0 }
  statusOwnedByReader := StatusPdu.reset cfg.snFieldLength
  statusReportSize := (StatusPdu.reset cfg.snFieldLength).packedSize
  statusProhibitTimerIsRunning := false
  reassemblyTimerRunning := false
  notifications := []

def mod (s : RxAm) : ℕ := s.cfg.snFieldLength.mod

variable (s : RxAm)

def amWindowSize : ℕ := s.cfg.snFieldLength.window

def maxNofSnPerStatusReport : ℕ := s.cfg.maxSnPerStatus.getD s.amWindowSize

def notify (n : RxNotification) : RxAm := { s with notifications := s.notifications ++ [n] }

/-! ### Window helpers -/

variable (sn : ℕ)

/-- `rx_mod_base_nr`. -/
def rxModBase : ℕ := modSub (2 ^ 32) s.mod s.st.rxNext sn

def insideRxWindow : Bool := s.rxModBase sn < s.amWindowSize

def validAckSn : Bool := 0 < s.rxModBase sn && s.rxModBase sn ≤ s.amWindowSize

def isFullyReceived : Bool := (s.rxWindow.get? sn).any RxAmSduInfo.fullyReceived

def hasGap (s : RxAm) (sn : ℕ) : Bool := (s.rxWindow.get? sn).any RxAmSduInfo.hasGap

/-! ### The reception buffer -/

def ensureSn (w : SduWindow RxAmSduInfo) (sn : ℕ) : Except Abort (SduWindow RxAmSduInfo) :=
  if SduWindow.hasSn w sn then .ok w else SduWindow.addSn w sn {}

variable (header : AmPduHeader)

def handleFullDataSdu (payload : Bytes) : Except Abort (RxAm × Bool) := do
  let w ← ensureSn s.rxWindow header.sn
  .ok ({ s with rxWindow := w.modify header.sn fun _ =>
          { fullyReceived := true, hasGap := false, sduData := .slice payload } }, true)

/-- The segments of an SDU; a full SDU is replaced by an empty set. -/
def RxSduData.segmentSet : RxSduData → List SduSegment
  | .segments l => l
  | .slice _ => []

/-- The flags after a segment was stored. -/
def entryOfSegments (l : List SduSegment) : RxAmSduInfo where
  fullyReceived := (segmentInventory l).fullyReceived
  hasGap := (segmentInventory l).hasGap
  sduData := .segments l

def handleSegmentDataSdu (payload : Bytes) : Except Abort (RxAm × Bool) := do
  let w ← ensureSn s.rxWindow header.sn
  let info ← SduWindow.access w header.sn
  let old := RxSduData.segmentSet info.sduData
  let stored := storeSegment old { si := header.si, so := header.so, payload := payload }
  .ok ({ s with rxWindow := w.modify header.sn fun _ => entryOfSegments (stored.getD old) }, stored.isSome)

variable (mem : Option ℕ)

def reassembleSdu (info : RxAmSduInfo) : Option Bytes :=
  match info.sduData with
  | .slice payload => (ByteBufferChain.create mem).bind fun c => (c.append payload).map ByteBufferChain.bytes
  | .segments l => reassembleSegments mem l

/-- The loops that advance a state variable. -/
def firstIncomplete (s : RxAm) : ℕ → ℕ → ℕ
  | 0, sn => sn
  | fuel + 1, sn =>
    if s.rxModBase sn < s.rxModBase s.st.rxNextHighest ∧ s.isFullyReceived sn then
      firstIncomplete s fuel ((sn + 1) % s.mod)
    else sn

def removeReceived : ℕ → RxAm → ℕ → Except Abort (RxAm × ℕ)
  | 0, s, sn => .ok (s, sn)
  | fuel + 1, s, sn =>
    if s.rxModBase sn < s.rxModBase s.st.rxNextHighest ∧ s.isFullyReceived sn then do
      let w ← SduWindow.removeSn s.rxWindow sn
      removeReceived fuel { s with rxWindow := w } ((sn + 1) % s.mod)
    else .ok (s, sn)

def deliverSdu (sn : ℕ) (info : RxAmSduInfo) : RxAm :=
  let s :=
    match reassembleSdu mem info with
    | some sdu => s.notify (.newSdu sdu)
    | none => s.notify .lostPdu
  { s with rxWindow := s.rxWindow.modify sn fun i => { i with sduData := .slice [] } }

def updateHighestStatus : RxAm :=
  if s.rxModBase sn = s.rxModBase s.st.rxHighestStatus then
    { s with st := { s.st with
        rxHighestStatus := s.firstIncomplete s.mod ((s.st.rxHighestStatus + 1) % s.mod) } }
  else s

def updateRxNext : Except Abort RxAm :=
  if s.rxModBase sn = s.rxModBase s.st.rxNext then do
    let r ← removeReceived s.mod s (s.st.rxNext % s.mod)
    .ok { r.1 with st := { r.1.st with rxNext := r.2 } }
  else .ok s

/-- What follows when all bytes were received. -/
def completeSdu (sn : ℕ) : Except Abort RxAm :=
  match s.rxWindow.get? sn with
  | some info =>
    if info.fullyReceived then ((s.deliverSdu mem sn info).updateHighestStatus sn).updateRxNext sn
    else .ok s
  | none => .ok s

def updateNextHighest : RxAm :=
  if s.rxModBase sn ≥ s.rxModBase s.st.rxNextHighest then
    { s with st := { s.st with rxNextHighest := (sn + 1) % s.mod } }
  else s

/-! ### t-Reassembly -/

def startReassemblyTimer : Except Abort RxAm :=
  if s.cfg.tReassembly > 0 then
    .ok { s with reassemblyTimerRunning := true
                 st := { s.st with rxNextStatusTrigger := s.st.rxNextHighest } }
  else .error (.assertion "Calling timer::run with invalid duration")

/-- The second condition to stop the timer, with its access to the window. -/
def noGapAtRxNext : Except Abort Bool :=
  if s.rxModBase s.st.rxNextStatusTrigger = s.rxModBase (s.st.rxNext + 1) then do
    let info ← SduWindow.access s.rxWindow s.st.rxNext
    .ok (!info.hasGap)
  else .ok false

def stopReassemblyTimer : Except Abort RxAm :=
  if s.reassemblyTimerRunning then do
    let noGap ← s.noGapAtRxNext
    .ok { s with reassemblyTimerRunning :=
            !(s.st.rxNextStatusTrigger == s.st.rxNext || noGap || !s.insideRxWindow s.st.rxNextStatusTrigger) }
  else .ok s

/-- The conditions to start t-Reassembly. -/
def reassemblyPending : Bool :=
  s.rxModBase s.st.rxNextHighest > s.rxModBase (sn + 1) ||
    (s.rxModBase s.st.rxNextHighest == s.rxModBase (sn + 1) && s.hasGap sn)

def restartReassemblyTimer : Except Abort RxAm :=
  if !s.reassemblyTimerRunning && s.reassemblyPending sn then s.startReassemblyTimer else .ok s

/-! ### Status reports -/

def segmentNacks (sn : ℕ) : ℕ → Bool → List SduSegment → Except Abort (List StatusNack)
  | lastSo, haveLast, [] =>
    .ok (if haveLast then []
      else [{ nackSn := sn, hasSo := true, soStart := lastSo % 2 ^ 16, soEnd := soEndOfSdu }])
  | lastSo, haveLast, segm :: rest =>
    let nack : StatusNack :=
      { nackSn := sn, hasSo := true, soStart := lastSo % 2 ^ 16, soEnd := (2 ^ 16 - 1 + segm.so) % 2 ^ 16 }
    if segm.so ≠ lastSo ∧ nack.soStart > nack.soEnd then .error (.assertion "Invalid segment offsets in nack")
    else do
      let l ← segmentNacks sn (segm.so + segm.payload.length) (haveLast || segm.si = .lastSegment) rest
      .ok (if segm.so ≠ lastSo then nack :: l else l)

def nacksFor : Except Abort (List StatusNack) :=
  match s.rxWindow.get? sn with
  | none => .ok [{ nackSn := sn }]
  | some info =>
    if info.fullyReceived then .ok []
    else
      match info.sduData with
      | .segments l => segmentNacks sn 0 false l
      | .slice _ => .error (.assertion "Invalid sdu_data variant of incomplete SDU in rx_window")

/-- The loop of `refresh_status_report`. -/
def statusLoop (s : RxAm) (stopSn : ℕ) : ℕ → ℕ → StatusPdu → Except Abort StatusPdu
  | 0, _, status => .ok status
  | fuel + 1, sn, status =>
    if s.rxModBase sn < s.rxModBase stopSn then do
      let nacks ← s.nacksFor sn
      statusLoop s stopSn fuel ((sn + 1) % s.mod) (nacks.foldl StatusPdu.pushNack status)
    else .ok status

/-- A report stops at RX_Highest_Status, unless that visits too many SNs. -/
def statusStopSn : ℕ :=
  if s.rxModBase s.st.rxHighestStatus > s.rxModBase ((s.st.rxNext + s.maxNofSnPerStatusReport) % s.mod) then
    (s.st.rxNext + s.maxNofSnPerStatusReport) % s.mod
  else s.st.rxHighestStatus

def storeStatusReport (status : StatusPdu) : RxAm :=
  { s with
    statusReportSize := status.packedSize
    statusForExchange := status
    statusOwnedByWriter := s.statusForExchange }

def refreshStatusReport : Except Abort RxAm := do
  let status ← s.statusLoop s.statusStopSn s.mod s.st.rxNext (StatusPdu.reset s.cfg.snFieldLength)
  .ok (s.storeStatusReport { status with ackSn := s.statusStopSn })

def statusReportRequired : Bool := s.doStatus && !s.statusProhibitTimerIsRunning

def notifyStatusReportChanged : RxAm :=
  if s.statusReportRequired then s.notify .statusReportChanged else s

def getStatusPdu : RxAm × StatusPdu :=
  ({ s with
      doStatus := false
      statusProhibitTimerIsRunning := s.statusProhibitTimerIsRunning || s.cfg.tStatusProhibit > 0
      statusOwnedByReader := s.statusForExchange
      statusForExchange := s.statusOwnedByReader }, s.statusForExchange)

/-! ### PDUs from the lower layer -/

def storePdu (payload : Bytes) : Except Abort (RxAm × Bool) :=
  if header.si = .fullSdu then s.handleFullDataSdu header payload else s.handleSegmentDataSdu header payload

/-- What `handle_data_pdu` does with a PDU of the window. -/
def placePdu (header : AmPduHeader) (payload : Bytes) : Except Abort (RxAm × Bool) := do
  let r ← s.storePdu header payload
  let s ← (r.1.updateNextHighest header.sn).completeSdu mem header.sn
  let s ← s.stopReassemblyTimer
  let s ← s.restartReassemblyTimer s.st.rxNext
  .ok (s, r.2)

def finishPdu (statusChanged statusRequested : Bool) : Except Abort RxAm :=
  if statusChanged || statusRequested then do
    let s ← s.refreshStatusReport
    .ok { s with doStatus := s.doStatus || statusRequested }.notifyStatusReportChanged
  else .ok s

def handleDataPdu (buf : Bytes) : Except Abort RxAm :=
  match amReadDataPduHeader buf s.cfg.snFieldLength with
  | none => .ok s
  | some header =>
    if buf.length ≤ header.getPackedSize then .ok s
    else if !s.insideRxWindow header.sn || s.isFullyReceived header.sn then s.finishPdu false header.p
    else do
      let r ← s.placePdu mem header (buf.drop header.getPackedSize)
      r.1.finishPdu r.2 header.p

def handleControlPdu (buf : Bytes) : RxAm :=
  match StatusPdu.unpack s.cfg.snFieldLength buf with
  | some status => s.notify (.statusPdu status)
  | none => s

def handlePdu (buf : Bytes) : Except Abort RxAm :=
  if buf.isEmpty then .ok s
  else if StatusPdu.isControlPdu buf then .ok (s.handleControlPdu buf)
  else s.handleDataPdu mem buf

/-! ### Timers -/

def onExpiredStatusProhibitTimer : RxAm := { s with statusProhibitTimerIsRunning := false }.notifyStatusReportChanged

def finishExpiry : Except Abort RxAm := do
  let s ← s.restartReassemblyTimer s.st.rxHighestStatus
  let s ← s.refreshStatusReport
  .ok { s with doStatus := true }.notifyStatusReportChanged

def onExpiredReassemblyTimer : Except Abort RxAm :=
  if s.reassemblyTimerRunning then .ok s
  else if !s.validAckSn s.st.rxNextStatusTrigger then .ok s
  else
    let snUpd := s.firstIncomplete s.mod s.st.rxNextStatusTrigger
    if !s.validAckSn snUpd then .error (.assertion "Error: rx_highest_status outside RX window")
    else { s with st := { s.st with rxHighestStatus := snUpd } }.finishExpiry

end RxAm

end SrsRan.Rlc
