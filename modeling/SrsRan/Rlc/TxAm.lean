import SrsRan.Pdcp.Config
import SrsRan.Rlc.AmPdu
import SrsRan.Rlc.RetxQueue
import SrsRan.Rlc.SduQueue

/-!
# `rlc_tx_am_entity`

The transmitting side of an RLC AM entity, function by function.  What it tells the upper and the lower layer is appended to
`notifications`; `sduLog` is a history, the SDUs taken out of the SDU queue so far.  A function that performs an unguarded
`tx_window[sn]` access, or another assertion, returns in `Except Abort`.  Logging, metrics, PCAP and the recycling of buffers
are left out.
-/

namespace SrsRan.Rlc

open Support Lib.SeqNum Pdcp

structure TxAmConfig where
  snFieldLength : AmSnSize
  pdcpSnLen : PdcpSnSize
  /-- t-PollRetransmit in ms; the timer is used only when it is positive -/
  tPollRetx : ℤ
  maxRetxThresh : ℕ
  pollPdu : ℤ
  pollByte : ℤ
  queueSize : ℕ
  queueSizeBytes : ℕ
  maxWindow : ℕ
deriving DecidableEq

structure TxAmSduInfo where
  sdu : Bytes
  isRetx : Bool
  pdcpSn : Option ℕ
  timeOfArrival : ℕ
  nextSo : ℕ := 0
  /-- `none` is `RETX_COUNT_NOT_STARTED` -/
  retxCount : Option ℕ := none
deriving DecidableEq

def TxAmSduInfo.ofSdu (sdu : Sdu) : TxAmSduInfo :=
  { sdu := sdu.buf, isRetx := sdu.isRetx, pdcpSn := sdu.pdcpSn, timeOfArrival := sdu.timeOfArrival }

/-- The state variables of TS 38.322. -/
structure TxAmState where
  txNextAck : ℕ := 0
  txNext : ℕ := 0
  pollSn : ℕ := 0
  pduWithoutPoll : ℕ := 0
  byteWithoutPoll : ℕ := 0
deriving DecidableEq

structure BufferState where
  pendingBytes : ℕ := 0
  holToa : Option ℕ := none
deriving DecidableEq

/-- The calls of `rlc_tx_am_entity` to the upper and the lower layer. -/
inductive TxNotification where
  | transmittedSdu (pdcpSn desiredBufSize : ℕ)
  | retransmittedSdu (pdcpSn : ℕ)
  | deliveredSdu (pdcpSn : ℕ)
  | deliveredRetransmittedSdu (pdcpSn : ℕ)
  | protocolFailure
  | maxRetx
  | bufferStateUpdate (bs : BufferState)
deriving DecidableEq

/-- `rlc_tx_am_entity`. -/
structure TxAm where
  cfg : TxAmConfig
  isSrb : Bool
  st : TxAmState
  sduQueue : SduQueue
  /-- `none` is `INVALID_RLC_SN` -/
  snUnderSegmentation : Option ℕ
  retxQueue : RetxQueue
  /-- the most recent retransmission since the last status report -/
  retxSn : Option ℕ
  txWindow : SduWindow TxAmSduInfo
  pollRetransmitTimerRunning : Bool
  isPollRetransmitTimerExpired : Bool
  prevBufferState : BufferState
  suspendBsNotifBarring : Bool
  pendingBufferState : Bool
  maxRetxReached : Bool
  notifications : List TxNotification
  /-- history: the SDUs read from the SDU queue, in order -/
  sduLog : List Sdu

namespace TxAm

def init (cfg : TxAmConfig) (isSrb : Bool) : TxAm where
  cfg := cfg
  isSrb := isSrb
  st := {}
  sduQueue := SduQueue.empty cfg.queueSize cfg.queueSizeBytes
  snUnderSegmentation := none
  retxQueue := RetxQueue.empty cfg.snFieldLength.window
  retxSn := none
  txWindow := CircularMap.empty cfg.snFieldLength.window cfg.snFieldLength.window_pos
  pollRetransmitTimerRunning := false
  isPollRetransmitTimerExpired := false
  prevBufferState := {}
  suspendBsNotifBarring := true
  pendingBufferState := false
  maxRetxReached := false
  notifications := []
  sduLog := []

def mod (s : TxAm) : ℕ := s.cfg.snFieldLength.mod

variable (s : TxAm)

def amWindowSize : ℕ := s.cfg.snFieldLength.window

def headMinSize : ℕ := amPduHeaderMinSize s.cfg.snFieldLength

def headMaxSize : ℕ := amPduHeaderMaxSize s.cfg.snFieldLength

/-- `tx_mod_base_nr`. -/
def txModBase (x : ℕ) : ℕ := modSub (2 ^ 32) s.mod s.st.txNextAck x

def notify (n : TxNotification) : TxAm := { s with notifications := s.notifications ++ [n] }

/-! ### Window helpers -/

variable (sn : ℕ)

def insideTxWindow : Bool := s.txModBase sn < s.amWindowSize

def isTxWindowFull : Bool := s.txWindow.full || (s.cfg.maxWindow ≠ 0 && s.txModBase s.st.txNext > s.cfg.maxWindow)

def validAckSn : Bool := 0 < s.txModBase sn && s.txModBase sn ≤ s.amWindowSize

variable (nack : StatusNack)

def nackRangeLast : ℕ := (2 ^ 32 - 1 + (nack.nackSn + nack.nackRange)) % 2 ^ 32

/-- `valid_nack`; the second component tells whether a protocol failure is reported. -/
def validNack (ackSn : ℕ) (nack : StatusNack) : Bool × Bool :=
  if s.txModBase nack.nackSn ≥ s.txModBase ackSn then (false, false)
  else if nack.hasNackRange && s.txModBase (nackRangeLast nack) ≥ s.txModBase ackSn then (false, false)
  else if !s.insideTxWindow nack.nackSn then (false, false)
  else if nack.hasNackRange && !s.insideTxWindow (nackRangeLast nack) then (false, false)
  else if s.txModBase nack.nackSn > s.txModBase s.st.txNext then (false, true)
  else if nack.hasNackRange && s.txModBase (nackRangeLast nack) > s.txModBase s.st.txNext then (false, true)
  else (true, false)

/-! ### Buffer state -/

def maxDlPduLength : ℕ := 156 * 275 * 4

/-- Drops retransmissions whose SN is not in the window; the fuel is the size. -/
def dropStaleRetx (w : SduWindow TxAmSduInfo) : ℕ → RetxQueue → RetxQueue
  | 0, q => q
  | fuel + 1, q =>
    match q.front with
    | some retx => if SduWindow.hasSn w retx.sn then q else dropStaleRetx w fuel q.pop
    | none => q

def cleanQueues : TxAm :=
  { s with
    sduQueue := if s.snUnderSegmentation.isNone then s.sduQueue.front.2 else s.sduQueue
    retxQueue := dropStaleRetx s.txWindow s.retxQueue.size s.retxQueue }

def segmentBytes : ℕ :=
  match s.snUnderSegmentation.bind s.txWindow.get? with
  | some info => info.sdu.length - info.nextSo + s.headMaxSize
  | none => 0

def retxBytes (s : TxAm) : ℕ :=
  s.retxQueue.st.retxBytes + s.retxQueue.st.nRetxSoZero * s.headMinSize + s.retxQueue.st.nRetxSoNonzero * s.headMaxSize

/-- The arrival time of the head of the line. -/
def holToa : Option ℕ :=
  match s.cleanQueues.retxQueue.front.bind fun retx => s.txWindow.get? retx.sn with
  | some info => some info.timeOfArrival
  | none =>
    match s.snUnderSegmentation with
    | some sn => (s.txWindow.get? sn).map TxAmSduInfo.timeOfArrival
    | none => s.sduQueue.front.1.map Sdu.timeOfArrival

variable (statusPduLength : Option ℕ)

/-- `get_buffer_state`; `statusPduLength` if a status report is required. -/
def getBufferState : BufferState × TxAm :=
  let pendingBytes := s.sduQueue.nBytes + s.sduQueue.nSdus * s.headMinSize + s.segmentBytes +
    s.retxBytes + statusPduLength.getD 0
  ({ pendingBytes := pendingBytes, holToa := s.holToa }, { s.cleanQueues with
      suspendBsNotifBarring := s.suspendBsNotifBarring || pendingBytes ≤ maxDlPduLength })

def holToaLt : Option ℕ → Option ℕ → Bool
  | none, some _ => true
  | some a, some b => a < b
  | _, none => false

def updateMacBufferState (forceNotify : Bool) : TxAm :=
  let r := { s with pendingBufferState := false }.getBufferState statusPduLength
  let s :=
    if forceNotify || r.1.pendingBytes ≤ maxDlPduLength ||
        r.2.prevBufferState.pendingBytes ≤ maxDlPduLength || r.2.suspendBsNotifBarring ||
        holToaLt r.1.holToa r.2.prevBufferState.holToa then
      { r.2 with suspendBsNotifBarring := false }.notify (.bufferStateUpdate r.1)
    else r.2
  { s with prevBufferState := r.1 }

/-! ### SDUs from the upper layer -/

/-- `handle_sdu`; the flag `pendingBufferState` records the deferred `handle_changed_buffer_state`. -/
def handleSdu (now : ℕ) (buf : Bytes) (isRetx : Bool) : TxAm :=
  let sdu : Sdu :=
    { buf := buf
      isRetx := isRetx && !s.isSrb
      pdcpSn := getPdcpSn buf s.cfg.pdcpSnLen s.isSrb
      timeOfArrival := now }
  match s.sduQueue.write sdu with
  | some q => { s with sduQueue := q, pendingBufferState := true }
  | none => s

def discardSdu (pdcpSn : ℕ) : TxAm :=
  match s.sduQueue.tryDiscard pdcpSn with
  | some q => { s with sduQueue := q, pendingBufferState := true }
  | none => s

/-! ### Building PDUs -/

def nothingToSend : Bool :=
  (s.sduQueue.isEmpty && s.retxQueue.isEmpty && s.snUnderSegmentation.isNone) || s.isTxWindowFull

/-- PDU_WITHOUT_POLL and BYTE_WITHOUT_POLL. -/
def countPdu (payloadSize : ℕ) : TxAm :=
  { s with st := { s.st with pduWithoutPoll := s.st.pduWithoutPoll + 1,
                             byteWithoutPoll := s.st.byteWithoutPoll + payloadSize } }

def pollRequired (isRetx : Bool) : Bool :=
  (!isRetx && ((s.cfg.pollPdu > 0 && s.st.pduWithoutPoll ≥ s.cfg.pollPdu.toNat) ||
    (s.cfg.pollByte > 0 && s.st.byteWithoutPoll ≥ s.cfg.pollByte.toNat))) ||
  s.nothingToSend || s.isPollRetransmitTimerExpired

def getPollingBit (isRetx : Bool) (payloadSize : ℕ) : TxAm × Bool :=
  let s := if isRetx then s else s.countPdu payloadSize
  let poll := s.pollRequired isRetx
  ({ s with
      st := if poll then
          { s.st with
            pduWithoutPoll := 0
            byteWithoutPoll := 0
            pollSn := if isRetx then s.st.pollSn else sn }
        else s.st
      isPollRetransmitTimerExpired := false
      pollRetransmitTimerRunning := (poll && s.cfg.tPollRetx > 0) || s.pollRetransmitTimerRunning }, poll)

def dataHeader (p : Bool) (si : SiField) (sn so : ℕ) : AmPduHeader :=
  { dc := .data, p := p, si := si, snSize := s.cfg.snFieldLength, sn := sn, so := so % 2 ^ 16 }

def copySegments (sdu : Bytes) (hdr : AmPduHeader) (len grantLen : ℕ) : Bytes :=
  (slice sdu hdr.so len).take (grantLen - (amWriteDataPduHeader hdr).length)

def advanceNextSo (sn len : ℕ) : TxAm :=
  { s with txWindow := s.txWindow.modify sn fun i => { i with nextSo := i.nextSo + len } }

def advanceTxNext : TxAm := { s with st := { s.st with txNext := (s.st.txNext + 1) % s.mod } }

variable (grantLen : ℕ)

def buildFirstSduSegment (info : TxAmSduInfo) : TxAm × Bytes :=
  if info.sdu.length + s.headMinSize ≤ grantLen then (s, [])
  else if grantLen ≤ s.headMinSize then (s, [])
  else
    let segmentPayloadLen := grantLen - s.headMinSize
    -- saved before the polling bit is computed, which looks at it
    let s := { s with snUnderSegmentation := some s.st.txNext }
    let r := s.getPollingBit s.st.txNext false segmentPayloadLen
    let hdr := s.dataHeader r.2 .firstSegment s.st.txNext info.nextSo
    let payload := copySegments info.sdu hdr segmentPayloadLen grantLen
    if payload.length = 0 ∨ payload.length ≠ segmentPayloadLen then (r.1, [])
    else (r.1.advanceNextSo s.st.txNext segmentPayloadLen, amWriteDataPduHeader hdr ++ payload)

def buildContinuedSduSegment (grantLen segSn : ℕ) (info : TxAmSduInfo) : TxAm × Bytes :=
  if info.nextSo = 0 then ({ s with snUnderSegmentation := none }, [])
  else if info.nextSo ≥ info.sdu.length then ({ s with snUnderSegmentation := none }, [])
  else if grantLen ≤ s.headMaxSize then (s, [])
  else
    let remaining := info.sdu.length - info.nextSo
    let last := remaining + s.headMaxSize ≤ grantLen
    let segmentPayloadLen := if last then remaining else grantLen - s.headMaxSize
    let si := if last then SiField.lastSegment else SiField.middleSegment
    let s := if last then { s with snUnderSegmentation := none } else s
    let r := s.getPollingBit s.st.txNext false segmentPayloadLen
    let hdr := s.dataHeader r.2 si s.st.txNext info.nextSo
    let payload := copySegments info.sdu hdr segmentPayloadLen grantLen
    if payload.length = 0 ∨ payload.length ≠ segmentPayloadLen then (r.1, [])
    else
      let s := r.1.advanceNextSo segSn segmentPayloadLen
      (if last then s.advanceTxNext else s, amWriteDataPduHeader hdr ++ payload)

def notifyTransfer (sdu : Sdu) : TxAm :=
  match sdu.pdcpSn with
  | some sn =>
    if sdu.isRetx then s.notify (.retransmittedSdu sn)
    else s.notify (.transmittedSdu sn s.cfg.queueSizeBytes)
  | none => s

def buildFullSduPdu (info : TxAmSduInfo) : TxAm × Bytes :=
  -- the buffer of the local `sdu` has been moved into the window: its length is 0 here
  let r := s.getPollingBit s.st.txNext false 0
  let hdr := s.dataHeader r.2 .fullSdu s.st.txNext 0
  let payload := copySegments info.sdu hdr info.sdu.length grantLen
  if payload.length = 0 then (r.1, [])
  else (r.1.advanceTxNext, amWriteDataPduHeader hdr ++ payload)

def buildNewPdu : Except Abort (TxAm × Bytes) :=
  if grantLen ≤ s.headMinSize then .ok (s, [])
  else if s.isTxWindowFull then .ok (s, [])
  else
    match s.sduQueue.read with
    | (none, q) => .ok ({ s with sduQueue := q }, [])
    | (some sdu, q) => do
      let info := TxAmSduInfo.ofSdu sdu
      let w ← SduWindow.addSn s.txWindow s.st.txNext info
      let s := { s with sduQueue := q, txWindow := w, sduLog := s.sduLog ++ [sdu] }.notifyTransfer sdu
      .ok (if info.sdu.length + s.headMinSize > grantLen then s.buildFirstSduSegment grantLen info
        else s.buildFullSduPdu grantLen info)

def getRetxExpectedHdrLen (retx : AmdRetx) : ℕ :=
  if retx.so = 0 then s.headMinSize else s.headMaxSize

def retxSi (so : ℕ) (sduComplete : Bool) : SiField :=
  if so = 0 then (if sduComplete then .fullSdu else .firstSegment)
  else (if sduComplete then .lastSegment else .middleSegment)

def updateRetx (retx : AmdRetx) (info : TxAmSduInfo) (payloadLen : ℕ) : TxAm :=
  { s with
    maxRetxReached := s.maxRetxReached ||
      (payloadLen = retx.length && info.retxCount = some s.cfg.maxRetxThresh)
    retxQueue :=
      if payloadLen = retx.length then s.retxQueue.pop
      else s.retxQueue.replaceFront
        { retx with so := retx.so + payloadLen, length := retx.length - payloadLen } }

def emitRetx (retx : AmdRetx) (info : TxAmSduInfo) (payloadLen : ℕ) : Except Abort (TxAm × Bytes) :=
  let r := s.getPollingBit retx.sn true 0
  let si := retxSi retx.so (retx.so + payloadLen ≥ info.sdu.length)
  let hdr := s.dataHeader r.2 si retx.sn retx.so
  if (amWriteDataPduHeader hdr).length ≠ s.getRetxExpectedHdrLen retx then
    .error (.assertion "RETX header_len differs from expected_hdr_len")
  else
    let payload := copySegments info.sdu hdr payloadLen grantLen
    .ok (r.1, if payload.length = 0 ∨ payload.length ≠ payloadLen then []
      else amWriteDataPduHeader hdr ++ payload)

def buildRetxOf (retx : AmdRetx) (info : TxAmSduInfo) : Except Abort (TxAm × Bytes) :=
  let s := { s with retxSn := some retx.sn }
  if retx.so + retx.length > info.sdu.length then .ok ({ s with retxQueue := s.retxQueue.pop }, [])
  else if grantLen ≤ s.getRetxExpectedHdrLen retx then .ok (s, [])
  else
    let payloadLen := min retx.length (grantLen - s.getRetxExpectedHdrLen retx)
    (s.updateRetx retx info payloadLen).emitRetx grantLen retx info payloadLen

def buildRetxPdu : Except Abort (TxAm × Bytes) :=
  let s := { s with retxQueue := dropStaleRetx s.txWindow s.retxQueue.size s.retxQueue }
  match s.retxQueue.front with
  | none => .ok (s, [])
  | some retx => do
    let info ← SduWindow.access s.txWindow retx.sn
    s.buildRetxOf grantLen retx info

variable (status : StatusPdu)

def pullStatusPdu (grantLen : ℕ) : Bytes :=
  if grantLen < statusPduSizeofHeaderAckSn then []
  else if status.packedSize > grantLen then
    match status.trim grantLen with
    | some trimmed => trimmed.pack
    | none => []
  else status.pack

def pullPdu (status : Option StatusPdu) (grantLen : ℕ) : Except Abort (TxAm × Bytes) :=
  if s.maxRetxReached then .ok (s, [])
  else
    match status with
    | some status => .ok (s, pullStatusPdu status grantLen)
    | none =>
      if !s.retxQueue.isEmpty then s.buildRetxPdu grantLen
      else
        match s.snUnderSegmentation.map fun sn => (sn, s.txWindow.get? sn) with
        | some (sn, some info) => .ok (s.buildContinuedSduSegment grantLen sn info)
        | _ =>
          let s := { s with snUnderSegmentation := none }
          if s.sduQueue.isEmpty then .ok (s, []) else s.buildNewPdu grantLen

/-! ### Retransmission counters -/

def checkSnReachedMaxRetx : Except Abort TxAm := do
  let info ← SduWindow.access s.txWindow sn
  .ok (if info.retxCount = some s.cfg.maxRetxThresh then s.notify .maxRetx else s)

def incCount : Option ℕ → Option ℕ
  | none => some 0
  | some n => some (n + 1)

def decCount : Option ℕ → Option ℕ
  | none => none
  | some 0 => none
  | some (n + 1) => some n

def incrementRetxCount : Except Abort TxAm := do
  let _ ← SduWindow.access s.txWindow sn
  { s with txWindow := s.txWindow.modify sn fun i => { i with retxCount := incCount i.retxCount } }.checkSnReachedMaxRetx sn

def decrementRetxCount : Except Abort TxAm := do
  let _ ← SduWindow.access s.txWindow sn
  .ok { s with txWindow := s.txWindow.modify sn fun i => { i with retxCount := decCount i.retxCount } }

/-! ### Status PDUs -/

/-- The checks of a report before it is processed. -/
def validNacks (s : TxAm) (ackSn : ℕ) : List StatusNack → Bool × Bool
  | [] => (true, false)
  | n :: rest =>
    let r := s.validNack ackSn n
    if r.1 then validNacks s ackSn rest else r

/-- The ACK loop, with `max_deliv_pdcp_sn`, `max_deliv_retx_pdcp_sn` and the fuel `mod`. -/
def ackLoop : ℕ → TxAm → ℕ → ℕ → Option ℕ → Option ℕ → Except Abort (TxAm × Option ℕ × Option ℕ)
  | 0, s, _, _, delivered, deliveredRetx => .ok (s, delivered, deliveredRetx)
  | fuel + 1, s, sn, stopSn, delivered, deliveredRetx =>
    if s.txModBase sn < s.txModBase stopSn then
      match s.txWindow.get? sn with
      | some info => do
        let w ← SduWindow.removeSn s.txWindow sn
        let s := { s with txWindow := w, st := { s.st with txNextAck := (sn + 1) % s.mod } }
        if info.isRetx then
          ackLoop fuel s ((sn + 1) % s.mod) stopSn delivered (info.pdcpSn.or deliveredRetx)
        else ackLoop fuel s ((sn + 1) % s.mod) stopSn (info.pdcpSn.or delivered) deliveredRetx
      | none => .ok (s, delivered, deliveredRetx)
    else .ok (s, delivered, deliveredRetx)

def notifyDelivered (delivered deliveredRetx : Option ℕ) : TxAm :=
  let s :=
    match delivered with
    | some sn => s.notify (.deliveredSdu sn)
    | none => s
  match deliveredRetx with
  | some sn => s.notify (.deliveredRetransmittedSdu sn)
  | none => s

def rewindRetxCount : Except Abort TxAm :=
  if s.retxSn = some sn then .ok s
  else if SduWindow.hasSn s.txWindow sn then
    (s.decrementRetxCount sn).map fun s => { s with retxSn := some sn }
  else .ok { s with retxSn := some sn }

def clearRetxQueue : ℕ → TxAm → Except Abort TxAm
  | 0, s => .ok s
  | fuel + 1, s =>
    match s.retxQueue.front with
    | none => .ok s
    | some retx => do
      let s ← s.rewindRetxCount retx.sn
      clearRetxQueue fuel { s with retxQueue := s.retxQueue.pop }

/-- The NACK of one SN of the range: the first takes `so_start`, the last `so_end`. -/
def rangeItem (mod : ℕ) (nack : StatusNack) (rangeSn : ℕ) : StatusNack :=
  if nack.hasSo then
    let soStart := if rangeSn = nack.nackSn then nack.soStart else 0
    let soEnd := if rangeSn = (nack.nackSn + nack.nackRange - 1) % mod then nack.soEnd else soEndOfSdu
    { nackSn := rangeSn
      soStart := soStart
      soEnd := soEnd
      hasSo := soStart ≠ 0 || soEnd ≠ soEndOfSdu }
  else { nackSn := rangeSn }

/-- The NACKs that a NACK stands for. A range is truncated at `ack_sn`. -/
def expandNack (mod ackSn : ℕ) (nack : StatusNack) : List StatusNack :=
  if nack.hasNackRange then
    (((List.range nack.nackRange).map fun i => (nack.nackSn + i) % mod).takeWhile (· ≠ ackSn)).map
      (rangeItem mod nack)
  else [nack]

def predU16 (x : ℕ) : ℕ := (2 ^ 16 - 1 + x) % 2 ^ 16

/-- The range of a NACK, if it is admitted. -/
def nackBounds (info : TxAmSduInfo) (underSegmentation : Bool) : Option (ℕ × ℕ) :=
  let soStart := if nack.hasSo then nack.soStart else 0
  let soEnd := if nack.hasSo then nack.soEnd else predU16 info.sdu.length
  if soEnd = soEndOfSdu then
    if !underSegmentation then some (soStart, predU16 info.sdu.length)
    else if info.nextSo = 0 then none
    else if soStart > info.nextSo then none
    else if soStart = info.nextSo then none
    else some (soStart, predU16 info.nextSo)
  else some (soStart, soEnd)

def sanitizeBounds (soStart soEnd sduLength : ℕ) : ℕ × ℕ × ℕ :=
  let (a, f1) := if soStart > soEnd then (0, 1) else (soStart, 0)
  let (a, f2) := if a ≥ sduLength then (0, 1) else (a, 0)
  -- here `on_protocol_failure` is called directly and deferred
  let (e, f3) := if soEnd ≥ sduLength then (predU16 sduLength, 2) else (soEnd, 0)
  (a, e, f1 + f2 + f3)

def notifyFailures (n : ℕ) : TxAm := { s with notifications := s.notifications ++ List.replicate n .protocolFailure }

def handleNack : Except Abort (TxAm × Bool) :=
  if nack.hasNackRange then .ok (s, false)
  else if ¬(s.txModBase s.st.txNextAck ≤ s.txModBase nack.nackSn ∧
      s.txModBase nack.nackSn ≤ s.txModBase s.st.txNext) then .ok (s, false)
  else do
    let info ← SduWindow.access s.txWindow nack.nackSn
    match nackBounds nack info (s.snUnderSegmentation = some nack.nackSn) with
    | none => .ok (s, false)
    | some (soStart, soEnd) =>
      let b := sanitizeBounds soStart soEnd info.sdu.length
      let s := s.notifyFailures b.2.2
      match s.retxQueue.tryPush { sn := nack.nackSn, so := b.1, length := b.2.1 + 1 - b.1 } with
      | some q => .ok ({ s with retxQueue := q }, true)
      | none => .ok (s, false)

def nackLoop : List StatusNack → TxAm → Option ℕ → Except Abort TxAm
  | [], s, _ => .ok s
  | nack :: rest, s, prevRetxSn => do
    let r ← s.handleNack nack
    if r.2 && prevRetxSn ≠ some nack.nackSn then do
      let s ← r.1.incrementRetxCount nack.nackSn
      nackLoop rest s (some nack.nackSn)
    else nackLoop rest r.1 prevRetxSn

/-- The sanity checks of `handle_status_pdu`, and whether a protocol failure is reported. -/
def statusAccepted : Bool × Bool :=
  if !s.validAckSn status.ackSn then (false, false)
  else if s.txModBase status.ackSn > s.txModBase (s.st.txNext + 1) then (false, true)
  else s.validNacks status.ackSn status.nacks

def stopSn : ℕ :=
  match status.nacks with
  | [] => status.ackSn
  | n :: _ => n.nackSn

def processStatus (statusPduLength : Option ℕ) : Except Abort TxAm := do
  let s :=
    if s.txModBase s.st.pollSn < s.txModBase status.ackSn then { s with pollRetransmitTimerRunning := false }
    else s
  let r ← ackLoop s.mod s s.st.txNextAck (stopSn status) none none
  let s := r.1.notifyDelivered r.2.1 r.2.2
  let s ← clearRetxQueue s.retxQueue.size s
  let s := { s with retxSn := none }
  let s ← nackLoop (status.nacks.flatMap (expandNack s.mod status.ackSn)) s none
  .ok (s.updateMacBufferState statusPduLength true)

def handleStatusPdu (statusPduLength : Option ℕ) : Except Abort TxAm :=
  let r := s.statusAccepted status
  if r.1 then s.processStatus status statusPduLength
  else .ok (if r.2 then s.notify .protocolFailure else s)

/-! ### t-PollRetransmit -/

def retransmitFirst (info : TxAmSduInfo) : Except Abort TxAm :=
  match s.retxQueue.tryPush { sn := s.st.txNextAck, so := 0, length := info.sdu.length } with
  | some q => TxAm.incrementRetxCount { s with retxQueue := q } s.st.txNextAck
  | none => .ok s

/-- `on_expired_poll_retransmit_timer`, after the timer has stopped. -/
def onExpiredPollRetransmitTimer : Except Abort TxAm :=
  let s := { s with pollRetransmitTimerRunning := false }
  if s.nothingToSend then
    if s.txWindow.isEmpty then .ok s
    else
      match s.txWindow.get? s.st.txNextAck with
      | none => .ok s
      | some info => do
        let s ← s.retransmitFirst info
        .ok { (s.updateMacBufferState statusPduLength true) with isPollRetransmitTimerExpired := true }
  else .ok { s with isPollRetransmitTimerExpired := true }

end TxAm

end SrsRan.Rlc
