import SrsRan.Lib.Run
import SrsRan.Mac.DlSchPdu
import SrsRan.Support.Window

/-!
# DL logical channels of a UE

`dl_logical_channel_manager`: the buffer states of the bearers, their RAN slices, and the MAC control elements that wait for
transmission.  `slice_ue_repository` registers slices and assigns logical channels to them.

Sums of the `unsigned` counters are taken modulo `2 ^ 32`.  The order that `std::sort` leaves between channels of equal
priority is not specified: `configure` is given the sorted list.
-/

namespace SrsRan.Sched

open Mac Support

def lcidSrb0 : ℕ := 0
def lcidSrb1 : ℕ := 1
def lcidMaxDrb : ℕ := 32

def isSrb (lcid : ℕ) : Bool := lcid ≤ 3

def srbRanSliceId : ℕ := 0

def wrap32 (n : ℕ) : ℕ := n % 2 ^ 32

structure ChannelContext where
  active : Bool
  bufSt : ℕ
  sliceId : Option ℕ
deriving DecidableEq

def ChannelContext.reset (c : ChannelContext) : ChannelContext := { c with active := false, bufSt := 0 }

structure LogicalChannelConfig where
  lcid : ℕ
  qosPriority : Option ℕ
deriving DecidableEq

def getLcPrio (cfg : LogicalChannelConfig) : ℕ :=
  if isSrb cfg.lcid then (if cfg.lcid ≤ lcidSrb1 then 0 else 1) else cfg.qosPriority.getD 127

/-- The payload of a control element other than the contention resolution identity. -/
inductive CePayload where
  | taCmd (p : TaCmdCePayload)
  | dummy
deriving DecidableEq

structure MacCeInfo where
  ceLcid : ℕ
  cePayload : CePayload
deriving DecidableEq

def maxPendingCes : ℕ := 1024 * 5

/-- `dl_logical_channel_manager`. -/
structure DlLogicalChannelManager where
  channelConfigs : Option (List LogicalChannelConfig)
  channels : ℕ → ChannelContext
  sortedChannels : List ℕ
  sliceLcidListLookup : List (List ℕ)
  fallbackState : Bool
  pendingConResId : Bool
  pendingCes : List MacCeInfo

namespace DlLogicalChannelManager

variable (m : DlLogicalChannelManager)

variable (lcid : ℕ)

def modifyChannel (f : ChannelContext → ChannelContext) : DlLogicalChannelManager :=
  { m with channels := Function.update m.channels lcid (f (m.channels lcid)) }

variable (sliceId : ℕ)

def sliceLcids : List ℕ := m.sliceLcidListLookup.getD sliceId []

def hasSlice : Bool := !(m.sliceLcids sliceId).isEmpty

def isActive : Bool := lcid ≤ lcidMaxDrb && (m.channels lcid).active

/-! ### Queries -/

def hasPendingBytesLcid : Bool := (m.channels lcid).active && (m.channels lcid).bufSt > 0

def isConResIdPending : Bool := m.pendingConResId

def hasPendingCes : Bool := m.pendingConResId || !m.pendingCes.isEmpty

def hasPendingBytes : Bool :=
  if m.fallbackState then
    m.isConResIdPending || m.hasPendingBytesLcid lcidSrb0 || m.hasPendingBytesLcid lcidSrb1
  else
    m.hasPendingCes || m.sortedChannels.any fun lcid =>
      lcid ≠ lcidSrb0 && ((m.channels lcid).active && (m.channels lcid).bufSt > 0)

def hasPendingBytesSlice : Bool :=
  if m.fallbackState || !m.hasSlice sliceId then false
  else if (m.sliceLcids sliceId).any fun lcid => (m.channels lcid).active && (m.channels lcid).bufSt > 0 then true
  else if sliceId = srbRanSliceId && m.hasPendingCes then
    !(m.sortedChannels.any fun lcid => (m.channels lcid).sliceId ≠ some srbRanSliceId && m.hasPendingBytesLcid lcid)
  else false

def requiredBytes (n : ℕ) : ℕ := wrap32 (getMacSduRequiredBytes n)

/-- A sum in 32 bits. -/
def addUp (init : ℕ) (xs : List ℕ) : ℕ := xs.foldl (fun bytes x => wrap32 (bytes + x)) init

def pendingBytesLcid : ℕ := if m.isActive lcid then requiredBytes (m.channels lcid).bufSt else 0

def pendingConResCeBytes : ℕ :=
  if m.isConResIdPending then fixedSizedMacCeSubheaderSize + sizeofCe lcidUeConResId else 0

/-- No control element of the downlink has a variable length. -/
def ceBytes (ce : MacCeInfo) : ℕ := fixedSizedMacCeSubheaderSize + sizeofCe ce.ceLcid

def pendingCeBytes : ℕ := addUp m.pendingConResCeBytes (m.pendingCes.map ceBytes)

def pendingBytes : ℕ :=
  if m.fallbackState then
    wrap32 (wrap32 (m.pendingConResCeBytes + m.pendingBytesLcid lcidSrb0) + m.pendingBytesLcid lcidSrb1)
  else
    addUp m.pendingCeBytes
      (m.sortedChannels.map fun lcid => if lcid ≠ lcidSrb0 then m.pendingBytesLcid lcid else 0)

def totalPendingBytes : ℕ := addUp m.pendingCeBytes (m.sortedChannels.map m.pendingBytesLcid)

def sliceBearerBytes : ℕ :=
  addUp 0 ((m.sliceLcids sliceId).map fun lcid =>
    if (m.channels lcid).active then requiredBytes (m.channels lcid).bufSt else 0)

def pendingBytesSlice : ℕ :=
  if m.fallbackState || !m.hasSlice sliceId then 0
  else
    let totalBytes := m.sliceBearerBytes sliceId
    let ceBytes := m.pendingCeBytes
    if ceBytes > 0 then
      if totalBytes > 0 then wrap32 (totalBytes + ceBytes)
      else if sliceId = srbRanSliceId then
        if m.sortedChannels.any fun lcid => lcid > lcidSrb1 && m.pendingBytesLcid lcid > 0 then 0
        else ceBytes
      else totalBytes
    else totalBytes

/-! ### Configuration -/

def deactivate : DlLogicalChannelManager :=
  { m with
    channels := fun lcid =>
      if lcid ≤ lcidMaxDrb then { m.channels lcid with active := false } else m.channels lcid
    sortedChannels := []
    pendingCes := [] }

def setFallbackState (enterFallback : Bool) : DlLogicalChannelManager := { m with fallbackState := enterFallback }

def resetLcidRanSlice : DlLogicalChannelManager :=
  match (m.channels lcid).sliceId with
  | none => m
  | some sliceIdx =>
    { m.modifyChannel lcid (fun c => { c with sliceId := none }) with
      sliceLcidListLookup := m.sliceLcidListLookup.modify sliceIdx (·.erase lcid) }

def deregisterRanSlice : DlLogicalChannelManager :=
  if !m.hasSlice sliceId then m
  else
    { m with
      channels := fun lcid =>
        if lcid ∈ m.sliceLcids sliceId then { m.channels lcid with sliceId := none } else m.channels lcid
      sliceLcidListLookup := m.sliceLcidListLookup.modify sliceId fun _ => [] }

def registerRanSlice : DlLogicalChannelManager :=
  if m.sliceLcidListLookup.length ≤ sliceId then
    { m with
      sliceLcidListLookup := m.sliceLcidListLookup ++ List.replicate (sliceId + 1 - m.sliceLcidListLookup.length) [] }
  else m

def setLcidRanSlice (lcid sliceId : ℕ) : Except Abort DlLogicalChannelManager :=
  if ¬ sliceId < m.sliceLcidListLookup.length then .error (.assertion "Invalid slice ID")
  else if (m.channels lcid).sliceId = some sliceId then .ok m
  else
    let m := m.resetLcidRanSlice lcid
    .ok { m.modifyChannel lcid (fun c => { c with sliceId := some sliceId }) with
      sliceLcidListLookup := m.sliceLcidListLookup.modify sliceId (· ++ [lcid]) }

/-- The channels of the old configuration that the new one does not contain. -/
def removeOldChannels (cfgs : List LogicalChannelConfig) : DlLogicalChannelManager :=
  ((m.channelConfigs.getD []).filter fun c => !(cfgs.map (·.lcid)).contains c.lcid).foldl
    (fun m c => (m.resetLcidRanSlice c.lcid).modifyChannel c.lcid ChannelContext.reset) m

/-- `sorted` has the configured channels in the order of their priorities. -/
def IsSorted (cfgs : List LogicalChannelConfig) (sorted : List LogicalChannelConfig) : Prop :=
  sorted.Perm cfgs ∧ sorted.Pairwise fun a b => getLcPrio a ≤ getLcPrio b

instance (cfgs sorted : List LogicalChannelConfig) : Decidable (IsSorted cfgs sorted) := by
  unfold IsSorted
  infer_instance

def configure (cfgs sorted : List LogicalChannelConfig) : DlLogicalChannelManager :=
  let m' := m.removeOldChannels cfgs
  { m' with
    channelConfigs := some cfgs
    channels := fun lcid =>
      if lcid ∈ cfgs.map (·.lcid) then { m'.channels lcid with active := true } else m'.channels lcid
    sortedChannels := sorted.map (·.lcid) }

/-! ### Updates -/

def handleDlBufferStatusIndication (lcid bufferStatus : ℕ) : DlLogicalChannelManager :=
  m.modifyChannel lcid fun c => { c with bufSt := min bufferStatus (2 ^ 24) }

/-- A TA command replaces the first that waits. -/
def replaceTaCmd (p : CePayload) : List MacCeInfo → Option (List MacCeInfo)
  | [] => none
  | ce :: rest =>
    if ce.ceLcid = lcidTaCmd then some ({ ce with cePayload := p } :: rest)
    else (replaceTaCmd p rest).map (ce :: ·)

def handleMacCeIndication (ce : MacCeInfo) : Bool × DlLogicalChannelManager :=
  if ce.ceLcid = lcidUeConResId then (true, { m with pendingConResId := true })
  else
    match (if ce.ceLcid = lcidTaCmd then replaceTaCmd ce.cePayload m.pendingCes else none) with
    | some ces => (true, { m with pendingCes := ces })
    | none =>
      if maxPendingCes ≤ m.pendingCes.length then (false, m)
      else (true, { m with pendingCes := m.pendingCes ++ [ce] })

/-- The first channel in the order that has data. -/
def getMaxPrioLcid : Option ℕ := m.sortedChannels.find? m.hasPendingBytesLcid

def getMacSduSize (sduAndSubheaderBytes : ℕ) : ℕ :=
  if sduAndSubheaderBytes = 0 then 0
  else
    let sduSize := sduAndSubheaderBytes - minMacSduSubheaderSize
    if sduSize < macSduSubheaderLengthThres then sduSize else sduSize - 1

/-- The bytes of an allocation, with leftover bytes too few for another subPDU. -/
def allocBytes (lchBytes remBytes : ℕ) (last : Bool) : ℕ :=
  let alloc := min remBytes (requiredBytes lchBytes)
  let leftoverBytes := remBytes - alloc
  let alloc :=
    if leftoverBytes > 0 && (leftoverBytes ≤ maxMacSduSubheaderSize + 1 || last) then alloc + leftoverBytes
    else alloc
  if alloc = macSduSubheaderLengthThres + minMacSduSubheaderSize then alloc - 1 else alloc

def allocateMacSduLcid (lcid remBytes : ℕ) : (ℕ × ℕ) × DlLogicalChannelManager :=
  let lchBytes := m.pendingBytesLcid lcid
  if lchBytes = 0 ∨ remBytes ≤ minMacSduSubheaderSize then ((0, 0), m)
  else
    let alloc := allocBytes lchBytes remBytes (m.totalPendingBytes = 0)
    let sduSize := getMacSduSize alloc
    let bufSt := (m.channels lcid).bufSt - min sduSize (m.channels lcid).bufSt
    -- the overhead of the RLC segmentation
    let bufSt := if lcid ≠ lcidSrb0 ∧ bufSt > 0 then wrap32 (bufSt + 4) else bufSt
    ((alloc, sduSize), m.modifyChannel lcid fun c => { c with bufSt := bufSt })

def allocateMacSdu (remBytes : ℕ) (lcid : Option ℕ) : (ℕ × ℕ) × DlLogicalChannelManager :=
  match (lcid.orElse fun _ => m.getMaxPrioLcid) with
  | none => ((0, 0), m)
  | some lcid => m.allocateMacSduLcid lcid remBytes

def allocateUeConResIdMacCe (remBytes : ℕ) : ℕ × DlLogicalChannelManager :=
  if !m.isConResIdPending then (0, m)
  else if remBytes < sizeofCe lcidUeConResId + fixedSizedMacCeSubheaderSize then (0, m)
  else (sizeofCe lcidUeConResId + fixedSizedMacCeSubheaderSize, { m with pendingConResId := false })

def allocateMacCe (remBytes : ℕ) : (ℕ × Option MacCeInfo) × DlLogicalChannelManager :=
  let r := m.allocateUeConResIdMacCe remBytes
  if r.1 > 0 then ((r.1, none), r.2)
  else
    match m.pendingCes with
    | [] => ((0, none), m)
    | ce :: rest =>
      if remBytes < ceBytes ce then ((0, none), m)
      else ((ceBytes ce, some ce), { m with pendingCes := rest })

end DlLogicalChannelManager

/-! ### The manager and the slice repositories -/

/-- The calls of the manager. -/
inductive DlLcAction where
  | configure (cfgs sorted : List LogicalChannelConfig)
  | deactivate
  | setFallbackState (enterFallback : Bool)
  | addLogicalChannel (lcid sliceId : ℕ)
  | addUe (sliceId : ℕ)
  | remLogicalChannel (lcid sliceId : ℕ)
  | remUe (sliceId : ℕ)
  | bufferStatus (lcid bytes : ℕ)
  | macCe (ce : MacCeInfo)
  | allocateMacSdu (remBytes : ℕ) (lcid : Option ℕ)
  | allocateMacCe (remBytes : ℕ)
  | allocateConRes (remBytes : ℕ)

namespace DlLogicalChannelManager

def init (startsInFallback : Bool) : DlLogicalChannelManager where
  channelConfigs := none
  channels _ := { active := false, bufSt := 0, sliceId := none }
  sortedChannels := []
  sliceLcidListLookup := []
  fallbackState := startsInFallback
  pendingConResId := false
  pendingCes := []

variable (m : DlLogicalChannelManager)

def addLogicalChannel (lcid sliceId : ℕ) : Except Abort DlLogicalChannelManager :=
  if lcid = lcidSrb0 then .ok m else (m.registerRanSlice sliceId).setLcidRanSlice lcid sliceId

def remLogicalChannel (lcid sliceId : ℕ) : DlLogicalChannelManager :=
  if (m.channels lcid).sliceId ≠ some sliceId then m
  else
    let m := m.resetLcidRanSlice lcid
    if !m.hasSlice sliceId then m.deregisterRanSlice sliceId else m

def step : DlLcAction → Except Abort DlLogicalChannelManager
  | .configure cfgs sorted => .ok (m.configure cfgs sorted)
  | .deactivate => .ok m.deactivate
  | .setFallbackState b => .ok (m.setFallbackState b)
  | .addLogicalChannel lcid sliceId => m.addLogicalChannel lcid sliceId
  | .addUe sliceId => .ok (m.registerRanSlice sliceId)
  | .remLogicalChannel lcid sliceId => .ok (m.remLogicalChannel lcid sliceId)
  | .remUe sliceId => .ok (m.deregisterRanSlice sliceId)
  | .bufferStatus lcid bytes => .ok (m.handleDlBufferStatusIndication lcid bytes)
  | .macCe ce => .ok (m.handleMacCeIndication ce).2
  | .allocateMacSdu remBytes lcid => .ok (m.allocateMacSdu remBytes lcid).2
  | .allocateMacCe remBytes => .ok (m.allocateMacCe remBytes).2
  | .allocateConRes remBytes => .ok (m.allocateUeConResIdMacCe remBytes).2

end DlLogicalChannelManager

end SrsRan.Sched
