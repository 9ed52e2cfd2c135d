import SrsRan.Lib.Ledger
import SrsRan.Lib.Post
import SrsRan.Phy.LdpcSegmenter
import SrsRan.Support.SlotPoint

/-!
# Receive buffers of uplink HARQ processes

`rx_buffer_pool_impl`: one thread calls `reserve` and `run_slot`; a reserved buffer is locked for its holder, and the threads
of the decoder write to it, unlock it or release it.

A step is one operation on the queue of free codeblocks or on the state of a buffer; what the thread that owns a buffer
does to it in between is part of the step.  `weak` says that an operation fails without a reason.  `left` and `data` are
histories: what the last transmission has left, and what the bits of a codeblock were decoded for.
-/

namespace SrsRan.Phy

open Lib Lib.Run Support
open Function (update)

structure BufferId where
  rnti : UInt16
  harq : UInt8
deriving DecidableEq

/-- `rx_buffer_pool_config`, with the slots after which a slot point repeats -/
structure RxBufferPoolConfig where
  nofBuffers : ℕ
  nofCodeblocks : ℕ
  expireTimeoutSlots : ℕ
  nofSlots : ℕ
deriving DecidableEq

inductive RxBufferState where
  | available
  | reserved
  | locked
deriving DecidableEq

/-- `rx_buffer_impl`. -/
structure RxBuffer where
  currentState : RxBufferState
  crc : List Bool
  codeblockIds : List ℕ
  /-- the number of codeblocks that a running `free` has given back -/
  freed : ℕ
  /-- the holder runs `release` -/
  releasing : Bool
deriving DecidableEq

def RxBuffer.owned (b : RxBuffer) : List ℕ := b.codeblockIds.drop b.freed

structure RxReserve where
  slot : ℕ
  id : BufferId
  nofCodeblocks : ℕ
  newData : Bool
deriving DecidableEq

/-- What a transmission leaves: the codeblocks and their CRC flags. -/
abbrev RxContent := List ℕ × List Bool

inductive RxPoolPhase where
  | idle
  /-- in `rx_buffer_impl::reserve`, with what the last transmission had left -/
  | reserving (r : RxReserve) (i : ℕ) (before : Option RxContent)
  /-- in `free` after a codeblock could not be reserved -/
  | failing (i : ℕ)
  /-- in `run_slot`, before a buffer -/
  | running (slot i : ℕ)
  /-- in `free` of `expire` -/
  | expiring (slot i : ℕ)
deriving DecidableEq

def RxPoolPhase.target : RxPoolPhase → Option ℕ
  | .idle => none
  | .reserving _ i _ => some i
  | .failing i => some i
  | .running _ _ => none
  | .expiring _ i => some i

/-- A successful call of `reserve`, with the content of the buffer that is returned. -/
structure RxGrant where
  request : RxReserve
  before : Option RxContent
  content : RxContent
deriving DecidableEq

inductive RxPoolFault where
  | unlock
  | release
  | codeblockIndex
  | capacity
deriving DecidableEq

/-- `rx_buffer_pool_impl`, with its calls. -/
structure RxBufferPool where
  stopped : Bool
  freeList : List ℕ
  buffers : ℕ → RxBuffer
  identifiers : ℕ → Option BufferId
  expirations : ℕ → Option ℕ
  phase : RxPoolPhase
  /-- the buffers of the valid `unique_rx_buffer` objects -/
  holders : List ℕ
  /-- what the bits of a codeblock were decoded for -/
  data : ℕ → Option (BufferId × ℕ)
  /-- the number of reservations for new data -/
  generation : BufferId → ℕ
  left : BufferId → Option RxContent
  /-- the codeblocks of a buffer when it was locked -/
  granted : ℕ → List ℕ
  grants : List RxGrant

/-- The steps of pool and holders. -/
inductive RxPoolAction where
  | reserve (r : RxReserve)
  | runSlot (slot : ℕ)
  | poolStep (weak : Bool)
  | stop
  | decode (i j : ℕ) (ok : Bool)
  | resetCodeblocksCrc (i : ℕ)
  | unlock (i : ℕ)
  | release (i : ℕ)
  | releaseStep (i : ℕ)
deriving DecidableEq

namespace RxBufferPool

variable (cfg : RxBufferPoolConfig)

def init : RxBufferPool where
  stopped := false
  freeList := List.range cfg.nofCodeblocks
  buffers := fun _ => ⟨.available, [], [], 0, false⟩
  identifiers := fun _ => none
  expirations := fun _ => none
  phase := .idle
  holders := []
  data := fun _ => none
  generation := fun _ => 0
  left := fun _ => none
  granted := fun _ => []
  grants := []

variable (s : RxBufferPool)

variable (i : ℕ)

def setBuffer (b : RxBuffer) : RxBufferPool := { s with buffers := update s.buffers i b }

def findIdentifier (id : Option BufferId) : Option ℕ := (List.range cfg.nofBuffers).find? fun i => s.identifiers i = id

def slotLe (a b : ℕ) : Bool := a = b || slotLt cfg.nofSlots a b

def resize (crc : List Bool) (n : ℕ) : List Bool := crc.take n ++ List.replicate (n - crc.length) false

variable (r : RxReserve)

/-- The buffer of `reserve` is found: the checks before its codeblocks change. -/
def startReserve (i : ℕ) : RxBufferPool :=
  if !r.newData && r.nofCodeblocks ≠ (s.buffers i).crc.length then s
  else if (s.buffers i).currentState = .locked then s
  else
    { s with
      phase := .reserving r i (s.left r.id)
      left := if r.newData then update s.left r.id none else s.left }

def reserve : RxBufferPool :=
  if s.phase ≠ .idle then s
  else if s.stopped then s
  else
    match s.findIdentifier cfg (some r.id) with
    | some i => s.startReserve r i
    | none =>
      if r.newData then
        match s.findIdentifier cfg none with
        | some i => s.startReserve r i
        | none => s
      else s

def tryPop (weak : Bool) : Option (ℕ × List ℕ) :=
  if weak then none
  else
    match s.freeList with
    | [] => none
    | cbId :: rest => some (cbId, rest)

/-- Gives one codeblock back. -/
def freeStep : RxBufferPool :=
  { s.setBuffer i { s.buffers i with freed := (s.buffers i).freed + 1 } with
    freeList := s.freeList ++ [(s.buffers i).codeblockIds.getD (s.buffers i).freed 0] }

/-- The end of the two `reserve`: the flags, the identifier and `try_lock`. -/
def finishReserve (i : ℕ) (before : Option RxContent) (weak : Bool) : RxBufferPool :=
  let b := s.buffers i
  let crc := if r.newData then List.replicate r.nofCodeblocks false else resize b.crc r.nofCodeblocks
  { s.setBuffer i { b with crc, currentState := if weak then .reserved else .locked } with
    identifiers := update s.identifiers i (some r.id)
    expirations := update s.expirations i (some (slotAdd cfg.nofSlots r.slot cfg.expireTimeoutSlots))
    generation := if r.newData then update s.generation r.id (s.generation r.id + 1) else s.generation
    phase := .idle
    -- a buffer that is not locked keeps what was reserved
    left := if weak then update s.left r.id (some (b.codeblockIds, crc)) else s.left
    holders := if weak then s.holders else i :: s.holders
    granted := if weak then s.granted else update s.granted i b.codeblockIds
    grants := if weak then s.grants else s.grants ++ [⟨r, before, b.codeblockIds, crc⟩] }

/-- Takes one codeblock; `weak` is a spurious failure. -/
def reserveStep (i : ℕ) (before : Option RxContent) (weak : Bool) : Except RxPoolFault RxBufferPool :=
  let b := s.buffers i
  if b.codeblockIds.length > r.nofCodeblocks then
    .ok { s.setBuffer i { b with codeblockIds := b.codeblockIds.dropLast } with
          freeList := s.freeList ++ [b.codeblockIds.getLastD 0] }
  else if b.codeblockIds.length < r.nofCodeblocks then
    match s.tryPop weak with
    | some (cbId, rest) =>
      if b.codeblockIds.length ≥ Ldpc.maxNofSegments then .error .capacity
      else .ok { s.setBuffer i { b with codeblockIds := b.codeblockIds ++ [cbId] } with freeList := rest }
    | none => .ok { s with phase := .failing i, left := update s.left r.id none }
  else .ok (s.finishReserve cfg r i before weak)

def finishFailing : RxBufferPool :=
  { s.setBuffer i { s.buffers i with codeblockIds := [], freed := 0, currentState := .available } with phase := .idle }

def finishExpiring (slot i : ℕ) : RxBufferPool :=
  { s.setBuffer i { s.buffers i with codeblockIds := [], freed := 0 } with
    identifiers := update s.identifiers i none
    expirations := update s.expirations i none
    phase := .running slot (i + 1) }

/-- `run_slot` for one buffer. -/
def runStep (slot i : ℕ) (weak : Bool) : RxBufferPool :=
  let next : RxBufferPool := { s with phase := .running slot (i + 1) }
  if i ≥ cfg.nofBuffers then { s with phase := .idle }
  else
    match s.identifiers i with
    | none => next
    | some id =>
      if (s.buffers i).currentState = .locked then
        { next with
          expirations := update s.expirations i (some (slotAdd cfg.nofSlots slot cfg.expireTimeoutSlots)) }
      else if (s.expirations i).any fun e => slotLe cfg e slot then
        if (s.buffers i).currentState = .reserved && !weak then
          { s.setBuffer i { s.buffers i with currentState := .available } with
            phase := .expiring slot i
            left := update s.left id none }
        else next
      else if (s.buffers i).currentState = .available then
        { next with
          identifiers := update s.identifiers i none
          expirations := update s.expirations i none }
      else next

def poolStep (weak : Bool) : Except RxPoolFault RxBufferPool :=
  match s.phase with
  | .idle => .ok s
  | .reserving r i before => s.reserveStep cfg r i before weak
  | .failing i =>
    if (s.buffers i).freed < (s.buffers i).codeblockIds.length then .ok (s.freeStep i) else .ok (s.finishFailing i)
  | .running slot i => .ok (s.runStep cfg slot i weak)
  | .expiring slot i =>
    if (s.buffers i).freed < (s.buffers i).codeblockIds.length then .ok (s.freeStep i)
    else .ok (s.finishExpiring slot i)

/-- The holder has not begun to give the buffer back. -/
def Usable : Prop := i ∈ s.holders ∧ (s.buffers i).releasing = false

instance (i : ℕ) : Decidable (s.Usable i) := inferInstanceAs (Decidable (_ ∧ _))

def decode (i j : ℕ) (ok : Bool) : Except RxPoolFault RxBufferPool :=
  if s.Usable i ∧ j < (s.buffers i).crc.length then
    match (s.buffers i).codeblockIds[j]? with
    | none => .error .codeblockIndex
    | some cbId =>
      if (s.buffers i).crc.getD j false then .ok s
      else
        .ok { s.setBuffer i { s.buffers i with crc := (s.buffers i).crc.set j ok } with
              data := update s.data cbId ((s.identifiers i).map fun id => (id, s.generation id)) }
  else .ok s

def resetCodeblocksCrc : RxBufferPool :=
  if s.Usable i then
    s.setBuffer i { s.buffers i with crc := List.replicate (s.buffers i).crc.length false }
  else s

/-- The last transmission of the identifier of a buffer leaves `content`. -/
def leave (content : Option RxContent) : BufferId → Option RxContent :=
  match s.identifiers i with
  | none => s.left
  | some id => update s.left id content

def unlock (i : ℕ) : Except RxPoolFault RxBufferPool :=
  if s.Usable i then
    if (s.buffers i).currentState ≠ .locked then .error .unlock
    else
      .ok { s.setBuffer i { s.buffers i with currentState := .reserved } with
            holders := s.holders.erase i
            left := s.leave i (some ((s.buffers i).codeblockIds, (s.buffers i).crc)) }
  else .ok s

def release : RxBufferPool :=
  if s.Usable i then
    { s.setBuffer i { s.buffers i with releasing := true } with left := s.leave i none }
  else s

def releaseStep : Except RxPoolFault RxBufferPool :=
  if i ∈ s.holders ∧ (s.buffers i).releasing = true then
    if (s.buffers i).freed < (s.buffers i).codeblockIds.length then .ok (s.freeStep i)
    else if (s.buffers i).currentState ≠ .locked then .error .release
    else
      .ok { s.setBuffer i
              { s.buffers i with codeblockIds := [], freed := 0, releasing := false, currentState := .available } with
            holders := s.holders.erase i }
  else .ok s

def step : RxPoolAction → Except RxPoolFault RxBufferPool
  | .reserve r => .ok (s.reserve cfg r)
  | .runSlot slot => .ok (if s.phase = .idle then { s with phase := .running slot 0 } else s)
  | .poolStep weak => s.poolStep cfg weak
  | .stop => .ok { s with stopped := true }
  | .decode i j ok => s.decode i j ok
  | .resetCodeblocksCrc i => .ok (s.resetCodeblocksCrc i)
  | .unlock i => s.unlock i
  | .release i => .ok (s.release i)
  | .releaseStep i => s.releaseStep i

/-! ### Buffers keep their identity -/

/-- The flagged codeblocks were decoded since the last reservation for new data. -/
def Decoded (b : RxBuffer) (id : BufferId) : Prop :=
  ∀ j : ℕ, b.crc[j]? = some true → ∃ cbId, b.codeblockIds[j]? = some cbId ∧ s.data cbId = some (id, s.generation id)

/-- Buffers and codeblocks have one holder, and keep what was decoded into them. -/
structure Identity : Prop where
  codeblocks : ∀ cbId < cfg.nofCodeblocks,
    s.freeList.count cbId + ∑ i ∈ Finset.range cfg.nofBuffers, (s.buffers i).owned.count cbId = 1
  oneEntry : ∀ i j id, i < cfg.nofBuffers → j < cfg.nofBuffers → s.identifiers i = some id → s.identifiers j = some id →
    i = j
  oneHolder : s.holders.Nodup ∧ ∀ i, i ∈ s.holders ↔ i < cfg.nofBuffers ∧ (s.buffers i).currentState = .locked
  /-- the thread of the pool does not change a locked buffer -/
  notLocked : ∀ i, s.phase.target = some i → (s.buffers i).currentState ≠ .locked
  unchanged : ∀ i, s.Usable i → (s.buffers i).codeblockIds = s.granted i
  /-- a retransmission gets what the last transmission has left -/
  retransmission : ∀ g ∈ s.grants, g.request.newData = false → g.before = some g.content
  decoded : ∀ i, s.Usable i → ∃ id, s.identifiers i = some id ∧ s.Decoded (s.buffers i) id
  /-- the only assertion that can fail is the capacity of a static vector -/
  asserted : ∀ a f, s.step cfg a = .error f → f = .capacity

/-- No retransmission meets a buffer that was given back. -/
def Cond : RxPoolAction → Prop
  | .reserve r => r.newData = false → ∀ i ∈ s.findIdentifier cfg (some r.id), (s.buffers i).currentState ≠ .available
  | _ => True

end RxBufferPool

end SrsRan.Phy
