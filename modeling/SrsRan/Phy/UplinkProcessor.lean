import SrsRan.Lib.Post
import SrsRan.Phy.UplinkSlotRepository

/-!
# The uplink processor

`uplink_processor_impl` with its slot repository, as threads that interleave at their accesses to the state word: one
requests the repository for slot after slot, others call `handle_rx_symbol`, the tasks of the PDUs run in executors, and
`stop` is called at any time.

PDUs are numbered in the order in which they are added; a collection of PUCCH Format 1 PDUs has one number.  A loop that
exchanges the word for a value that depends only on the word is one step; the discard of a slot is not such a loop.
-/

namespace SrsRan.Phy.Uplink

open Lib Lib.Run PendingPduCount List

/-! ### PDUs -/

inductive PduKind where
  | pucch
  | pucchF1
  | pusch
  | srs
deriving DecidableEq

def maxNsymbPerSlot : ℕ := 14

def maxUesPerCollection : ℕ := 128

namespace PduKind

def capacity : PduKind → ℕ
  | pucch => 128
  | pucchF1 => 128
  | pusch => 16
  | srs => 32

def next : PduKind → Option PduKind
  | pucch => some pucchF1
  | pucchF1 => some pusch
  | pusch => some srs
  | srs => none

end PduKind

structure UplinkPdu (Config : Type) where
  kind : PduKind
  endSymbolIndex : ℕ
  commonConfig : Config
deriving DecidableEq

/-- A PDU, or a collection of Format 1 PDUs. -/
structure Entry (Config : Type) where
  /-- history: the number in the slot -/
  number : ℕ
  commonConfig : Config
  nofUes : ℕ
deriving DecidableEq

/-! ### The threads -/

inductive OwnerPc (Config : Type) where
  | none
  /-- in `start_discard_slot`, before the exchange -/
  | loaded (currentState nofPendingPduInQueue : ℕ)
  /-- in `discard_slot`, before the PDUs of a kind and symbol are fetched -/
  | discardFetch (symbol : ℕ) (kind : PduKind)
  /-- in `discard_slot`, with the PDUs of the kind and symbol that are left -/
  | discardPdus (symbol : ℕ) (kind : PduKind) (rest : List (Entry Config))
  | discardEnd
  | reserving
  /-- in `reserve_on_new_slot`, before the entries are cleared -/
  | clearing
  | adding
  /-- has added a PDU, and not counted it -/
  | pushed
  /-- in `finish_adding_pdus`, before the reference counter is set -/
  | finishing
deriving DecidableEq

/-- Where the thread is that has locked the state in `handle_rx_symbol`. -/
inductive HandlerPc (Config : Type) where
  /-- before the PDUs of a kind are fetched -/
  | fetch (endProcessedSymbol : ℕ) (kind : PduKind)
  /-- with the PDUs that are left -/
  | pdus (endProcessedSymbol : ℕ) (kind : PduKind) (rest : List (Entry Config))
  /-- has called `on_create_pdu_task` for a PDU -/
  | created (endProcessedSymbol : ℕ) (kind : PduKind) (entry : Entry Config) (rest : List (Entry Config))
  /-- the task could not be enqueued -/
  | dropping (endProcessedSymbol : ℕ) (kind : PduKind) (entry : Entry Config) (rest : List (Entry Config))
  | unlock
deriving DecidableEq

/-- The processor, with its handlers. -/
structure Processor (Config : Type) where
  word : ℕ
  repository : PduKind → ℕ → List (Entry Config)
  nofProcessedSymbols : ℕ
  gridRefCounter : ℕ
  owner : OwnerPc Config
  handler : Option (HandlerPc Config)
  /-- threads that have got the slot processor and have not called `handle_rx_symbol` -/
  callers : ℕ
  tasks : List ℕ
  /-- history: the number of PDUs and collections that were added in the current slot -/
  added : ℕ
  /-- history: the numbers of the PDUs that are finished, in this order -/
  finished : List ℕ

/-- The steps of owner and handlers. -/
inductive Action (Config : Type) where
  | getPduSlotRepository
  /-- an attempt of the exchange in `start_discard_slot` -/
  | exchangeDiscard
  | owner
  | addPdu (pdu : UplinkPdu Config)
  | finishAddingPdus
  | copyGrid
  | releaseGrid
  | getSlotProcessor
  /-- `handle_rx_symbol`: the lock -/
  | handleRxSymbol (endSymbolIndex : ℕ)
  | handler
  | enqueue (success : Bool)
  | complete (i : ℕ)
  | stop
deriving DecidableEq

inductive Fault where
  | notEnabled
  | lockedTwice
  | unexpectedState (state : ℕ)
  | invalidEndSymbol
  | fullRepository
deriving DecidableEq

namespace Processor

variable {Config : Type} [DecidableEq Config]

def init : Processor Config where
  word := idle
  repository := fun _ _ => []
  nofProcessedSymbols := 0
  gridRefCounter := 0
  owner := .none
  handler := none
  callers := 0
  tasks := []
  added := 0
  finished := []

variable (s : Processor Config)

def getPdus (kind : PduKind) (symbol : ℕ) : List (Entry Config) :=
  if hasStatePendingPduInQueue s.word then s.repository kind symbol else []

def onFinishProcessingPdu (number : ℕ) : Except Fault (Processor Config) :=
  if canFinishPdu s.word then
    .ok { s with word := fetchSub s.word (incQueue + incExec), finished := s.finished ++ [number] }
  else .error (.unexpectedState s.word)

/-! ### The thread that requests the repository -/

/-- `start_discard_slot` after a load, with the number of PDUs of the first one -/
def evaluateDiscard (nofPendingPduInQueue : ℕ) : Processor Config :=
  if skipDiscard s.word then { s with owner := .reserving }
  else { s with owner := .loaded s.word nofPendingPduInQueue }

def getPduSlotRepository : Processor Config :=
  if s.gridRefCounter ≠ 0 then s else s.evaluateDiscard (s.word &&& 0xfff)

def discardSymbol (symbol : ℕ) : Processor Config :=
  if symbol ≠ maxNsymbPerSlot then { s with owner := .discardFetch symbol .pucch } else { s with owner := .discardEnd }

def exchangeDiscard (currentState nofPendingPduInQueue : ℕ) : Processor Config :=
  if s.word = currentState then
    { s with word := discarding currentState nofPendingPduInQueue }.discardSymbol s.nofProcessedSymbols
  else s.evaluateDiscard nofPendingPduInQueue

def finishDiscardSlot : Except Fault (Processor Config) :=
  if isDiscarded s.word then .ok { s with word := idle, owner := .reserving } else .error (.unexpectedState s.word)

def reserveOnNewSlot : Processor Config :=
  if s.word = idle then { s with word := acceptingPduMask, owner := .clearing } else { s with owner := .none }

def clear : Processor Config :=
  { s with repository := fun _ _ => [], nofProcessedSymbols := 0, owner := .adding, added := 0, finished := [] }

def incrementPendingPduCount : Except Fault (Processor Config) :=
  if isStateAcceptingPdu s.word then .ok { s with word := fetchAdd s.word incQueue, owner := .adding }
  else .error (.unexpectedState s.word)

/-- The next access of the owner. -/
def ownerStep : OwnerPc Config → Except Fault (Processor Config)
  | .discardFetch symbol kind => .ok { s with owner := .discardPdus symbol kind (s.getPdus kind symbol) }
  | .discardPdus symbol kind (entry :: rest) => do
    let s ← s.onFinishProcessingPdu entry.number
    return { s with owner := .discardPdus symbol kind rest }
  | .discardPdus symbol kind [] =>
    match kind.next with
    | some kind => .ok { s with owner := .discardFetch symbol kind }
    | none => .ok (s.discardSymbol (symbol + 1))
  | .discardEnd => s.finishDiscardSlot
  | .reserving => .ok s.reserveOnNewSlot
  | .clearing => .ok s.clear
  | .pushed => s.incrementPendingPduCount
  | .finishing => .ok { s with gridRefCounter := 1, owner := .none }
  | _ => .error .notEnabled

variable (pdu : UplinkPdu Config)

def pushBack : Processor Config :=
  { s with
    repository := fun kind symbol =>
      if kind = pdu.kind ∧ symbol = pdu.endSymbolIndex then s.repository kind symbol ++ [⟨s.added, pdu.commonConfig, 1⟩]
      else s.repository kind symbol
    owner := .pushed
    added := s.added + 1 }

/-- A Format 1 PDU is added to the first collection with its configuration. -/
def addToCollection (commonConfig : Config) : List (Entry Config) → Option (List (Entry Config) × ℕ)
  | [] => none
  | entry :: rest =>
    if entry.commonConfig = commonConfig then some ({ entry with nofUes := entry.nofUes + 1 } :: rest, entry.nofUes)
    else (addToCollection commonConfig rest).map fun r => (entry :: r.1, r.2)

def collectionOf : Option (List (Entry Config) × ℕ) :=
  match pdu.kind with
  | .pucchF1 => addToCollection pdu.commonConfig (s.repository .pucchF1 pdu.endSymbolIndex)
  | _ => none

def hasRoom : Bool :=
  match s.collectionOf pdu with
  | some (_, nofUes) => nofUes < maxUesPerCollection
  | none => (s.repository pdu.kind pdu.endSymbolIndex).length < pdu.kind.capacity

def addPdu : Except Fault (Processor Config) :=
  if pdu.endSymbolIndex < maxNsymbPerSlot then
    if s.hasRoom pdu then
      match s.collectionOf pdu with
      | some (collections, _) =>
        .ok { s with repository := fun kind symbol =>
                if kind = .pucchF1 ∧ symbol = pdu.endSymbolIndex then collections else s.repository kind symbol }
      | none => .ok (s.pushBack pdu)
    else .error .fullRepository
  else .error .invalidEndSymbol

def finishAddingPdus : Except Fault (Processor Config) :=
  if isStateAcceptingPdu s.word then .ok { s with word := s.word ^^^ acceptingPduMask, owner := .finishing }
  else .error (.unexpectedState s.word)

/-! ### The threads that handle symbols -/

def handleSymbol (endProcessedSymbol : ℕ) : Processor Config :=
  if s.nofProcessedSymbols ≠ endProcessedSymbol then { s with handler := some (.fetch endProcessedSymbol .pucch) }
  else { s with handler := some .unlock }

def handleRxSymbol (endSymbolIndex : ℕ) : Except Fault (Processor Config) :=
  if skipHandleRxSymbol s.word then .ok s
  else
    match s.handler with
    | some _ => .error .lockedTwice
    | none =>
      let s := { s with word := s.word ||| lockedMask }
      if endSymbolIndex < s.nofProcessedSymbols then .ok { s with handler := some .unlock }
      else .ok (s.handleSymbol (min (endSymbolIndex + 1) maxNsymbPerSlot))

def onCreatePduTask (endProcessedSymbol : ℕ) (kind : PduKind) (entry : Entry Config) (rest : List (Entry Config)) :
    Except Fault (Processor Config) :=
  if isStateStopped s.word then .ok { s with handler := some (.pdus endProcessedSymbol kind rest) }
  else if canCreateTask s.word then
    .ok { s with word := fetchAdd s.word incExec, handler := some (.created endProcessedSymbol kind entry rest) }
  else .error (.unexpectedState s.word)

def finishHandleRxSymbol : Except Fault (Processor Config) :=
  if isStateLocked s.word then .ok { s with word := s.word ^^^ lockedMask, handler := none }
  else .error (.unexpectedState s.word)

/-- The next access of a handler of symbols. -/
def handlerStep : HandlerPc Config → Except Fault (Processor Config)
  | .fetch endProcessedSymbol kind =>
    .ok { s with handler := some (.pdus endProcessedSymbol kind (s.getPdus kind s.nofProcessedSymbols)) }
  | .pdus endProcessedSymbol kind (entry :: rest) => s.onCreatePduTask endProcessedSymbol kind entry rest
  | .pdus endProcessedSymbol kind [] =>
    match kind.next with
    | some kind => .ok { s with handler := some (.fetch endProcessedSymbol kind) }
    | none => .ok ({ s with nofProcessedSymbols := s.nofProcessedSymbols + 1 }.handleSymbol endProcessedSymbol)
  | .created _ _ _ _ => .error .notEnabled
  | .dropping endProcessedSymbol kind entry rest => do
    let s ← s.onFinishProcessingPdu entry.number
    return { s with handler := some (.pdus endProcessedSymbol kind rest) }
  | .unlock => s.finishHandleRxSymbol

def enqueue (success : Bool) : Except Fault (Processor Config) :=
  match s.handler with
  | some (.created endProcessedSymbol kind entry rest) =>
    if success then
      .ok { s with tasks := s.tasks ++ [entry.number], handler := some (.pdus endProcessedSymbol kind rest) }
    else .ok { s with handler := some (.dropping endProcessedSymbol kind entry rest) }
  | _ => .error .notEnabled

def complete (i : ℕ) : Except Fault (Processor Config) :=
  match s.tasks[i]? with
  | some number => do
    let s ← s.onFinishProcessingPdu number
    return { s with tasks := s.tasks.eraseIdx i }
  | none => .error .notEnabled

def step : Action Config → Except Fault (Processor Config)
  | .getPduSlotRepository =>
    match s.owner with
    | .none => .ok s.getPduSlotRepository
    | _ => .error .notEnabled
  | .exchangeDiscard =>
    match s.owner with
    | .loaded currentState nofPendingPduInQueue => .ok (s.exchangeDiscard currentState nofPendingPduInQueue)
    | _ => .error .notEnabled
  | .owner => s.ownerStep s.owner
  | .addPdu pdu =>
    match s.owner with
    | .adding => s.addPdu pdu
    | _ => .error .notEnabled
  | .finishAddingPdus =>
    match s.owner with
    | .adding => s.finishAddingPdus
    | _ => .error .notEnabled
  | .copyGrid =>
    if 0 < s.gridRefCounter then .ok { s with gridRefCounter := s.gridRefCounter + 1 } else .error .notEnabled
  | .releaseGrid =>
    if 0 < s.gridRefCounter then .ok { s with gridRefCounter := s.gridRefCounter - 1 } else .error .notEnabled
  | .getSlotProcessor => .ok (if isReadyToProcess s.word then { s with callers := s.callers + 1 } else s)
  | .handleRxSymbol endSymbolIndex =>
    if 0 < s.callers then { s with callers := s.callers - 1 }.handleRxSymbol endSymbolIndex else .error .notEnabled
  | .handler =>
    match s.handler with
    | some pc => s.handlerStep pc
    | none => .error .notEnabled
  | .enqueue success => s.enqueue success
  | .complete i => s.complete i
  | .stop => .ok (if stopWaits s.word then s else { s with word := stopped })

end Processor

/-! ### What the processor is for -/

section Purpose

variable {Config : Type} [DecidableEq Config]

namespace OwnerPc

def isAdding : OwnerPc Config → Bool
  | .clearing | .adding | .pushed => true
  | _ => false

def isDiscarding : OwnerPc Config → Bool
  | .discardFetch _ _ | .discardPdus _ _ _ | .discardEnd => true
  | _ => false

def uncounted : OwnerPc Config → ℕ
  | .pushed => 1
  | _ => 0

end OwnerPc

def HandlerPc.running : HandlerPc Config → List ℕ
  | .created _ _ entry _ | .dropping _ _ entry _ => [entry.number]
  | _ => []

namespace Processor

variable (s : Processor Config)

def running : List ℕ := s.tasks ++ s.handler.elim [] HandlerPc.running

end Processor

variable (s : Processor Config)

/-- The PDUs that are added have room in the static vectors and in the counter. -/
def Within : Action Config → Prop
  | .addPdu pdu => pdu.endSymbolIndex < maxNsymbPerSlot ∧ s.added < 4095 ∧ s.hasRoom pdu = true
  | _ => True

/-- An exchange that succeeds has loaded the number of PDUs that are in the queue. -/
def LoadedQueue : OwnerPc Config → Prop
  | .loaded currentState nofPendingPduInQueue => s.word = currentState → s.word &&& 0xfff = nofPendingPduInQueue
  | _ => True

/-- The PDUs have room, no symbol is handled meanwhile, the discard finds the number it has loaded, and the processor is
not stopped before. -/
def Cond : Action Config → Prop
  | .addPdu pdu => Within s (.addPdu pdu)
  | .handleRxSymbol _ => skipHandleRxSymbol s.word = true ∨ isStateAcceptingPdu s.word = false
  | .exchangeDiscard => LoadedQueue s s.owner
  | .stop => stopWaits s.word = true ∨ hasStatePendingPduInQueue s.word = false
  | _ => True

instance (s : Processor Config) : (a : Action Config) → Decidable (Within s a)
  | .addPdu pdu =>
    inferInstanceAs (Decidable (pdu.endSymbolIndex < maxNsymbPerSlot ∧ s.added < 4095 ∧ s.hasRoom pdu = true))
  | .getPduSlotRepository | .exchangeDiscard | .owner | .finishAddingPdus | .copyGrid | .releaseGrid | .getSlotProcessor
  | .handleRxSymbol _ | .handler | .enqueue _ | .complete _ | .stop => .isTrue trivial

instance (s : Processor Config) : (owner : OwnerPc Config) → Decidable (LoadedQueue s owner)
  | .loaded currentState nofPendingPduInQueue =>
    inferInstanceAs (Decidable (s.word = currentState → s.word &&& 0xfff = nofPendingPduInQueue))
  | .none | .discardFetch _ _ | .discardPdus _ _ _ | .discardEnd | .reserving | .clearing | .adding | .pushed
  | .finishing => .isTrue trivial

instance (s : Processor Config) : (a : Action Config) → Decidable (Cond s a)
  | .addPdu pdu => inferInstanceAs (Decidable (Within s (.addPdu pdu)))
  | .handleRxSymbol _ =>
    inferInstanceAs (Decidable (skipHandleRxSymbol s.word = true ∨ isStateAcceptingPdu s.word = false))
  | .exchangeDiscard => inferInstanceAs (Decidable (LoadedQueue s s.owner))
  | .stop => inferInstanceAs (Decidable (stopWaits s.word = true ∨ hasStatePendingPduInQueue s.word = false))
  | .getPduSlotRepository | .owner | .finishAddingPdus | .copyGrid | .releaseGrid | .getSlotProcessor
  | .handler | .enqueue _ | .complete _ => .isTrue trivial

end Purpose

/-! ### The PDUs that are left -/

section Left

variable {Config : Type}

namespace PduKind

def after : PduKind → List PduKind
  | pucch => [pucchF1, pusch, srs]
  | pucchF1 => [pusch, srs]
  | pusch => [srs]
  | srs => []

lemma after_of_next {kind kind' : PduKind} (h : kind.next = some kind') : kind.after = kind' :: kind'.after := by
  cases kind <;> cases h <;> rfl

lemma after_of_last {kind : PduKind} (h : kind.next = none) : kind.after = [] := by
  cases kind <;> first | rfl | cases h

end PduKind

namespace Processor

variable (s : Processor Config)

def numbers (kind : PduKind) (symbol : ℕ) : List ℕ := (s.repository kind symbol).map Entry.number

def numbersAfter (kind : PduKind) (symbol : ℕ) : List ℕ := kind.after.flatMap fun kind => s.numbers kind symbol

def numbersFrom (symbol : ℕ) : List ℕ :=
  (List.range' symbol (maxNsymbPerSlot - symbol)).flatMap fun k => s.numbers .pucch k ++ s.numbersAfter .pucch k

def handlerLeft : HandlerPc Config → List ℕ
  | .fetch _ kind =>
    s.numbers kind s.nofProcessedSymbols ++ s.numbersAfter kind s.nofProcessedSymbols ++
      s.numbersFrom (s.nofProcessedSymbols + 1)
  | .pdus _ kind rest | .created _ kind _ rest | .dropping _ kind _ rest =>
    rest.map Entry.number ++ s.numbersAfter kind s.nofProcessedSymbols ++ s.numbersFrom (s.nofProcessedSymbols + 1)
  | .unlock => s.numbersFrom s.nofProcessedSymbols

def freeLeft : List ℕ :=
  match s.handler with
  | some pc => s.handlerLeft pc
  | none =>
    if isStateStopped s.word || !hasStatePendingPduInQueue s.word then [] else s.numbersFrom s.nofProcessedSymbols

/-- **The PDUs that are neither in execution nor finished.** -/
def left : List ℕ :=
  match s.owner with
  | .discardFetch symbol kind => s.numbers kind symbol ++ s.numbersAfter kind symbol ++ s.numbersFrom (symbol + 1)
  | .discardPdus symbol kind rest => rest.map Entry.number ++ s.numbersAfter kind symbol ++ s.numbersFrom (symbol + 1)
  | .discardEnd | .clearing => []
  | .adding | .pushed => s.numbersFrom 0
  | _ => s.freeLeft

variable {s}

lemma left_of_free (h1 : s.owner.isAdding = false) (h2 : s.owner.isDiscarding = false) : s.left = s.freeLeft := by
  unfold left
  generalize s.owner = owner at h1 h2
  cases owner with
  | none => rfl
  | loaded _ _ => rfl
  | reserving => rfl
  | finishing => rfl
  | discardFetch _ _ => cases h2
  | discardPdus _ _ _ => cases h2
  | discardEnd => cases h2
  | clearing => cases h1
  | adding => cases h1
  | pushed => cases h1

lemma uncounted_of_free {owner : OwnerPc Config} (h : owner.isAdding = false) : owner.uncounted = 0 := by
  cases owner with
  | pushed => cases h
  | _ => rfl

lemma numbersFrom_succ {symbol : ℕ} (h : symbol < maxNsymbPerSlot) : s.numbersFrom symbol =
    s.numbers .pucch symbol ++ s.numbersAfter .pucch symbol ++ s.numbersFrom (symbol + 1) := by
  unfold numbersFrom
  rw [show maxNsymbPerSlot - symbol = (maxNsymbPerSlot - (symbol + 1)) + 1 by omega, range'_succ, flatMap_cons]

lemma numbersFrom_end : s.numbersFrom maxNsymbPerSlot = [] := by
  unfold numbersFrom
  rw [Nat.sub_self]
  rfl

lemma numbersAfter_of_next {kind kind' : PduKind} (h : kind.next = some kind') (symbol : ℕ) :
    s.numbersAfter kind symbol = s.numbers kind' symbol ++ s.numbersAfter kind' symbol := by
  unfold numbersAfter
  rw [PduKind.after_of_next h, flatMap_cons]

lemma numbersAfter_of_last {kind : PduKind} (h : kind.next = none) (symbol : ℕ) : s.numbersAfter kind symbol = [] := by
  unfold numbersAfter
  rw [PduKind.after_of_last h]
  rfl

end Processor

lemma flatMap_perm_insert {β : Type} {l : List β} (hl : l.Nodup) {f f' : β → List ℕ} {x : ℕ} {k : β} (hk : k ∈ l)
    (hf : (f' k).Perm (f k ++ [x])) (hother : ∀ j, j ≠ k → f' j = f j) : (l.flatMap f').Perm (l.flatMap f ++ [x]) := by
  induction l with
  | nil => cases hk
  | cons j l ih =>
    obtain ⟨hj, hl⟩ := nodup_cons.mp hl
    rw [flatMap_cons, flatMap_cons]
    by_cases hjk : j = k
    · subst hjk
      have hrest : l.flatMap f' = l.flatMap f := by
        rw [flatMap_def, flatMap_def]
        congr 1
        apply map_congr_left
        intro i hi
        exact hother i fun heq => hj (heq ▸ hi)
      rw [hrest]
      refine (hf.append_right _).trans ?_
      rw [append_assoc, append_assoc]
      exact (perm_append_comm).append_left _
    · rw [hother j hjk, append_assoc]
      exact (ih hl ((mem_cons.mp hk).resolve_left (Ne.symm hjk))).append_left _

end Left

end SrsRan.Phy.Uplink
