import SrsRan.Lib.Post
import SrsRan.Lib.StateWord
import SrsRan.Lib.ThreadList

/-!
# The downlink processor

`downlink_processor_single_executor_impl` as threads that interleave at their accesses to the state word, to the current
grid, to the PDU stores and to the gateway.  The state word counts the pending tasks, and the thread that brings it to zero
after the end of the slot sends the grid.  The histories have what was configured, written and sent, with the slot.
-/

namespace SrsRan.Phy.Downlink

open Lib Lib.Run List
open Function (update update_self update_of_ne)

/-! ### The state word -/

namespace StateWord

def idle : ℕ := 0x7fffffff

def maskAcceptingPdus : ℕ := 0x80000000

def maskCount : ℕ := 0x7fffffff

def finishing : ℕ := 0

def maskStopped : ℕ := 0x40000000

end StateWord

open StateWord

/-! ### PDUs -/

inductive PduKind where
  | pdcch
  | pdsch
  | ssb
  | nzpCsiRs
  | prs
deriving DecidableEq

def maxSsbPerSlot : ℕ := 2
def maxSiPdusPerSlot : ℕ := 2
def maxRarPdusPerSlot : ℕ := 16
def maxUePdusPerSlot : ℕ := 16
def maxPagingPdusPerSlot : ℕ := 1
def maxCsiRsPdusPerSlot : ℕ := 16
def maxPrsPdusPerSlot : ℕ := 16
def maxUlPdcchPdusPerSlot : ℕ := 16
def maxDlPdcchPdusPerSlot : ℕ := maxSiPdusPerSlot + maxRarPdusPerSlot + maxUePdusPerSlot + maxPagingPdusPerSlot
def maxPdschPdusPerSlot : ℕ := maxSiPdusPerSlot + maxRarPdusPerSlot + maxUePdusPerSlot + maxPagingPdusPerSlot

namespace PduKind

def maxPerSlot : PduKind → ℕ
  | pdcch => maxDlPdcchPdusPerSlot + maxUlPdcchPdusPerSlot
  | pdsch => maxPdschPdusPerSlot
  | ssb => maxSsbPerSlot
  | nzpCsiRs => maxCsiRsPdusPerSlot
  | prs => maxPrsPdusPerSlot

def capacity : PduKind → ℕ
  | pdcch => maxDlPdcchPdusPerSlot + maxUlPdcchPdusPerSlot
  | pdsch => maxPdschPdusPerSlot
  | ssb => maxSsbPerSlot
  -- as in the declaration of `nzp_csi_rs_list`
  | nzpCsiRs => maxSsbPerSlot
  | prs => maxPrsPdusPerSlot

end PduKind

/-! ### The threads -/

inductive SendPc where
  | sending
  | sent
deriving DecidableEq

variable (Context Grid Pdu : Type)

inductive OwnerPc where
  | none
  /-- in `configure_resource_grid`, after the reservation -/
  | configuring (context : Context) (grid : Option Grid)
  | holding
  /-- in `process_*`, after `on_task_creation` -/
  | creating (kind : PduKind) (pdu : Pdu)
  /-- in `process_*`, before the task is enqueued; the PDU has the index in its store -/
  | enqueuing (kind : PduKind) (index : ℕ) (pdu : Pdu)
  | dropping
  /-- in `send_resource_grid`, called by `process_*` or by `finish_processing_pdus` -/
  | send (pc : SendPc) (fromProcess : Bool)
deriving DecidableEq

inductive TaskPc where
  | queued
  /-- has read the current grid, and writes if there is one -/
  | processing (writer : Option Grid)
  | send (pc : SendPc)
deriving DecidableEq

structure Task where
  kind : PduKind
  index : ℕ
  pc : TaskPc Grid
  /-- history: the slot and the PDU that the task was created for -/
  slot : ℕ
  pdu : Pdu
deriving DecidableEq

/-- A PDU that was written to a grid. -/
structure Write where
  slot : ℕ
  pdu : Pdu
  read : Option Pdu
  grid : Grid
deriving DecidableEq

/-- The processor, with its tasks. -/
structure Processor where
  word : ℕ
  currentGrid : Option Grid
  rgContext : Option Context
  /-- the stores `pdcch_list`, ..., `prs_list` -/
  stores : PduKind → List Pdu
  owner : OwnerPc Context Grid Pdu
  tasks : List (Task Grid Pdu)
  /-- history: the slots for which the reservation succeeded -/
  configured : List (Context × Option Grid)
  /-- history: the number of slots for which `finish_processing_pdus` was called -/
  finished : ℕ
  /-- history: the number of PDUs that were requested in the current slot, by kind -/
  requested : PduKind → ℕ
  /-- history: the number of PDUs that were requested in earlier slots -/
  earlier : PduKind → ℕ
  /-- history: the writes of the tasks -/
  writes : List (Write Grid Pdu)
  /-- history: what was passed to the gateway, with the slot -/
  sends : List (ℕ × Option Context × Grid)

/-- The steps of owner, tasks and sender. -/
inductive Action where
  | configure (context : Context) (grid : Option Grid)
  | assign
  /-- `process_*`: the creation of the task -/
  | process (kind : PduKind) (pdu : Pdu)
  | store
  /-- `process_*`: the executor takes the task or refuses it -/
  | execute (enqueued : Bool)
  /-- `process_*`: the end of a task that was not enqueued -/
  | drop
  | finish
  | ownerSend
  | start (i : ℕ)
  | write (i : ℕ)
  | complete (i : ℕ)
  | taskSend (i : ℕ)
  | stop
deriving DecidableEq

inductive Fault where
  | notEnabled
  | reservedTwice
  | gridInUse
  | unexpectedState (prev : ℕ)
  | fullStore (kind : PduKind)
deriving DecidableEq

namespace Processor

variable {Context Grid Pdu : Type}

def init : Processor Context Grid Pdu where
  word := idle
  currentGrid := none
  rgContext := none
  stores := fun _ => []
  owner := .none
  tasks := []
  configured := []
  finished := 0
  requested := fun _ => 0
  earlier := fun _ => 0
  writes := []
  sends := []

variable (s : Processor Context Grid Pdu)

def slot : ℕ := s.configured.length - 1

/-- `reserve_on_resource_grid_configure` in `configure_resource_grid` -/
def configure (context : Context) (grid : Option Grid) : Except Fault (Processor Context Grid Pdu) :=
  if s.word = idle then
    match s.owner with
    | .none =>
      .ok { s with
        word := maskAcceptingPdus
        owner := .configuring context grid
        configured := s.configured ++ [(context, grid)]
        requested := fun _ => 0
        earlier := fun kind => s.earlier kind + s.requested kind }
    | _ => .error .reservedTwice
  else .ok s

/-- The rest of `configure_resource_grid`: four of the stores are cleared. -/
def assign (context : Context) (grid : Option Grid) : Except Fault (Processor Context Grid Pdu) :=
  if s.currentGrid.isSome then .error .gridInUse
  else
    .ok { s with
      currentGrid := grid
      rgContext := some context
      stores := fun kind => match kind with
        | .pdcch => []
        | .pdsch => []
        | .ssb => []
        | .nzpCsiRs => []
        | .prs => s.stores .prs
      owner := .holding }

def onTaskCreation : Except Fault (Processor Context Grid Pdu) :=
  if s.word &&& maskAcceptingPdus = 0 then .error (.unexpectedState s.word)
  else .ok { s with word := (s.word + 1) % 2 ^ 32 }

def onTaskCompletion : Except Fault (Processor Context Grid Pdu × Bool) :=
  if s.word &&& maskCount = 0 then .error (.unexpectedState s.word)
  else .ok ({ s with word := (s.word + (2 ^ 32 - 1)) % 2 ^ 32 }, s.word = 1)

def onFinishRequested : Except Fault (Processor Context Grid Pdu × Bool) :=
  if s.word &&& maskAcceptingPdus = 0 then .error (.unexpectedState s.word)
  else .ok ({ s with word := s.word ^^^ maskAcceptingPdus }, s.word = maskAcceptingPdus)

def onGridSent : Except Fault (Processor Context Grid Pdu) :=
  if s.word ≠ StateWord.finishing then .error (.unexpectedState s.word)
  else .ok { s with word := idle }

def sendResourceGrid : Processor Context Grid Pdu :=
  match s.currentGrid with
  | some grid => { s with currentGrid := none, sends := s.sends ++ [(s.slot, s.rgContext, grid)] }
  | none => s

def emplaceBack (kind : PduKind) (pdu : Pdu) : Except Fault (Processor Context Grid Pdu) :=
  if (s.stores kind).length < kind.capacity then
    .ok { s with
      stores := update s.stores kind (s.stores kind ++ [pdu])
      owner := .enqueuing kind (s.stores kind).length pdu }
  else .error (.fullStore kind)

def setTask (i : ℕ) (t : Task Grid Pdu) : Processor Context Grid Pdu := { s with tasks := s.tasks.set i t }

/-- The next step of a task that has been taken. -/
def taskStep (i : ℕ) (t : Task Grid Pdu) : Action Context Grid Pdu → Except Fault (Processor Context Grid Pdu)
  | .start _ =>
    match t.pc with
    | .queued => .ok (s.setTask i { t with pc := .processing s.currentGrid })
    | _ => .error .notEnabled
  | .write _ =>
    match t.pc with
    | .processing (some grid) =>
      .ok { s with writes := s.writes ++ [⟨t.slot, t.pdu, (s.stores t.kind)[t.index]?, grid⟩] }
    | _ => .error .notEnabled
  | .complete _ =>
    match t.pc with
    | .processing _ => do
      let (s, send) ← s.onTaskCompletion
      return if send then s.setTask i { t with pc := .send .sending } else { s with tasks := s.tasks.eraseIdx i }
    | _ => .error .notEnabled
  | .taskSend _ =>
    match t.pc with
    | .send .sending => .ok (s.sendResourceGrid.setTask i { t with pc := .send .sent })
    | .send .sent => do
      let s ← s.onGridSent
      return { s with tasks := s.tasks.eraseIdx i }
    | _ => .error .notEnabled
  | _ => .error .notEnabled

def step (a : Action Context Grid Pdu) : Except Fault (Processor Context Grid Pdu) :=
  match a with
  | .configure context grid => s.configure context grid
  | .assign =>
    match s.owner with
    | .configuring context grid => s.assign context grid
    | _ => .error .notEnabled
  | .process kind pdu =>
    match s.owner with
    | .holding => do
      let s ← s.onTaskCreation
      return { s with
        owner := .creating kind pdu
        requested := update s.requested kind (s.requested kind + 1) }
    | _ => .error .notEnabled
  | .store =>
    match s.owner with
    | .creating kind pdu => s.emplaceBack kind pdu
    | _ => .error .notEnabled
  | .execute enqueued =>
    match s.owner with
    | .enqueuing kind index pdu =>
      if enqueued then .ok { s with owner := .holding, tasks := s.tasks ++ [⟨kind, index, .queued, s.slot, pdu⟩] }
      else .ok { s with owner := .dropping }
    | _ => .error .notEnabled
  | .drop =>
    match s.owner with
    | .dropping => do
      let (s, send) ← s.onTaskCompletion
      return { s with owner := if send then .send .sending true else .holding }
    | _ => .error .notEnabled
  | .finish =>
    match s.owner with
    | .holding => do
      let (s, send) ← s.onFinishRequested
      return { s with owner := if send then .send .sending false else .none, finished := s.finished + 1 }
    | _ => .error .notEnabled
  | .ownerSend =>
    match s.owner with
    | .send .sending fromProcess => .ok { s.sendResourceGrid with owner := .send .sent fromProcess }
    | .send .sent fromProcess => do
      let s ← s.onGridSent
      return { s with owner := if fromProcess then .holding else .none }
    | _ => .error .notEnabled
  | .start i => taskOf i
  | .write i => taskOf i
  | .complete i => taskOf i
  | .taskSend i => taskOf i
  | .stop => .ok (if s.word = idle then { s with word := maskStopped } else s)
where
  taskOf (i : ℕ) : Except Fault (Processor Context Grid Pdu) :=
    match s.tasks[i]? with
    | some t => s.taskStep i t a
    | none => .error .notEnabled

/-- Every slot has at most the maximum number of PDUs of each kind. -/
def Within : Action Context Grid Pdu → Prop
  | .process kind _ => s.requested kind < kind.maxPerSlot
  | _ => True

instance : (a : Action Context Grid Pdu) → Decidable (s.Within a)
  | .process kind _ => inferInstanceAs (Decidable (s.requested kind < kind.maxPerSlot))
  | .configure _ _ => .isTrue trivial
  | .assign => .isTrue trivial
  | .store => .isTrue trivial
  | .execute _ => .isTrue trivial
  | .drop => .isTrue trivial
  | .finish => .isTrue trivial
  | .ownerSend => .isTrue trivial
  | .start _ => .isTrue trivial
  | .write _ => .isTrue trivial
  | .complete _ => .isTrue trivial
  | .taskSend _ => .isTrue trivial
  | .stop => .isTrue trivial

end Processor

/-! ### What the processor is for -/

section Purpose

variable {Context Grid Pdu : Type}

/-- The task has not ended its PDU. -/
def Task.Pending (t : Task Grid Pdu) : Prop :=
  match t.pc with
  | .send _ => False
  | _ => True

/-- The grid of each slot once, with the context of the slot. -/
def sentOf (slots : List (Context × Option Grid)) : List (ℕ × Option Context × Grid) :=
  slots.zipIdx.filterMap fun p => p.1.2.map fun grid => (p.2, some p.1.1, grid)

/-- **The grids are sent once**, and complete. -/
structure SendsOnce (s : Processor Context Grid Pdu) : Prop where
  sent : ∃ closed, s.sends = sentOf (s.configured.take closed) ∧ closed ≤ s.finished ∧
    s.finished ≤ s.configured.length ∧ s.configured.length ≤ closed + 1 ∧
    (s.word = idle → closed = s.configured.length) ∧ ∀ t ∈ s.tasks, t.Pending → closed ≤ t.slot
  written : ∀ w ∈ s.writes, w.read = some w.pdu ∧ ∃ context, s.configured[w.slot]? = some (context, some w.grid)

variable (s : Processor Context Grid Pdu)

def Processor.stored (kind : PduKind) : ℕ :=
  (s.stores kind).length + match s.owner with
    | .creating k _ => if k = kind then 1 else 0
    | _ => 0

/-- The processor is being configured, and the stores may not be cleared. -/
def Processor.isConfiguring : Bool :=
  match s.owner with
  | .configuring _ _ => true
  | _ => false

/-- **The stores have room**: they have at most the PDUs of the current slot. -/
def StoresHaveRoom : Prop :=
  s.isConfiguring = false → ∀ kind : PduKind, s.stored kind ≤ s.requested kind ∧ s.stored kind ≤ kind.capacity

/-- The step brings a PDU or the slot closer to its end. -/
def Ends (_ : Processor Context Grid Pdu) : Action Context Grid Pdu → Prop
  | .start _ | .complete _ | .taskSend _ | .ownerSend => True
  | _ => False

/-- The grid is sent under every schedule, and the processor is free. -/
def SlotEnds : Prop :=
  s.finished = s.configured.length → Inevitable Processor.step Ends (fun s' => s'.sends = sentOf s.configured ∧
    s'.owner = .none ∧ s'.tasks = [] ∧ (s'.word = idle ∨ s'.word = maskStopped)) s

end Purpose

/-! ### The state word in arithmetic -/

namespace Processor

variable {Context Grid Pdu : Type} {s : Processor Context Grid Pdu}

variable {n : ℕ}

lemma accepting_flag (hn : n < 2 ^ 31) : (2 ^ 31 + n) &&& maskAcceptingPdus ≠ 0 := by
  refine (and_flag (2 ^ 31 + n) 31).mpr ?_
  omega

lemma onTaskCreation_eq (hw : s.word = 2 ^ 31 + n) (hn : n + 1 < 2 ^ 31) :
    s.onTaskCreation = .ok { s with word := 2 ^ 31 + (n + 1) } := by
  rw [onTaskCreation, if_neg (hw ▸ accepting_flag (by omega)), hw, Nat.mod_eq_of_lt (by omega)]
  rfl

lemma onTaskCompletion_accepting (hw : s.word = 2 ^ 31 + (n + 1)) (hn : n + 1 < 2 ^ 31) :
    s.onTaskCompletion = .ok ({ s with word := 2 ^ 31 + n }, false) := by
  have hcount : ¬ s.word &&& maskCount = 0 := by
    show ¬ s.word &&& (2 ^ 31 - 1) = 0
    rw [and_low, hw]
    omega
  rw [onTaskCompletion, if_neg hcount, hw]
  have hword : (2 ^ 31 + (n + 1) + (2 ^ 32 - 1)) % 2 ^ 32 = 2 ^ 31 + n := by omega
  have hone : decide (2 ^ 31 + (n + 1) = 1) = false := by
    rw [decide_eq_false_iff_not]
    omega
  rw [hword, hone]

lemma onTaskCompletion_finishing (hw : s.word = n + 1) (hn : n + 1 < 2 ^ 31) :
    s.onTaskCompletion = .ok ({ s with word := n }, decide (n = 0)) := by
  have hcount : ¬ s.word &&& maskCount = 0 := by
    show ¬ s.word &&& (2 ^ 31 - 1) = 0
    rw [and_low, hw, Nat.mod_eq_of_lt hn]
    omega
  rw [onTaskCompletion, if_neg hcount, hw]
  have hword : (n + 1 + (2 ^ 32 - 1)) % 2 ^ 32 = n := by omega
  have hone : decide (n + 1 = 1) = decide (n = 0) := decide_eq_decide.mpr (by omega)
  rw [hword, hone]

lemma onFinishRequested_eq (hw : s.word = 2 ^ 31 + n) (hn : n < 2 ^ 31) :
    s.onFinishRequested = .ok ({ s with word := n }, decide (n = 0)) := by
  have hxor : s.word ^^^ maskAcceptingPdus = n := by
    show s.word ^^^ 2 ^ 31 = n
    rw [hw, xor_flag (by omega), Nat.add_sub_cancel_left]
  have hmask : decide (s.word = maskAcceptingPdus) = decide (n = 0) := by
    refine decide_eq_decide.mpr ?_
    show s.word = 2 ^ 31 ↔ n = 0
    omega
  rw [onFinishRequested, if_neg (hw ▸ accepting_flag hn), hxor, hmask]

lemma onGridSent_eq (hw : s.word = 0) : s.onGridSent = .ok { s with word := idle } := by
  exact if_neg fun h => h hw

end Processor

/-! ### The invariant -/

section Invariant

variable {Context Grid Pdu : Type}

namespace OwnerPc

/-- The owner may add PDUs. -/
def Accepting : OwnerPc Context Grid Pdu → Prop
  | .holding | .creating _ _ | .enqueuing _ _ _ | .dropping => True
  | _ => False

def pending : OwnerPc Context Grid Pdu → ℕ
  | .creating _ _ | .enqueuing _ _ _ | .dropping => 1
  | _ => 0

/-- The owner has neither claimed the processor nor counted a PDU that it has not stored. -/
def Plain : OwnerPc Context Grid Pdu → Prop
  | .configuring _ _ | .creating _ _ => False
  | _ => True

end OwnerPc

namespace Processor

variable (s : Processor Context Grid Pdu)

/-- The slot that is open is the last one configured. -/
structure Current (closed : ℕ) : Prop where
  slots : s.configured.length = closed + 1
  grid : ∃ context, s.configured[closed]? = some (context, s.currentGrid) ∧ s.rgContext = some context

/-- The tasks are those of the open slot, and read its grid and their PDUs. -/
def Working (closed : ℕ) : Prop :=
  ∀ t ∈ s.tasks, t.slot = closed ∧ (t.pc = .queued ∨ t.pc = .processing s.currentGrid) ∧
    (s.stores t.kind)[t.index]? = some t.pdu

/-- No slot is open. -/
structure InFree (closed : ℕ) : Prop where
  word : s.word = idle ∨ s.word = maskStopped
  owner : s.owner = .none
  tasks : s.tasks = []
  grid : s.currentGrid = none
  slots : s.configured.length = closed
  finished : s.finished = closed

/-- The processor is claimed and not yet configured. -/
structure InConfiguring (closed : ℕ) (context : Context) (grid : Option Grid) : Prop where
  word : s.word = 2 ^ 31
  owner : s.owner = .configuring context grid
  tasks : s.tasks = []
  noGrid : s.currentGrid = none
  slots : s.configured.length = closed + 1
  slot : s.configured[closed]? = some (context, grid)
  finished : s.finished = closed
  requested : ∀ kind, s.requested kind = 0

/-- The slot is open for PDUs. -/
structure InAccepting (closed : ℕ) : Prop where
  word : s.word = 2 ^ 31 + (s.tasks.length + s.owner.pending)
  owner : s.owner.Accepting
  working : s.Working closed
  current : s.Current closed
  finished : s.finished = closed
  stored : ∀ kind index pdu, s.owner = .enqueuing kind index pdu → (s.stores kind)[index]? = some pdu

/-- The slot is finished, and tasks are left. -/
structure InDraining (closed : ℕ) : Prop where
  word : s.word = s.tasks.length
  tasks : s.tasks ≠ []
  owner : s.owner = .none
  working : s.Working closed
  current : s.Current closed
  finished : s.finished = closed + 1

/-- One thread is about to send the grid: the caller, or the last task. -/
structure InSending (closed : ℕ) : Prop where
  word : s.word = 0
  sender : (s.owner = .send .sending false ∧ s.tasks = []) ∨
    (s.owner = .none ∧ ∃ t, s.tasks = [t] ∧ t.pc = .send .sending)
  current : s.Current closed
  finished : s.finished = closed + 1

/-- The grid has been sent, and the processor is not free yet. -/
structure InSent (closed : ℕ) : Prop where
  word : s.word = 0
  sender : (s.owner = .send .sent false ∧ s.tasks = []) ∨ (s.owner = .none ∧ ∃ t, s.tasks = [t] ∧ t.pc = .send .sent)
  grid : s.currentGrid = none
  slots : s.configured.length = closed
  finished : s.finished = closed

/-- **The phases of a slot**, after `closed` slots are sent. -/
inductive Phase (closed : ℕ) : Prop
  | free (h : s.InFree closed)
  | configuring (context : Context) (grid : Option Grid) (h : s.InConfiguring closed context grid)
  | accepting (h : s.InAccepting closed)
  | draining (h : s.InDraining closed)
  | sending (h : s.InSending closed)
  | sent (h : s.InSent closed)

def totalRequested : ℕ :=
  s.requested .pdcch + s.requested .pdsch + s.requested .ssb + s.requested .nzpCsiRs + s.requested .prs

/-- What all reachable states satisfy. -/
structure Inv : Prop where
  phase : ∃ closed, s.Phase closed ∧ s.sends = sentOf (s.configured.take closed)
  written : ∀ w ∈ s.writes, w.read = some w.pdu ∧ ∃ context, s.configured[w.slot]? = some (context, some w.grid)
  requested_le : ∀ kind, s.requested kind ≤ kind.maxPerSlot
  pending_le : s.tasks.length + s.owner.pending ≤ s.totalRequested
  stored_eq : s.isConfiguring = false → ∀ kind, kind ≠ .prs → s.stored kind = s.requested kind
  stored_prs : s.stored .prs = s.earlier .prs + s.requested .prs

variable {s}

/-- The fault is a call that is not enabled, or one for which a store has no room. -/
def Refused (s : Processor Context Grid Pdu) (e : Fault) : Prop :=
  e = .notEnabled ∨ ∃ kind, e = .fullStore kind ∧ ¬ StoresHaveRoom s

lemma sentOf_append (slots : List (Context × Option Grid)) (ctx : Context) (grid : Option Grid) :
    sentOf (slots ++ [(ctx, grid)]) =
      sentOf slots ++ (grid.map fun grid => (slots.length, some ctx, grid)).toList := by
  rw [sentOf, zipIdx_append, filterMap_append, zero_add]
  cases grid <;> rfl

lemma take_current {closed : ℕ} {l : List (Context × Option Grid)} {x : Context × Option Grid}
    (h : l[closed]? = some x) : l.take (closed + 1) = l.take closed ++ [x] := by
  rw [take_add_one, h]
  rfl

variable {s' : Processor Context Grid Pdu} {t : Task Grid Pdu} {i : ℕ} {a : Action Context Grid Pdu}

lemma Current.congr {closed : ℕ} (h : s.Current closed)
    (hslots : s'.configured = s.configured) (hgrid : s'.currentGrid = s.currentGrid)
    (hcontext : s'.rgContext = s.rgContext) : s'.Current closed := by
  refine ⟨hslots ▸ h.slots, ?_⟩
  rw [hslots, hgrid, hcontext]
  exact h.grid

lemma Task.pending_of_processing {w : Option Grid} (hpc : t.pc = .processing w) : t.Pending := by
  rw [Task.Pending, hpc]
  trivial

lemma stored_of_plain (ho : s.owner.Plain) (kind : PduKind) : s.stored kind = (s.stores kind).length := by
  unfold stored
  split
  next hs =>
    rw [hs] at ho
    cases ho
  · rfl

lemma isConfiguring_of_plain (ho : s.owner.Plain) : s.isConfiguring = false := by
  unfold isConfiguring
  split
  next hs =>
    rw [hs] at ho
    cases ho
  · rfl

namespace Inv

lemma of_owner (h : s.Inv) {s' : Processor Context Grid Pdu} (ho : s.owner.Plain) (ho' : s'.owner.Plain)
    (hstores : s'.stores = s.stores) (hrequested : s'.requested = s.requested) (hearlier : s'.earlier = s.earlier)
    (hwrites : s'.writes = s.writes) (hslots : s'.configured = s.configured)
    (hle : s'.tasks.length + s'.owner.pending ≤ s.tasks.length + s.owner.pending)
    (hphase : ∃ closed, s'.Phase closed ∧ s'.sends = sentOf (s'.configured.take closed)) : s'.Inv := by
  have hstored (kind : PduKind) : s'.stored kind = s.stored kind := by
    rw [stored_of_plain ho, stored_of_plain ho', hstores]
  refine ⟨hphase, ?_, ?_, hle.trans (h.pending_le.trans_eq ?_), fun _ kind hk => ?_, ?_⟩
  · rw [hwrites, hslots]
    exact h.written
  · rw [hrequested]
    exact h.requested_le
  · unfold totalRequested
    rw [hrequested]
  · rw [hstored, hrequested]
    exact h.stored_eq (isConfiguring_of_plain ho) kind hk
  · rw [hstored, hrequested, hearlier]
    exact h.stored_prs

lemma pending_bound (h : s.Inv) : s.tasks.length + s.owner.pending ≤ 120 := by
  have h1 : s.requested .pdcch ≤ 51 := h.requested_le .pdcch
  have h2 : s.requested .pdsch ≤ 35 := h.requested_le .pdsch
  have h3 : s.requested .ssb ≤ 2 := h.requested_le .ssb
  have h4 : s.requested .nzpCsiRs ≤ 16 := h.requested_le .nzpCsiRs
  have h5 : s.requested .prs ≤ 16 := h.requested_le .prs
  have htotal := h.pending_le
  unfold totalRequested at htotal
  omega

lemma init : (init : Processor Context Grid Pdu).Inv where
  phase := ⟨0, .free ⟨.inl rfl, rfl, rfl, rfl, rfl, rfl⟩, rfl⟩
  written := fun _ hw => absurd hw not_mem_nil
  requested_le := fun _ => Nat.zero_le _
  pending_le := le_refl 0
  stored_eq := fun _ _ _ => rfl
  stored_prs := rfl

lemma free_of_idle (h : s.Inv) (hw : s.word = idle) : s.InFree s.configured.length ∧ s.sends = sentOf s.configured := by
  have hidle : idle = 2 ^ 31 - 1 := rfl
  obtain ⟨closed, hphase, hsends⟩ := h.phase
  have hbound := h.pending_bound
  cases hphase with
  | free hfree =>
    obtain rfl := hfree.slots
    refine ⟨hfree, ?_⟩
    rw [hsends, take_length]
  | configuring ctx grid hconf =>
    have := hconf.word
    omega
  | accepting hacc =>
    have := hacc.word
    omega
  | draining hdrain =>
    have := hdrain.word
    omega
  | sending hsend =>
    have := hsend.word
    omega
  | sent hsent =>
    have := hsent.word
    omega

lemma of_configuring (h : s.Inv) {ctx : Context} {grid : Option Grid} (ho : s.owner = .configuring ctx grid) :
    ∃ closed, s.InConfiguring closed ctx grid ∧ s.sends = sentOf (s.configured.take closed) := by
  obtain ⟨closed, hphase, hsends⟩ := h.phase
  cases hphase with
  | configuring c g hconf =>
    have hown := hconf.owner
    rw [ho] at hown
    cases hown
    exact ⟨closed, hconf, hsends⟩
  | free hfree => cases ho ▸ hfree.owner
  | accepting hacc => cases ho ▸ hacc.owner
  | draining hdrain => cases ho ▸ hdrain.owner
  | sending hsend => obtain ⟨hown, -⟩ | ⟨hown, -⟩ := hsend.sender <;> cases ho ▸ hown
  | sent hsent => obtain ⟨hown, -⟩ | ⟨hown, -⟩ := hsent.sender <;> cases ho ▸ hown

lemma of_accepting (h : s.Inv) (ho : s.owner.Accepting) :
    ∃ closed, s.InAccepting closed ∧ s.sends = sentOf (s.configured.take closed) := by
  obtain ⟨closed, hphase, hsends⟩ := h.phase
  cases hphase with
  | accepting hacc => exact ⟨closed, hacc, hsends⟩
  | free hfree => cases hfree.owner ▸ ho
  | configuring c g hconf => cases hconf.owner ▸ ho
  | draining hdrain => cases hdrain.owner ▸ ho
  | sending hsend => obtain ⟨hown, -⟩ | ⟨hown, -⟩ := hsend.sender <;> cases hown ▸ ho
  | sent hsent => obtain ⟨hown, -⟩ | ⟨hown, -⟩ := hsent.sender <;> cases hown ▸ ho

variable {t : Task Grid Pdu} {kind : PduKind} {i : ℕ}

lemma not_pending_of_sender {pc : SendPc} {o : OwnerPc Context Grid Pdu}
    (hs : (s.owner = o ∧ s.tasks = []) ∨ (s.owner = .none ∧ ∃ t, s.tasks = [t] ∧ t.pc = .send pc)) (ht : t ∈ s.tasks) :
    ¬ t.Pending := by
  obtain ⟨-, htasks⟩ | ⟨-, u, htasks, hpc⟩ := hs
  · rw [htasks] at ht
    cases ht
  · obtain rfl := mem_singleton.mp (htasks ▸ ht)
    rw [Task.Pending, hpc]
    exact id

section

variable (h : s.Inv)
include h

lemma of_pending (ht : t ∈ s.tasks) (hp : t.Pending) :
    ∃ closed, (s.InAccepting closed ∨ s.InDraining closed) ∧ s.sends = sentOf (s.configured.take closed) := by
  obtain ⟨closed, hphase, hsends⟩ := h.phase
  cases hphase with
  | accepting hacc => exact ⟨closed, .inl hacc, hsends⟩
  | draining hdrain => exact ⟨closed, .inr hdrain, hsends⟩
  | free hfree =>
    rw [hfree.tasks] at ht
    cases ht
  | configuring c g hconf =>
    rw [hconf.tasks] at ht
    cases ht
  | sending hsend => exact absurd hp (not_pending_of_sender hsend.sender ht)
  | sent hsent => exact absurd hp (not_pending_of_sender hsent.sender ht)

lemma configure (ctx : Context) (grid : Option Grid) : Post (Refused s) Inv (s.configure ctx grid) := by
  unfold Processor.configure
  split
  next hw =>
    obtain ⟨hfree, hsends⟩ := h.free_of_idle hw
    rw [hfree.owner]
    refine ⟨⟨s.configured.length, .configuring ctx grid ⟨rfl, rfl, hfree.tasks, hfree.grid, List.length_append,
      getElem?_concat_length, hfree.finished, fun _ => rfl⟩, ?_⟩, ?_, fun _ => Nat.zero_le _, ?_, ?_, ?_⟩
    · rw [List.take_left, hsends]
    · intro w hw'
      obtain ⟨hread, c, hc⟩ := h.written w hw'
      refine ⟨hread, c, ?_⟩
      exact getElem?_append_left (List.getElem?_eq_some_iff.mp hc).1 ▸ hc
    · rw [hfree.tasks]
      exact Nat.zero_le _
    · intro hnot
      cases hnot
    · have hprs := h.stored_prs
      unfold stored at hprs ⊢
      rw [hfree.owner] at hprs
      exact hprs
  · exact h

lemma assign {ctx : Context} {grid : Option Grid} (ho : s.owner = .configuring ctx grid) :
    Post (Refused s) Inv (s.assign ctx grid) := by
  obtain ⟨closed, hconf, hsends⟩ := h.of_configuring ho
  unfold Processor.assign
  rw [hconf.noGrid]
  refine ⟨⟨closed, .accepting ⟨?_, trivial, ?_, ⟨hconf.slots, ctx, hconf.slot, rfl⟩, hconf.finished, ?_⟩, hsends⟩,
    h.written, h.requested_le, ?_, ?_, ?_⟩
  · show s.word = 2 ^ 31 + (s.tasks.length + 0)
    rw [hconf.word, hconf.tasks, length_nil, Nat.add_zero]
  · intro t ht
    have ht : t ∈ s.tasks := ht
    rw [hconf.tasks] at ht
    cases ht
  · intro kind index pdu hnot
    cases hnot
  · have hle := h.pending_le
    rw [ho] at hle
    exact hle
  · intro _ kind hkind
    have hzero : s.requested kind = 0 := hconf.requested kind
    rw [hzero]
    cases kind with
    | prs => exact absurd rfl hkind
    | pdcch => rfl
    | pdsch => rfl
    | ssb => rfl
    | nzpCsiRs => rfl
  · have hprs := h.stored_prs
    unfold stored at hprs ⊢
    rw [ho] at hprs
    exact hprs

lemma process (ho : s.owner = .holding) (hroom : s.requested kind < kind.maxPerSlot)
    (pdu : Pdu) : Post (Refused s) Inv (s.step (.process kind pdu)) := by
  have hbound := h.pending_bound
  obtain ⟨closed, hacc, hsends⟩ := h.of_accepting (ho ▸ trivial)
  have hword := hacc.word
  simp only [step, ho]
  rw [ho] at hword
  have hpending : s.owner.pending = 0 := by rw [ho]; rfl
  rw [onTaskCreation_eq (n := s.tasks.length) hword (by omega), ok_bind]
  have hstored (k : PduKind) : (s.stores k).length = s.stored k := by
    unfold stored
    rw [ho]
    rfl
  refine ⟨⟨closed, .accepting ⟨rfl, trivial, hacc.working, hacc.current.congr rfl rfl rfl, hacc.finished, ?_⟩, hsends⟩, h.written, ?_, ?_, ?_, ?_⟩
  · intro kind index pdu hnot
    cases hnot
  · intro k
    by_cases hk : k = kind
    · subst hk
      simp only [update_self]
      exact hroom
    · simp only [update_of_ne hk]
      exact h.requested_le k
  · have hle := h.pending_le
    rw [hpending] at hle
    unfold totalRequested at hle ⊢
    show s.tasks.length + 1 ≤ _
    cases kind <;> simp [update] <;> omega
  · intro _ k hk
    have heq := h.stored_eq (by unfold isConfiguring; rw [ho]) k hk
    rw [← hstored] at heq
    show (s.stores k).length + (if kind = k then 1 else 0) = update s.requested kind (s.requested kind + 1) k
    by_cases hkk : kind = k
    · subst hkk
      rw [if_pos rfl, update_self, heq]
    · rw [if_neg hkk, update_of_ne (Ne.symm hkk), heq, add_zero]
  · have heq := h.stored_prs
    rw [← hstored] at heq
    show (s.stores .prs).length + (if kind = .prs then 1 else 0) =
      s.earlier .prs + update s.requested kind (s.requested kind + 1) .prs
    by_cases hkk : kind = .prs
    · subst hkk
      rw [if_pos rfl, update_self, heq, add_assoc]
    · rw [if_neg hkk, update_of_ne (Ne.symm hkk), heq, add_zero]

lemma store {pdu : Pdu} (ho : s.owner = .creating kind pdu) : Post (Refused s) Inv (s.emplaceBack kind pdu) := by
  obtain ⟨closed, hacc, hsends⟩ := h.of_accepting (ho ▸ trivial)
  have hconf : s.isConfiguring = false := by unfold isConfiguring; rw [ho]
  have hstored (k : PduKind) : s.stored k = (s.stores k).length + if kind = k then 1 else 0 := by
    unfold stored
    rw [ho]
  unfold emplaceBack
  split
  · have hlen (k : PduKind) : (update s.stores kind (s.stores kind ++ [pdu]) k).length = s.stored k := by
      rw [hstored]
      by_cases hk : kind = k
      · subst hk
        rw [if_pos rfl, update_self, List.length_append, List.length_singleton]
      · rw [if_neg hk, update_of_ne (Ne.symm hk), add_zero]
    refine ⟨⟨closed, .accepting ⟨?_, trivial, ?_, hacc.current.congr rfl rfl rfl, hacc.finished, ?_⟩, hsends⟩, h.written, h.requested_le, ?_, ?_, ?_⟩
    · have hword := hacc.word
      rw [ho] at hword
      exact hword
    · intro t ht
      obtain ⟨hslot, hpc, hpdu⟩ := hacc.working t ht
      refine ⟨hslot, hpc, ?_⟩
      show (update s.stores kind (s.stores kind ++ [pdu]) t.kind)[t.index]? = some t.pdu
      by_cases hk : t.kind = kind
      · rw [hk, update_self, ← hk]
        exact List.getElem?_append_left (List.getElem?_eq_some_iff.mp hpdu).1 ▸ hpdu
      · rw [update_of_ne hk]
        exact hpdu
    · intro k index p heq
      cases heq
      show (update s.stores kind (s.stores kind ++ [pdu]) kind)[(s.stores kind).length]? = some pdu
      rw [update_self]
      exact List.getElem?_concat_length
    · have hle := h.pending_le
      rw [ho] at hle
      exact hle
    · intro _ k hk
      exact (hlen k).trans (h.stored_eq hconf k hk)
    · exact (hlen .prs).trans h.stored_prs
  next hfull =>
    refine .inr ⟨kind, rfl, fun hroom => ?_⟩
    have hle := (hroom hconf kind).2
    rw [hstored, if_pos rfl] at hle
    omega

lemma execute {index : ℕ} {pdu : Pdu} (ho : s.owner = .enqueuing kind index pdu)
    (enqueued : Bool) : Post (Refused s) Inv (s.step (.execute enqueued)) := by
  obtain ⟨closed, hacc, hsends⟩ := h.of_accepting (ho ▸ trivial)
  have hword := hacc.word
  have hplain : s.owner.Plain := ho ▸ trivial
  have hpending : s.owner.pending = 1 := by rw [ho]; rfl
  rw [ho] at hword
  simp only [step, ho]
  cases enqueued with
  | true =>
    refine h.of_owner hplain trivial rfl rfl rfl rfl rfl ?_
      ⟨closed, .accepting ⟨?_, trivial, ?_, hacc.current.congr rfl rfl rfl, hacc.finished, ?_⟩, hsends⟩
    · rw [length_append, hpending]
      rfl
    · rw [hword, length_append]
      rfl
    · intro t ht
      rcases mem_append.mp ht with ht | ht
      · exact hacc.working t ht
      · obtain rfl := mem_singleton.mp ht
        refine ⟨?_, .inl rfl, hacc.stored kind index pdu ho⟩
        show s.configured.length - 1 = closed
        rw [hacc.current.slots, Nat.add_sub_cancel]
    · intro k i p hnot
      cases hnot
  | false =>
    refine h.of_owner hplain trivial rfl rfl rfl rfl rfl (Nat.add_le_add_left hpending.ge _)
      ⟨closed, .accepting ⟨hword, trivial, hacc.working, hacc.current.congr rfl rfl rfl, hacc.finished, ?_⟩, hsends⟩
    intro k i p hnot
    cases hnot

lemma drop (ho : s.owner = .dropping) : Post (Refused s) Inv (s.step .drop) := by
  have hbound := h.pending_bound
  obtain ⟨closed, hacc, hsends⟩ := h.of_accepting (ho ▸ trivial)
  have hword := hacc.word
  have hplain : s.owner.Plain := ho ▸ trivial
  rw [ho] at hword hbound
  simp only [step, ho]
  rw [onTaskCompletion_accepting hword (lt_of_le_of_lt hbound (by decide)), ok_bind]
  refine h.of_owner hplain trivial rfl rfl rfl rfl rfl (Nat.add_le_add_left (Nat.zero_le _) _)
    ⟨closed, .accepting ⟨rfl, trivial, hacc.working, hacc.current.congr rfl rfl rfl, hacc.finished, ?_⟩, hsends⟩
  intro k i p hnot
  cases hnot

lemma finish (ho : s.owner = .holding) : Post (Refused s) Inv (s.step .finish) := by
  have hbound := h.pending_bound
  obtain ⟨closed, hacc, hsends⟩ := h.of_accepting (ho ▸ trivial)
  have hword := hacc.word
  have hplain : s.owner.Plain := ho ▸ trivial
  rw [ho] at hword hbound
  simp only [step, ho]
  rw [onFinishRequested_eq (n := s.tasks.length) hword (lt_of_le_of_lt hbound (by decide)), ok_bind]
  by_cases hnil : s.tasks.length = 0
  · have hnil' := length_eq_zero_iff.mp hnil
    simp only [hnil, decide_true, if_true]
    exact h.of_owner hplain trivial rfl rfl rfl rfl rfl (Nat.add_le_add_left (Nat.zero_le _) _)
      ⟨closed, .sending ⟨rfl, .inl ⟨rfl, hnil'⟩, hacc.current.congr rfl rfl rfl, congrArg (· + 1) hacc.finished⟩, hsends⟩
  · simp only [hnil, decide_false, Bool.false_eq_true, if_false]
    exact h.of_owner hplain trivial rfl rfl rfl rfl rfl (Nat.add_le_add_left (Nat.zero_le _) _)
      ⟨closed, .draining ⟨rfl, fun heq => hnil (heq ▸ rfl), rfl, hacc.working, hacc.current.congr rfl rfl rfl,
        congrArg (· + 1) hacc.finished⟩, hsends⟩

end

lemma sendResourceGrid_eq {closed : ℕ} (hcurrent : s.Current closed)
    (hsends : s.sends = sentOf (s.configured.take closed)) :
    s.sendResourceGrid = { s with currentGrid := none, sends := sentOf (s.configured.take (closed + 1)) } := by
  obtain ⟨ctx, hslot, hcontext⟩ := hcurrent.grid
  have hlen : (s.configured.take closed).length = closed := by
    rw [length_take, hcurrent.slots]
    omega
  have hclosed : s.slot = closed := by
    show s.configured.length - 1 = closed
    rw [hcurrent.slots, Nat.add_sub_cancel]
  rw [take_current hslot, sentOf_append, hlen, ← hsends]
  unfold sendResourceGrid
  cases hgrid : s.currentGrid with
  | none =>
    show s = { s with currentGrid := none, sends := s.sends ++ [] }
    rw [append_nil, ← hgrid]
  | some grid =>
    rw [hclosed, hcontext]
    rfl

section

variable (h : s.Inv)
include h

lemma ownerSend {pc : SendPc} {fromProcess : Bool} (ho : s.owner = .send pc fromProcess) :
    Post (Refused s) Inv (s.step .ownerSend) := by
  obtain ⟨closed, hphase, hsends⟩ := h.phase
  have hplain : s.owner.Plain := ho ▸ trivial
  cases hphase with
  | sending hsend =>
    obtain ⟨hown, htasks⟩ | ⟨hown, -⟩ := hsend.sender
    · rw [ho] at hown
      cases hown
      simp only [step, ho]
      rw [sendResourceGrid_eq hsend.current hsends]
      exact h.of_owner hplain trivial rfl rfl rfl rfl rfl (Nat.add_le_add_left (Nat.zero_le _) _)
        ⟨closed + 1, .sent ⟨hsend.word, .inl ⟨rfl, htasks⟩, rfl, hsend.current.slots, hsend.finished⟩, rfl⟩
    · cases ho ▸ hown
  | sent hsent =>
    obtain ⟨hown, htasks⟩ | ⟨hown, -⟩ := hsent.sender
    · rw [ho] at hown
      cases hown
      simp only [step, ho]
      rw [onGridSent_eq hsent.word, ok_bind]
      exact h.of_owner hplain trivial rfl rfl rfl rfl rfl (Nat.add_le_add_left (Nat.zero_le _) _)
        ⟨closed, .free ⟨.inl rfl, rfl, htasks, hsent.grid, hsent.slots, hsent.finished⟩, hsends⟩
    · cases ho ▸ hown
  | free hfree => cases ho ▸ hfree.owner
  | configuring c g hconf => cases ho ▸ hconf.owner
  | accepting hacc => cases ho ▸ hacc.owner
  | draining hdrain => cases ho ▸ hdrain.owner

section

variable (ht : s.tasks[i]? = some t)
include ht

lemma taskSend : Post (Refused s) Inv (s.taskStep i t (.taskSend i)) := by
  obtain ⟨closed, hphase, hsends⟩ := h.phase
  have hmem : t ∈ s.tasks := List.mem_of_getElem? ht
  have hsingle {t' : Task Grid Pdu} (htasks : s.tasks = [t']) : t = t' ∧ i = 0 := by
    rw [htasks] at ht
    obtain ⟨hi, heq⟩ := List.getElem?_eq_some_iff.mp ht
    obtain rfl : i = 0 := Nat.lt_one_iff.mp hi
    exact ⟨heq.symm, rfl⟩
  have hle := h.pending_le
  have hnone (hp : t.Pending) : Post (Refused s) Inv (s.taskStep i t (.taskSend i)) := by
    unfold Task.Pending at hp
    unfold taskStep
    cases hpc : t.pc with
    | queued => exact .inl rfl
    | processing w => exact .inl rfl
    | send pc =>
      rw [hpc] at hp
      cases hp
  have hworking (hw : s.Working closed) : t.Pending := by
    obtain ⟨-, hpc, -⟩ := hw t hmem
    unfold Task.Pending
    obtain hpc | hpc := hpc <;> rw [hpc] <;> trivial
  cases hphase with
  | sending hsend =>
    obtain ⟨-, htasks⟩ | ⟨hown, t', htasks, hpc⟩ := hsend.sender
    · rw [htasks] at hmem
      cases hmem
    · obtain ⟨rfl, rfl⟩ := hsingle htasks
      simp only [taskStep, hpc]
      rw [sendResourceGrid_eq hsend.current hsends]
      refine { h with phase := ⟨closed + 1, .sent ⟨hsend.word, .inr ⟨hown, { t with pc := .send .sent }, ?_, rfl⟩, rfl, hsend.current.slots, hsend.finished⟩, rfl⟩, pending_le := ?_ }
      · rw [htasks]
        rfl
      · show (s.tasks.set 0 _).length + _ ≤ _
        rw [List.length_set]
        exact hle
  | sent hsent =>
    obtain ⟨-, htasks⟩ | ⟨hown, t', htasks, hpc⟩ := hsent.sender
    · rw [htasks] at hmem
      cases hmem
    · obtain ⟨rfl, rfl⟩ := hsingle htasks
      simp only [taskStep, hpc]
      rw [onGridSent_eq hsent.word, ok_bind]
      refine { h with phase := ⟨closed, .free ⟨.inl rfl, hown, ?_, hsent.grid, hsent.slots, hsent.finished⟩, hsends⟩, pending_le := ?_ }
      · rw [htasks]
        rfl
      · show (s.tasks.eraseIdx 0).length + s.owner.pending ≤ s.totalRequested
        rw [htasks, hown]
        exact Nat.zero_le _
  | accepting hacc => exact hnone (hworking hacc.working)
  | draining hdrain => exact hnone (hworking hdrain.working)
  | free hfree =>
    rw [hfree.tasks] at hmem
    cases hmem
  | configuring c g hconf =>
    rw [hconf.tasks] at hmem
    cases hmem

lemma setTask {t' : Task Grid Pdu} (hp : t.Pending)
    (hslot : t'.slot = t.slot) (hpdu : t'.pdu = t.pdu) (hkind : t'.kind = t.kind) (hindex : t'.index = t.index)
    (hpc : t'.pc = .queued ∨ t'.pc = .processing s.currentGrid) : (s.setTask i t').Inv := by
  have hmem : t ∈ s.tasks := mem_of_getElem? ht
  obtain ⟨closed, hphase, hsends⟩ := h.of_pending hmem hp
  have hlen : (s.tasks.set i t').length = s.tasks.length := length_set
  have hworking (hw : s.Working closed) : (s.setTask i t').Working closed := by
    intro u hu
    obtain hu | rfl := mem_or_eq_of_mem_set hu
    · exact hw u hu
    · obtain ⟨hs, -, hread⟩ := hw t hmem
      refine ⟨hslot.trans hs, hpc, ?_⟩
      rw [hkind, hindex, hpdu]
      exact hread
  refine { h with phase := ⟨closed, ?_, hsends⟩, pending_le := ?_ }
  · obtain hacc | hdrain := hphase
    · refine .accepting ⟨?_, hacc.owner, hworking hacc.working, hacc.current.congr rfl rfl rfl, hacc.finished, hacc.stored⟩
      show s.word = 2 ^ 31 + ((s.tasks.set i t').length + s.owner.pending)
      rw [hlen]
      exact hacc.word
    · refine .draining ⟨?_, ?_, hdrain.owner, hworking hdrain.working, hdrain.current.congr rfl rfl rfl, hdrain.finished⟩
      · show s.word = (s.tasks.set i t').length
        rw [hlen]
        exact hdrain.word
      · intro hnil
        have hzero : (s.tasks.set i t').length = 0 := congrArg List.length hnil
        rw [hlen] at hzero
        exact hdrain.tasks (length_eq_zero_iff.mp hzero)
  · show (s.tasks.set i t').length + s.owner.pending ≤ s.totalRequested
    rw [hlen]
    exact h.pending_le

lemma start : Post (Refused s) Inv (s.taskStep i t (.start i)) := by
  unfold taskStep
  cases hpc : t.pc with
  | queued =>
    have hp : t.Pending := by
      unfold Task.Pending
      rw [hpc]
      trivial
    exact h.setTask ht hp rfl rfl rfl rfl (.inr rfl)
  | processing w => exact .inl rfl
  | send pc => exact .inl rfl

lemma write : Post (Refused s) Inv (s.taskStep i t (.write i)) := by
  have hmem : t ∈ s.tasks := mem_of_getElem? ht
  unfold taskStep
  cases hpc : t.pc with
  | queued => exact .inl rfl
  | send pc => exact .inl rfl
  | processing w =>
    cases w with
    | none => exact .inl rfl
    | some grid =>
      obtain ⟨closed, hphase, -⟩ := h.of_pending hmem (Task.pending_of_processing hpc)
      have hwritten (hw : s.Working closed) (hcurrent : s.Current closed) :
          (s.stores t.kind)[t.index]? = some t.pdu ∧ ∃ ctx, s.configured[t.slot]? = some (ctx, some grid) := by
        obtain ⟨hslot, hpc', hread⟩ := hw t hmem
        refine ⟨hread, ?_⟩
        rw [hpc] at hpc'
        obtain hpc' | hpc' := hpc'
        · cases hpc'
        · obtain ⟨ctx, hcontext, -⟩ := hcurrent.grid
          refine ⟨ctx, ?_⟩
          rw [hslot, hcontext, ← TaskPc.processing.inj hpc']
      refine { h with phase := ?_, written := ?_ }
      · obtain ⟨closed, hphase, hsends⟩ := h.phase
        refine ⟨closed, ?_, hsends⟩
        cases hphase with
        | free hfree => exact .free { hfree with }
        | configuring c g hc => exact .configuring c g { hc with }
        | accepting ha => exact .accepting { ha with current := ha.current.congr rfl rfl rfl }
        | draining hd => exact .draining { hd with current := hd.current.congr rfl rfl rfl }
        | sending hs => exact .sending { hs with current := hs.current.congr rfl rfl rfl }
        | sent hs => exact .sent { hs with }
      · intro w hw
        rcases mem_append.mp hw with hw | hw
        · exact h.written w hw
        · obtain rfl := mem_singleton.mp hw
          obtain hacc | hdrain := hphase
          · exact hwritten hacc.working hacc.current
          · exact hwritten hdrain.working hdrain.current

lemma complete : Post (Refused s) Inv (s.taskStep i t (.complete i)) := by
  have hmem : t ∈ s.tasks := List.mem_of_getElem? ht
  have hi : i < s.tasks.length := (List.getElem?_eq_some_iff.mp ht).1
  have hbound := h.pending_bound
  have hle := h.pending_le
  have hlen : (s.tasks.eraseIdx i).length + 1 = s.tasks.length := by
    rw [List.length_eraseIdx_of_lt hi]
    omega
  unfold taskStep
  cases hpc : t.pc with
  | queued => exact .inl rfl
  | send pc => exact .inl rfl
  | processing w =>
    obtain ⟨closed, hphase, hsends⟩ := h.of_pending hmem (Task.pending_of_processing hpc)
    obtain hacc | hdrain := hphase
    · have hword : s.word = 2 ^ 31 + ((s.tasks.eraseIdx i).length + s.owner.pending + 1) := by
        rw [hacc.word]
        omega
      simp only []
      rw [onTaskCompletion_accepting hword (by omega), ok_bind]
      refine { h with phase := ⟨closed, .accepting ⟨rfl, hacc.owner, ?_, hacc.current.congr rfl rfl rfl, hacc.finished, hacc.stored⟩, hsends⟩, pending_le := ?_ }
      · intro u hu
        exact hacc.working u (List.mem_of_mem_eraseIdx hu)
      · show (s.tasks.eraseIdx i).length + s.owner.pending ≤ s.totalRequested
        omega
    · have hword : s.word = (s.tasks.eraseIdx i).length + 1 := by
        rw [hdrain.word, hlen]
      simp only []
      rw [onTaskCompletion_finishing hword (by omega), ok_bind]
      by_cases hlast : (s.tasks.eraseIdx i).length = 0
      · -- the last task
        simp only [hlast, decide_true, if_true]
        have hone : s.tasks = [t] := by
          obtain ⟨u, hu⟩ := List.length_eq_one_iff.mp (show s.tasks.length = 1 by omega)
          rw [hu] at hmem
          rw [hu, List.mem_singleton.mp hmem]
        obtain rfl : i = 0 := by omega
        refine { h with phase := ⟨closed, .sending ⟨rfl, .inr ⟨hdrain.owner, { t with pc := .send .sending }, ?_, rfl⟩,
          hdrain.current.congr rfl rfl rfl, hdrain.finished⟩, hsends⟩, pending_le := ?_ }
        · rw [hone]
          rfl
        · show (s.tasks.set 0 _).length + _ ≤ _
          rw [List.length_set]
          exact hle
      · simp only [hlast, decide_false, Bool.false_eq_true, if_false]
        refine { h with phase := ⟨closed, .draining ⟨rfl, ?_, hdrain.owner, ?_, hdrain.current.congr rfl rfl rfl, hdrain.finished⟩, hsends⟩, pending_le := ?_ }
        · intro hnil
          exact hlast (congrArg List.length hnil)
        · intro u hu
          exact hdrain.working u (List.mem_of_mem_eraseIdx hu)
        · show (s.tasks.eraseIdx i).length + s.owner.pending ≤ s.totalRequested
          omega

end

lemma stop : Post (Refused s) Inv (s.step .stop) := by
  show Inv (if s.word = idle then { s with word := maskStopped } else s)
  split
  next hw =>
    obtain ⟨hfree, hsends⟩ := h.free_of_idle hw
    refine { h with phase := ⟨s.configured.length, .free ⟨.inr rfl, hfree.owner, hfree.tasks, hfree.grid, rfl, hfree.finished⟩, ?_⟩ }
    rw [take_length]
    exact hsends
  · exact h

/-- **Every step** keeps the invariant, and only a full store stops the process. -/
theorem step {a : Action Context Grid Pdu} (ha : s.Within a) : Post (Refused s) Inv (s.step a) := by
  have htask {i : ℕ} {a : Action Context Grid Pdu}
      (ht : ∀ t, s.tasks[i]? = some t → Post (Refused s) Inv (s.taskStep i t a)) :
      Post (Refused s) Inv (step.taskOf s a i) := by
    unfold step.taskOf
    split
    · exact ht _ ‹_›
    · exact .inl rfl
  cases a with
  | configure ctx grid => exact h.configure ctx grid
  | assign =>
    simp only [Processor.step]
    split
    · exact h.assign ‹_›
    · exact .inl rfl
  | process kind pdu =>
    cases ho : s.owner with
    | holding => exact h.process ho ha pdu
    | _ => simp only [Processor.step, ho]; exact .inl rfl
  | store =>
    simp only [Processor.step]
    split
    · exact h.store ‹_›
    · exact .inl rfl
  | execute enqueued =>
    cases ho : s.owner with
    | enqueuing kind index pdu => exact h.execute ho enqueued
    | _ => simp only [Processor.step, ho]; exact .inl rfl
  | drop =>
    cases ho : s.owner with
    | dropping => exact h.drop ho
    | _ => simp only [Processor.step, ho]; exact .inl rfl
  | finish =>
    cases ho : s.owner with
    | holding => exact h.finish ho
    | _ => simp only [Processor.step, ho]; exact .inl rfl
  | ownerSend =>
    cases ho : s.owner with
    | send pc fromProcess => exact h.ownerSend ho
    | _ => simp only [Processor.step, ho]; exact .inl rfl
  | start i => exact htask fun t ht => h.start ht
  | write i => exact htask fun t ht => h.write ht
  | complete i => exact htask fun t ht => h.complete ht
  | taskSend i => exact htask fun t ht => h.taskSend ht
  | stop => exact h.stop

/-- **What the invariant says** about the grids. -/
lemma sendsOnce : SendsOnce s := by
  have hidle : idle = 2 ^ 31 - 1 := rfl
  have hbound := h.pending_bound
  refine ⟨?_, h.written⟩
  obtain ⟨closed, hphase, hsends⟩ := h.phase
  refine ⟨closed, hsends, ?_⟩
  have hpending (hw : s.Working closed) (t : Task Grid Pdu) (ht : t ∈ s.tasks) : closed ≤ t.slot := (hw t ht).1.ge
  cases hphase with
  | free hfree =>
    refine ⟨hfree.finished.ge, (hfree.finished.trans hfree.slots.symm).le, by have := hfree.slots; omega,
      fun _ => hfree.slots.symm, fun t ht => ?_⟩
    rw [hfree.tasks] at ht
    cases ht
  | configuring c g hconf =>
    have h1 := hconf.finished
    have h2 := hconf.slots
    have h3 := hconf.word
    refine ⟨by omega, by omega, by omega, fun hw => by omega, fun t ht => ?_⟩
    rw [hconf.tasks] at ht
    cases ht
  | accepting hacc =>
    have h1 := hacc.finished
    have h2 := hacc.current.slots
    have h3 := hacc.word
    exact ⟨by omega, by omega, by omega, fun hw => by omega, fun t ht _ => hpending hacc.working t ht⟩
  | draining hdrain =>
    have h1 := hdrain.finished
    have h2 := hdrain.current.slots
    have h3 := hdrain.word
    exact ⟨by omega, by omega, by omega, fun hw => by omega, fun t ht _ => hpending hdrain.working t ht⟩
  | sending hsend =>
    have h1 := hsend.finished
    have h2 := hsend.current.slots
    have h3 := hsend.word
    exact ⟨by omega, by omega, by omega, fun hw => by omega,
      fun t ht hp => absurd hp (not_pending_of_sender hsend.sender ht)⟩
  | sent hsent =>
    have h1 := hsent.finished
    have h2 := hsent.slots
    have h3 := hsent.word
    exact ⟨by omega, by omega, by omega, fun hw => by omega,
      fun t ht hp => absurd hp (not_pending_of_sender hsent.sender ht)⟩

/-- **What the invariant says** about the stores. -/
lemma storesHaveRoom_iff (hconf : s.isConfiguring = false) :
    StoresHaveRoom s ↔ s.earlier .prs = 0 ∧ s.requested .nzpCsiRs ≤ 2 := by
  have hprs := h.stored_prs
  constructor
  · intro hroom
    have h1 := (hroom hconf .prs).1
    have h2 : s.stored .nzpCsiRs ≤ 2 := (hroom hconf .nzpCsiRs).2
    rw [h.stored_eq hconf .nzpCsiRs (by decide)] at h2
    exact ⟨by omega, h2⟩
  · rintro ⟨h1, h2⟩ - kind
    have hle := h.requested_le kind
    have hstored : s.stored kind = s.requested kind := by
      by_cases hk : kind = .prs
      · subst hk
        omega
      · exact h.stored_eq hconf kind hk
    rw [hstored]
    refine ⟨le_rfl, ?_⟩
    cases kind with
    | nzpCsiRs => exact h2
    | pdcch => exact hle
    | pdsch => exact hle
    | ssb => exact hle
    | prs => exact hle

end

end Inv

/-! ### The end of a slot -/

def taskWeight (t : Task Grid Pdu) : ℕ :=
  match t.pc with
  | .queued => 4
  | .processing _ => 3
  | .send .sending => 2
  | .send .sent => 1

def ownerWeight (o : OwnerPc Context Grid Pdu) : ℕ :=
  match o with
  | .send .sending _ => 2
  | .send .sent _ => 1
  | _ => 0

def stepsLeft (s : Processor Context Grid Pdu) : ℕ := weight taskWeight s.tasks + ownerWeight s.owner

lemma onTaskCompletion_ok {r : Processor Context Grid Pdu × Bool} (h : s.onTaskCompletion = .ok r) :
    r.1 = { s with word := r.1.word } := by
  unfold onTaskCompletion at h
  split at h
  · cases h
  · rw [← Except.ok.inj h]

lemma onGridSent_ok (h : s.onGridSent = .ok s') : s' = { s with word := idle } := by
  unfold onGridSent at h
  split at h <;> cases h
  rfl

lemma sendResourceGrid_frame (s : Processor Context Grid Pdu) : s.sendResourceGrid.configured = s.configured ∧
    s.sendResourceGrid.finished = s.finished ∧ s.sendResourceGrid.tasks = s.tasks ∧
    s.sendResourceGrid.owner = s.owner := by
  unfold sendResourceGrid
  cases s.currentGrid <;> exact ⟨rfl, rfl, rfl, rfl⟩

lemma stepsLeft_setTask {t' : Task Grid Pdu} (ht : s.tasks[i]? = some t) (hlt : taskWeight t' < taskWeight t) :
    (s.setTask i t').stepsLeft < s.stepsLeft := by
  have hset := weight_set (w := taskWeight) ht t'
  show weight taskWeight (s.tasks.set i t') + ownerWeight s.owner < weight taskWeight s.tasks + ownerWeight s.owner
  omega

lemma stepsLeft_eraseIdx (ht : s.tasks[i]? = some t) (hpos : 0 < taskWeight t) :
    weight taskWeight (s.tasks.eraseIdx i) + ownerWeight s.owner < s.stepsLeft := by
  have herase := weight_eraseIdx (w := taskWeight) ht
  unfold stepsLeft
  omega

lemma taskStep_ends (ha : Ends s a) (ht : s.tasks[i]? = some t) (h : s.taskStep i t a = .ok s') :
    s'.configured = s.configured ∧ s'.finished = s.finished ∧ s'.stepsLeft < s.stepsLeft := by
  cases a with
  | start j =>
    cases hpc : t.pc with
    | queued =>
      simp only [taskStep, hpc, Except.ok.injEq] at h
      subst h
      refine ⟨rfl, rfl, stepsLeft_setTask ht ?_⟩
      simp [taskWeight, hpc]
    | processing w =>
      rw [taskStep, hpc] at h
      cases h
    | send pc =>
      rw [taskStep, hpc] at h
      cases h
  | complete j =>
    cases hpc : t.pc with
    | processing w =>
      simp only [taskStep, hpc] at h
      obtain ⟨⟨s1, send⟩, h1, h2⟩ := bind_eq_ok.mp h
      have hs1 := onTaskCompletion_ok h1
      dsimp only at hs1
      have ht1 : s1.tasks[i]? = some t := by
        rw [hs1]
        exact ht
      have hleft : s1.stepsLeft = s.stepsLeft := by rw [hs1]; rfl
      obtain rfl := Except.ok.inj h2
      cases send with
      | true =>
        simp only [if_true]
        refine ⟨by rw [hs1]; rfl, by rw [hs1]; rfl, hleft ▸ stepsLeft_setTask ht1 ?_⟩
        simp [taskWeight, hpc]
      | false =>
        refine ⟨by rw [hs1]; rfl, by rw [hs1]; rfl, hleft ▸ stepsLeft_eraseIdx ht1 ?_⟩
        simp [taskWeight, hpc]
    | queued =>
      rw [taskStep, hpc] at h
      cases h
    | send pc =>
      rw [taskStep, hpc] at h
      cases h
  | taskSend j =>
    obtain ⟨hc, hf, htasks, howner⟩ := sendResourceGrid_frame s
    cases hpc : t.pc with
    | send pc =>
      cases pc with
      | sending =>
        simp only [taskStep, hpc, Except.ok.injEq] at h
        subst h
        have hleft : s.sendResourceGrid.stepsLeft = s.stepsLeft := by unfold stepsLeft; rw [htasks, howner]
        refine ⟨hc, hf, hleft ▸ stepsLeft_setTask (t := t) (by rw [htasks, ht]) ?_⟩
        simp [taskWeight, hpc]
      | sent =>
        simp only [taskStep, hpc] at h
        obtain ⟨s1, h1, h2⟩ := bind_eq_ok.mp h
        obtain rfl := onGridSent_ok h1
        obtain rfl := Except.ok.inj h2
        refine ⟨rfl, rfl, stepsLeft_eraseIdx ht ?_⟩
        simp [taskWeight, hpc]
    | queued =>
      rw [taskStep, hpc] at h
      cases h
    | processing w =>
      rw [taskStep, hpc] at h
      cases h
  | ownerSend => cases h
  | _ => cases ha

lemma ends_step (ha : Ends s a) (h : s.step a = .ok s') :
    s'.configured = s.configured ∧ s'.finished = s.finished ∧ s'.stepsLeft < s.stepsLeft := by
  have htask {i : ℕ} (h : step.taskOf s a i = .ok s') :
      s'.configured = s.configured ∧ s'.finished = s.finished ∧ s'.stepsLeft < s.stepsLeft := by
    unfold step.taskOf at h
    split at h
    · exact taskStep_ends ha ‹_› h
    · cases h
  cases a with
  | ownerSend =>
    obtain ⟨hc, hf, htasks, -⟩ := sendResourceGrid_frame s
    cases ho : s.owner with
    | send pc fromProcess =>
      cases pc with
      | sending =>
        simp only [step, ho, Except.ok.injEq] at h
        subst h
        refine ⟨hc, hf, ?_⟩
        unfold stepsLeft
        rw [ho, htasks]
        exact Nat.add_lt_add_left (show 1 < 2 by decide) _
      | sent =>
        simp only [step, ho] at h
        obtain ⟨s1, h1, h2⟩ := bind_eq_ok.mp h
        obtain rfl := onGridSent_ok h1
        obtain rfl := Except.ok.inj h2
        refine ⟨rfl, rfl, ?_⟩
        unfold stepsLeft
        rw [ho]
        cases fromProcess <;> exact Nat.add_lt_add_left (show 0 < 1 by decide) _
    | _ =>
      simp only [step, ho] at h
      cases h
  | start i => exact htask h
  | complete i => exact htask h
  | taskSend i => exact htask h
  | _ => cases ha

lemma ends_enabled (h : s.Inv) (hf : s.finished = s.configured.length) :
    (s.sends = sentOf s.configured ∧ s.owner = .none ∧ s.tasks = [] ∧
      (s.word = StateWord.idle ∨ s.word = StateWord.maskStopped)) ∨ ∃ a s', Ends s a ∧ s.step a = .ok s' := by
  obtain ⟨closed, hphase, hsends⟩ := h.phase
  have hbound := h.pending_bound
  have hgo {a : Action Context Grid Pdu} (ha : Ends s a) (hs : ∃ s', s.step a = .ok s') :
      ∃ a s', Ends s a ∧ s.step a = .ok s' := ⟨a, exists_and_left.mpr ⟨ha, hs⟩⟩
  cases hphase with
  | free hfree =>
    refine .inl ⟨?_, hfree.owner, hfree.tasks, hfree.word⟩
    rw [hsends, ← hfree.slots, take_length]
  | configuring c g hconf =>
    have h1 := hconf.finished
    have h2 := hconf.slots
    omega
  | accepting hacc =>
    have h1 := hacc.finished
    have h2 := hacc.current.slots
    omega
  | draining hdrain =>
    right
    obtain ⟨t, rest, htasks⟩ := exists_cons_of_ne_nil hdrain.tasks
    have ht : s.tasks[0]? = some t := by rw [htasks]; rfl
    obtain ⟨-, hpc | hpc, -⟩ := hdrain.working t (mem_of_getElem? ht)
    · refine hgo (a := .start 0) trivial ?_
      simp only [step, step.taskOf, ht, taskStep, hpc]
      exact ⟨_, rfl⟩
    · have hlen : s.tasks.length = rest.length + 1 := by rw [htasks]; rfl
      have hword : s.word = rest.length + 1 := hdrain.word.trans hlen
      refine hgo (a := .complete 0) trivial ?_
      simp only [step, step.taskOf, ht, taskStep, hpc]
      rw [onTaskCompletion_finishing hword (by omega), ok_bind]
      exact ⟨_, rfl⟩
  | sending hsend =>
    right
    obtain ⟨howner, -⟩ | ⟨-, t, htasks, hpc⟩ := hsend.sender
    · refine hgo (a := .ownerSend) trivial ?_
      simp only [step, howner]
      exact ⟨_, rfl⟩
    · have ht : s.tasks[0]? = some t := by rw [htasks]; rfl
      refine hgo (a := .taskSend 0) trivial ?_
      simp only [step, step.taskOf, ht, taskStep, hpc]
      exact ⟨_, rfl⟩
  | sent hsent =>
    right
    obtain ⟨howner, -⟩ | ⟨-, t, htasks, hpc⟩ := hsent.sender
    · refine hgo (a := .ownerSend) trivial ?_
      simp only [step, howner]
      rw [onGridSent_eq hsent.word, ok_bind]
      exact ⟨_, rfl⟩
    · have ht : s.tasks[0]? = some t := by rw [htasks]; rfl
      refine hgo (a := .taskSend 0) trivial ?_
      simp only [step, step.taskOf, ht, taskStep, hpc]
      rw [onGridSent_eq hsent.word, ok_bind]
      exact ⟨_, rfl⟩

lemma within_of_ends (ha : Ends s a) : s.Within a := by
  cases a <;> trivial

lemma slotEnds (h : s.Inv) : SlotEnds s := by
  intro hf
  refine Inevitable.of_measure (I := fun s' => s'.Inv ∧ s'.finished = s'.configured.length ∧ s'.configured = s.configured)
    stepsLeft ?_ ?_ ⟨h, hf, rfl⟩
  · rintro s1 a s2 ⟨hinv, hf1, hc1⟩ ha hstep
    obtain ⟨hc, hf2, hlt⟩ := ends_step ha hstep
    exact ⟨⟨(hinv.step (within_of_ends ha)).of_ok hstep, by rw [hf2, hc, hf1], hc.trans hc1⟩, hlt⟩
  · rintro s1 ⟨hinv, hf1, hc1⟩
    rw [← hc1]
    exact ends_enabled hinv hf1

/-- **The downlink processor.** Every grid is sent once and complete, and the stores have room iff no PRS is left of an
earlier slot and at most two CSI-RS are requested. -/
theorem downlinkProcessor_iff (h : Reach step Within init s) :
    SendsOnce s ∧ SlotEnds s ∧
      (s.isConfiguring = false → (StoresHaveRoom s ↔ s.earlier .prs = 0 ∧ s.requested .nzpCsiRs ≤ 2)) ∧
      ∀ a e, s.Within a → s.step a = .error e → e = .notEnabled ∨ ∃ kind, e = .fullStore kind ∧ ¬ StoresHaveRoom s := by
  have hinv : s.Inv := h.invariant Inv.init fun s a s' hs ha hstep => (hs.step ha).of_ok hstep
  refine ⟨hinv.sendsOnce, slotEnds hinv, hinv.storesHaveRoom_iff, fun a e ha he => ?_⟩
  exact (hinv.step ha).of_error he

def request (kind : PduKind) : List (Action Unit Unit Unit) := [.process kind (), .store, .execute true]

/-- A slot with one SSB, whose task completes after `finish_processing_pdus`. -/
theorem downlinkProcessor_ssb : ∃ s : Processor Unit Unit Unit, Reach step Within init s ∧
    s.sends = [(0, some (), ())] ∧ SendsOnce s ∧ StoresHaveRoom s := by
  obtain ⟨s, hs, hsends, hconf, hroom⟩ : ∃ s : Processor Unit Unit Unit, Reach step Within init s ∧
      s.sends = [(0, some (), ())] ∧ s.isConfiguring = false ∧ s.earlier .prs = 0 ∧ s.requested .nzpCsiRs ≤ 2 :=
    Reach.exists_run ([.configure () (some ()), .assign] ++ request .ssb ++
      [.start 0, .write 0, .finish, .complete 0, .taskSend 0, .taskSend 0]) (by decide +kernel)
  exact ⟨s, hs, hsends, (downlinkProcessor_iff hs).1, ((downlinkProcessor_iff hs).2.2.1 hconf).mpr hroom⟩

/-- The store for CSI-RS is full after two of sixteen PDUs, and the one for PRS keeps the PDUs of the slot before. -/
theorem stores_without_room :
    (∃ s : Processor Unit Unit Unit, Reach step Within init s ∧ s.requested .nzpCsiRs = 3 ∧
      (match s.step .store with
        | .error e => e = .fullStore .nzpCsiRs
        | .ok _ => False)) ∧
    ∃ s : Processor Unit Unit Unit, Reach step Within init s ∧ s.owner = .holding ∧ s.requested .prs = 0 ∧
      (s.stores .prs).length = 1 := by
  constructor
  · have hrun : (run step (fun s a => decide (s.Within a)) (init : Processor Unit Unit Unit)
        ([.configure () (some ()), .assign] ++ request .nzpCsiRs ++ request .nzpCsiRs ++ [.process .nzpCsiRs ()])).any
        (fun s => decide (s.requested .nzpCsiRs = 3) && match s.step .store with
          | .error e => decide (e = .fullStore .nzpCsiRs)
          | .ok _ => false) = true := by decide +kernel
    obtain ⟨s, hs, hp⟩ := Reach.exists_of_run (fun _ _ h => of_decide_eq_true h) hrun
    rw [Bool.and_eq_true, decide_eq_true_eq] at hp
    refine ⟨s, hs, hp.1, ?_⟩
    cases hstep : s.step .store with
    | error e =>
      rw [hstep] at hp
      exact of_decide_eq_true hp.2
    | ok s' =>
      rw [hstep] at hp
      cases hp.2
  · exact Reach.exists_run ([.configure () (some ()), .assign] ++ request .prs ++
      [.start 0, .complete 0, .finish, .ownerSend, .ownerSend, .configure () (some ()), .assign]) (by decide +kernel)

end Processor

end Invariant

end SrsRan.Phy.Downlink
