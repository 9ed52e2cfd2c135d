import SrsRan.Support.Bytes
import Mathlib.Data.List.Basic

/-!
# `rlc_sdu_queue_lockfree`

The queue between the upper layer, which writes and discards SDUs, and the transmitter, which reads them.  Besides the FIFO
it keeps one slot per PDCP SN modulo the capacity.  A discarded SDU stays in the FIFO and is skipped when it reaches the
front.  This is the sequential behaviour of the completed operations.
-/

namespace SrsRan.Rlc

open Support

structure Sdu where
  buf : Bytes
  isRetx : Bool
  pdcpSn : Option ℕ
  timeOfArrival : ℕ
deriving DecidableEq

/-- `rlc_sdu_queue_lockfree`. -/
structure SduQueue where
  capacity : ℕ
  byteLimit : ℕ
  /-- the number of SDUs in the upper and the number of bytes in the lower 32 bits -/
  state : ℕ
  queue : List Sdu
  /-- `sdu_states`, with the two sentinels below -/
  sduStates : ℕ → ℕ
  sduSizes : ℕ → ℕ

namespace SduQueue

def stateFree : ℕ := 0xffffffff

def stateDiscarded : ℕ := 0xfffffffe

def empty (capacity byteLimit : ℕ) : SduQueue where
  capacity := capacity
  byteLimit := byteLimit
  state := 0
  queue := []
  sduStates := fun _ => stateFree
  sduSizes := fun _ => 0

variable (q : SduQueue)

def nBytes : ℕ := q.state % 2 ^ 32

def nSdus : ℕ := q.state / 2 ^ 32

def isEmpty (q : SduQueue) : Bool := q.queue.isEmpty

def stateAdd (sduSize : ℕ) : SduQueue := { q with state := (q.state + (2 ^ 32 + sduSize % 2 ^ 32)) % 2 ^ 64 }

def stateSub (sduSize : ℕ) : SduQueue := { q with state := (2 ^ 64 + q.state - (2 ^ 32 + sduSize % 2 ^ 32)) % 2 ^ 64 }

def setSlot (pdcpSn v : ℕ) : SduQueue := { q with sduStates := Function.update q.sduStates (pdcpSn % q.capacity) v }

/-- `write`; `none` when the SDU is not accepted. -/
def write (sdu : Sdu) : Option SduQueue :=
  if sdu.buf.length + q.nBytes ≥ q.byteLimit then none
  else
    match sdu.pdcpSn with
    | some sn =>
      if q.sduStates (sn % q.capacity) ≠ stateFree then none
      -- the slot taken for the SDU is released again when the FIFO is full
      else if q.queue.length ≥ q.capacity then none
      else
        some
          ({ q.setSlot sn sn with
              sduSizes := Function.update q.sduSizes (sn % q.capacity) sdu.buf.length
              queue := q.queue ++ [sdu] }.stateAdd sdu.buf.length)
    | none =>
      if q.queue.length ≥ q.capacity then none
      else some ({ q with queue := q.queue ++ [sdu] }.stateAdd sdu.buf.length)

/-- `try_discard`; `none` when the slot does not hold the PDCP SN. -/
def tryDiscard (pdcpSn : ℕ) : Option SduQueue :=
  if q.sduStates (pdcpSn % q.capacity) = pdcpSn then
    some ((q.setSlot pdcpSn stateDiscarded).stateSub (q.sduSizes (pdcpSn % q.capacity)))
  else none

/-- `check_and_release`: frees the slot and tells whether the SDU was still valid. -/
def checkAndRelease (pdcpSn : ℕ) : Bool × SduQueue :=
  let oldState := q.sduStates (pdcpSn % q.capacity)
  let released := q.setSlot pdcpSn stateFree
  if oldState = pdcpSn then (true, released.stateSub (q.sduSizes (pdcpSn % q.capacity)))
  -- the totals were already updated on discard
  else if oldState = stateDiscarded then (false, released)
  else (false, released.stateSub (q.sduSizes (pdcpSn % q.capacity)))

def check (pdcpSn : ℕ) : Bool := q.sduStates (pdcpSn % q.capacity) = pdcpSn

def readFrom (q : SduQueue) : List Sdu → Option Sdu × SduQueue
  | [] => (none, { q with queue := [] })
  | sdu :: rest =>
    match sdu.pdcpSn with
    | some sn =>
      let r := { q with queue := rest }.checkAndRelease sn
      if r.1 then (some sdu, r.2) else readFrom r.2 rest
    | none => (some sdu, { q with queue := rest }.stateSub sdu.buf.length)

/-- `read`: the first SDU of the FIFO that is not discarded. -/
def read : Option Sdu × SduQueue := q.readFrom q.queue

def frontFrom (q : SduQueue) : List Sdu → Option Sdu × SduQueue
  | [] => (none, { q with queue := [] })
  | sdu :: rest =>
    match sdu.pdcpSn with
    | some sn =>
      if q.check sn then (some sdu, { q with queue := sdu :: rest })
      else
        let r := { q with queue := rest }.checkAndRelease sn
        if r.1 then (none, r.2) else frontFrom r.2 rest
    | none => (some sdu, { q with queue := sdu :: rest })

def front : Option Sdu × SduQueue := q.frontFrom q.queue

@[simp] lemma queue_stateAdd (n : ℕ) : (q.stateAdd n).queue = q.queue := rfl
@[simp] lemma queue_stateSub (n : ℕ) : (q.stateSub n).queue = q.queue := rfl
@[simp] lemma queue_setSlot (sn v : ℕ) : (q.setSlot sn v).queue = q.queue := rfl

@[simp] lemma queue_checkAndRelease (sn : ℕ) : (q.checkAndRelease sn).2.queue = q.queue := by
  unfold checkAndRelease
  dsimp only
  split
  · rfl
  · split <;> rfl

lemma queue_write {q q' : SduQueue} {sdu : Sdu} (h : q.write sdu = some q') : q'.queue = q.queue ++ [sdu] := by
  unfold write at h
  split at h
  · cases h
  split at h
  · split at h
    · cases h
    split at h
    · cases h
    · cases h; rfl
  · split at h
    · cases h
    · cases h; rfl

lemma queue_tryDiscard {q q' : SduQueue} {pdcpSn : ℕ} (h : q.tryDiscard pdcpSn = some q') : q'.queue = q.queue := by
  unfold tryDiscard at h
  split at h
  · cases h; rfl
  · cases h

lemma readFrom_suffix (l : List Sdu) : (q.readFrom l).1.toList ++ (q.readFrom l).2.queue <:+ l := by
  induction l generalizing q with
  | nil => simp [readFrom]
  | cons sdu rest ih =>
    cases hsn : sdu.pdcpSn with
    | none => simp [readFrom, hsn]
    | some sn =>
      simp only [readFrom, hsn]
      split
      · simp
      · exact (ih _).trans (List.suffix_cons sdu rest)

lemma frontFrom_suffix (l : List Sdu) : (q.frontFrom l).2.queue <:+ l := by
  induction l generalizing q with
  | nil => simp [frontFrom]
  | cons sdu rest ih =>
    cases hsn : sdu.pdcpSn with
    | none => simp [frontFrom, hsn]
    | some sn =>
      simp only [frontFrom, hsn]
      split
      · exact List.suffix_rfl
      · split
        · simp
        · exact (ih _).trans (List.suffix_cons sdu rest)

end SduQueue

end SrsRan.Rlc
