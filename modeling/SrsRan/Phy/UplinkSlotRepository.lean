import SrsRan.Lib.StateWord

/-!
# The uplink PDU slot repository

The state word of `uplink_pdu_slot_repository_impl` has two numbers and two flags in 32 bits, which the operations change by
additions and masks.  Each operation on `Counters.word` is one on a part, as long as no part leaves its range.
-/

namespace SrsRan.Phy.Uplink

open Lib Nat Bool

/-! ### The word -/

namespace PendingPduCount

def acceptingPduMask : ℕ := 0x80000000

def lockedMask : ℕ := 0x40000000

def idle : ℕ := 0x0

def stopped : ℕ := 0x7fffffff

def incQueue : ℕ := 0x1

def incExec : ℕ := 0x1000

variable (state : ℕ)

def isStateIdle : Bool := state = idle

def isStateStopped : Bool := state = stopped

def isStateLocked : Bool := state &&& lockedMask ≠ 0

def isStateAcceptingPdu : Bool := state &&& acceptingPduMask ≠ 0

def hasStatePendingPduInQueue : Bool := state &&& 0xfff ≠ 0

def hasStatePendingPduInExec : Bool := state &&& 0xfff000 ≠ 0

def fetchAdd (state n : ℕ) : ℕ := (state + n) % 2 ^ 32

def fetchSub (state n : ℕ) : ℕ := (state + (2 ^ 32 - n)) % 2 ^ 32

def skipDiscard : Bool :=
  isStateStopped state || isStateLocked state || !hasStatePendingPduInQueue state || hasStatePendingPduInExec state

def skipHandleRxSymbol : Bool := isStateStopped state || isStateLocked state || !hasStatePendingPduInQueue state

def discarding (state nofPendingPduInQueue : ℕ) : ℕ := state ||| nofPendingPduInQueue * incExec ||| lockedMask

def canCreateTask : Bool := !isStateAcceptingPdu state && hasStatePendingPduInQueue state

def canFinishPdu : Bool :=
  !isStateAcceptingPdu state && !isStateStopped state && hasStatePendingPduInExec state && hasStatePendingPduInQueue state

def isDiscarded : Bool := !hasStatePendingPduInQueue state && !hasStatePendingPduInExec state && isStateLocked state

def stopWaits : Bool := isStateAcceptingPdu state || hasStatePendingPduInExec state || isStateLocked state

/-- `is_slot_valid`, but for the slot -/
def isReadyToProcess : Bool :=
  !(isStateIdle state || isStateAcceptingPdu state || isStateLocked state || isStateStopped state)

end PendingPduCount

/-! ### The parts of the word -/

/-- **The parts of the word.** -/
structure Counters where
  queue : ℕ
  exec : ℕ
  locked : Bool
  accepting : Bool
  queue_lt : queue < 4096
  exec_lt : exec < 4096

namespace Counters

open PendingPduCount

def word (c : Counters) : ℕ := c.queue + 4096 * c.exec + 2 ^ 30 * c.locked.toNat + 2 ^ 31 * c.accepting.toNat

variable (c : Counters)

lemma flag_le (b : Bool) : b.toNat ≤ 1 := toNat_le b

lemma word_lt : c.word < 2 ^ 32 := by
  have h1 := c.queue_lt
  have h2 := c.exec_lt
  have h3 := flag_le c.locked
  have h4 := flag_le c.accepting
  unfold word
  omega

lemma toNat_eq_one (b : Bool) : b.toNat = 1 ↔ b = true := by cases b <;> simp

@[simp] lemma isStateLocked_word : isStateLocked c.word = c.locked := by
  have h1 := c.queue_lt
  have h2 := c.exec_lt
  have h3 := flag_le c.locked
  have hdiv : c.word / 2 ^ 30 % 2 = c.locked.toNat := by
    unfold word
    omega
  have hiff : isStateLocked c.word = true ↔ c.locked = true := by
    rw [isStateLocked, decide_eq_true_eq, ← toNat_eq_one, ← hdiv]
    exact and_flag _ 30
  exact Bool.eq_iff_iff.mpr hiff

@[simp] lemma isStateAcceptingPdu_word : isStateAcceptingPdu c.word = c.accepting := by
  have h1 := c.queue_lt
  have h2 := c.exec_lt
  have h3 := flag_le c.locked
  have h4 := flag_le c.accepting
  have hdiv : c.word / 2 ^ 31 % 2 = c.accepting.toNat := by
    unfold word
    omega
  have hiff : isStateAcceptingPdu c.word = true ↔ c.accepting = true := by
    rw [isStateAcceptingPdu, decide_eq_true_eq, ← toNat_eq_one, ← hdiv]
    exact and_flag _ 31
  exact Bool.eq_iff_iff.mpr hiff

lemma word_mod : c.word &&& 0xfff = c.queue := by
  have h1 := c.queue_lt
  show c.word &&& (2 ^ 12 - 1) = c.queue
  rw [and_low]
  unfold word
  omega

@[simp] lemma hasStatePendingPduInQueue_word : hasStatePendingPduInQueue c.word = decide (c.queue ≠ 0) := by
  rw [hasStatePendingPduInQueue, word_mod]

lemma and_mask (w : ℕ) : w &&& 0xfff000 = 4096 * (w / 4096 % 4096) := by
  have hdiv : (w &&& 0xfff000) / 2 ^ 12 = w / 2 ^ 12 % 2 ^ 12 := by
    rw [and_div_two_pow, ← and_low]
    rfl
  have hmod : (w &&& 0xfff000) % 2 ^ 12 = 0 := by
    rw [and_mod_two_pow]
    exact and_zero _
  omega

@[simp] lemma hasStatePendingPduInExec_word : hasStatePendingPduInExec c.word = decide (c.exec ≠ 0) := by
  have h1 := c.queue_lt
  have h2 := c.exec_lt
  have hdiv : c.word / 4096 % 4096 = c.exec := by
    unfold word
    omega
  rw [hasStatePendingPduInExec, and_mask, hdiv]
  exact decide_eq_decide.mpr (by omega)

@[simp] lemma isStateStopped_word : isStateStopped c.word = false := by
  have h1 := c.queue_lt
  have h2 := c.exec_lt
  rw [isStateStopped, decide_eq_false_iff_not]
  show ¬ c.word = 2 ^ 31 - 1
  unfold word
  omega

lemma word_eq_idle : c.word = idle ↔ c.queue = 0 ∧ c.exec = 0 ∧ c.locked = false ∧ c.accepting = false := by
  have hl : c.locked.toNat = 0 ↔ c.locked = false := by cases c.locked <;> simp
  have ha : c.accepting.toNat = 0 ↔ c.accepting = false := by cases c.accepting <;> simp
  rw [← hl, ← ha]
  show c.word = 0 ↔ _
  unfold word
  omega

/-! ### The operations -/

lemma fetchAdd_queue {c : Counters} (h : c.queue + 1 < 4096) :
    fetchAdd c.word incQueue = word { c with queue := c.queue + 1, queue_lt := h } := by
  have hlt := word_lt { c with queue := c.queue + 1, queue_lt := h }
  unfold fetchAdd incQueue
  unfold word at hlt ⊢
  dsimp only at hlt ⊢
  omega

lemma fetchAdd_exec {c : Counters} (h : c.exec + 1 < 4096) :
    fetchAdd c.word incExec = word { c with exec := c.exec + 1, exec_lt := h } := by
  have hlt := word_lt { c with exec := c.exec + 1, exec_lt := h }
  unfold fetchAdd incExec
  unfold word at hlt ⊢
  dsimp only at hlt ⊢
  omega

lemma fetchSub_both {c : Counters} (hq : 0 < c.queue) (he : 0 < c.exec) :
    fetchSub c.word (incQueue + incExec) =
      word { c with queue := c.queue - 1, exec := c.exec - 1, queue_lt := lt_of_le_of_lt (sub_le _ _) c.queue_lt,
                    exec_lt := lt_of_le_of_lt (sub_le _ _) c.exec_lt } := by
  have hlt := c.word_lt
  unfold fetchSub incQueue incExec
  unfold word at hlt ⊢
  dsimp only
  omega

lemma xor_accepting {c : Counters} (h : c.accepting = true) :
    c.word ^^^ acceptingPduMask = word { c with accepting := false } := by
  have h1 := c.queue_lt
  have h2 := c.exec_lt
  have h3 := flag_le c.locked
  have hword : c.word = c.queue + 4096 * c.exec + 2 ^ 30 * c.locked.toNat + 2 ^ 31 := by
    rw [word, h, toNat_true, mul_one]
  show c.word ^^^ 2 ^ 31 = c.queue + 4096 * c.exec + 2 ^ 30 * c.locked.toNat + 0
  rw [xor_flag (by omega), hword]
  omega

lemma xor_locked {c : Counters} (h : c.locked = true) : c.word ^^^ lockedMask = word { c with locked := false } := by
  have h1 := c.queue_lt
  have h2 := c.exec_lt
  have hword : c.word = c.queue + 4096 * c.exec + 2 ^ 30 + 2 ^ 31 * c.accepting.toNat := by
    rw [word, h, toNat_true, mul_one]
  show c.word ^^^ 2 ^ 30 = c.queue + 4096 * c.exec + 0 + 2 ^ 31 * c.accepting.toNat
  rw [xor_flag (by omega), hword]
  omega

lemma or_locked {c : Counters} (h : c.locked = false) : c.word ||| lockedMask = word { c with locked := true } := by
  have h1 := c.queue_lt
  have h2 := c.exec_lt
  have hword : c.word = c.queue + 4096 * c.exec + 2 ^ 31 * c.accepting.toNat := by
    rw [word, h, toNat_false, mul_zero, add_zero]
  show c.word ||| 2 ^ 30 = c.queue + 4096 * c.exec + 2 ^ 30 + 2 ^ 31 * c.accepting.toNat
  rw [or_flag (by omega), hword]
  omega

lemma discarding_word {c : Counters} (hexec : c.exec = 0) (hlocked : c.locked = false) (hacc : c.accepting = false) :
    discarding c.word c.queue = word { c with exec := c.queue, exec_lt := c.queue_lt, locked := true } := by
  have hword : c.word = c.queue := by
    rw [word, hexec, hlocked, hacc]
    rfl
  have hor : c.word ||| c.queue * incExec = word { c with exec := c.queue, exec_lt := c.queue_lt } := by
    have hadd := two_pow_add_eq_or_of_lt (i := 12) c.queue_lt c.queue
    rw [hword, Nat.or_comm]
    show c.queue * 2 ^ 12 ||| c.queue = c.queue + 4096 * c.queue + 2 ^ 30 * c.locked.toNat + 2 ^ 31 * c.accepting.toNat
    rw [mul_comm, ← hadd, hlocked, hacc, toNat_false]
    omega
  rw [discarding, hor]
  exact or_locked hlocked

end Counters

end SrsRan.Phy.Uplink
