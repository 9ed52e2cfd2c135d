import SrsRan.Support.Window
import SrsRan.Lib.Run

/-!
# `rlc_retx_queue`

The FIFO of pending retransmissions of an RLC AM transmitter.  `remove_sn` only marks elements as invalid, and
`clean_invalid_front` drops marked elements that reach the front, so the front is always valid and the assertions in `front`
and `replace_front` cannot fail.
-/

namespace SrsRan.Rlc

open Lib.Run List

structure AmdRetx where
  sn : ℕ
  so : ℕ
  length : ℕ
deriving DecidableEq

structure RetxQueueState where
  retxBytes : ℕ := 0
  nRetxSoZero : ℕ := 0
  nRetxSoNonzero : ℕ := 0
deriving DecidableEq

namespace RetxQueueState

def add (st : RetxQueueState) (elem : AmdRetx) : RetxQueueState :=
  let st := { st with retxBytes := (st.retxBytes + elem.length) % 2 ^ 32 }
  if elem.so = 0 then { st with nRetxSoZero := (st.nRetxSoZero + 1) % 2 ^ 32 }
  else { st with nRetxSoNonzero := (st.nRetxSoNonzero + 1) % 2 ^ 32 }

/-- The three counters stop at zero. -/
def subtract (st : RetxQueueState) (elem : AmdRetx) : RetxQueueState :=
  let st := { st with retxBytes := st.retxBytes - elem.length }
  if elem.so = 0 then { st with nRetxSoZero := st.nRetxSoZero - 1 }
  else { st with nRetxSoNonzero := st.nRetxSoNonzero - 1 }

/-- The counters are in the range of 32 bits. -/
def Fits (st : RetxQueueState) : Prop := st.retxBytes < 2 ^ 32 ∧ st.nRetxSoZero < 2 ^ 32 ∧ st.nRetxSoNonzero < 2 ^ 32

end RetxQueueState

structure RetxQueueItem where
  invalid : Bool
  retx : AmdRetx
deriving DecidableEq

/-- `rlc_retx_queue`. -/
structure RetxQueue where
  capacity : ℕ
  queue : List RetxQueueItem
  st : RetxQueueState
  /-- the element at the front is not marked as removed -/
  front_valid : ∀ e ∈ queue.head?, e.invalid = false

namespace RetxQueue

/-- `clean_invalid_front` on the underlying ring buffer. -/
def cleanInvalidFront (l : List RetxQueueItem) : List RetxQueueItem := l.dropWhile (·.invalid)

lemma cleanInvalidFront_front (l : List RetxQueueItem) : ∀ e ∈ (cleanInvalidFront l).head?, e.invalid = false := by
  intro e he
  have := head?_dropWhile_not (·.invalid) l
  unfold cleanInvalidFront at he
  rw [Option.mem_def.mp he] at this
  simpa using this

def empty (capacity : ℕ) : RetxQueue := ⟨capacity, [], {}, by simp⟩

def isEmpty (q : RetxQueue) : Bool := q.queue.isEmpty

variable (q : RetxQueue)

def size : ℕ := q.queue.length

/-- `try_push`; `none` when the ring buffer is full. -/
def tryPush (retx : AmdRetx) : Option RetxQueue :=
  if q.queue.length = q.capacity then none
  else
    some
      { q with
        queue := q.queue ++ [⟨false, retx⟩]
        st := q.st.add retx
        front_valid := by
          cases h : q.queue with
          | nil => simp
          | cons e l => simpa [h] using q.front_valid }

def pop : RetxQueue :=
  match q.queue with
  | [] => q
  | e :: rest =>
    { q with
      queue := cleanInvalidFront rest
      st := q.st.subtract e.retx
      front_valid := cleanInvalidFront_front rest }

/-- `front`; callers check first that the queue is not empty. -/
def front : Option AmdRetx := q.queue.head?.map (·.retx)

def replaceFront (retx : AmdRetx) : RetxQueue :=
  match q.queue with
  | [] => q
  | e :: rest =>
    { q with
      queue := ⟨false, retx⟩ :: rest
      st := (q.st.subtract e.retx).add retx
      front_valid := by simp }

lemma size_pop_lt {retx : AmdRetx} (h : q.front = some retx) : q.pop.size < q.size := by
  cases hq : q.queue with
  | nil => simp [front, hq] at h
  | cons e rest =>
    have hle : (cleanInvalidFront rest).length ≤ rest.length := (dropWhile_sublist _).length_le
    simp only [pop, size, hq, length_cons]
    omega

/-- The loop of `remove_sn`, which also says whether it removed an element. -/
def invalidate (sn : ℕ) : RetxQueueState → List RetxQueueItem → RetxQueueState × List RetxQueueItem × Bool
  | st, [] => (st, [], false)
  | st, e :: rest =>
    if e.invalid = false ∧ e.retx.sn = sn then
      let r := invalidate sn (st.subtract e.retx) rest
      (r.1, { e with invalid := true } :: r.2.1, true)
    else
      let r := invalidate sn st rest
      (r.1, e :: r.2.1, r.2.2)

def removeSn (sn : ℕ) : RetxQueue × Bool :=
  let r := invalidate sn q.st q.queue
  ({ q with queue := cleanInvalidFront r.2.1, st := r.1, front_valid := cleanInvalidFront_front r.2.1 }, r.2.2)

def clear : RetxQueue := { q with queue := [], st := {}, front_valid := nofun }

/-- The calls of the queue. -/
inductive Op
  | tryPush (retx : AmdRetx)
  | pop
  | replaceFront (retx : AmdRetx)
  | removeSn (sn : ℕ)
  | clear

/-- An operation fails with the assertion of `replace_front` about an empty queue. -/
def step : Op → Except Unit RetxQueue
  | .tryPush retx => .ok ((q.tryPush retx).getD q)
  | .pop => .ok q.pop
  | .replaceFront retx => if q.isEmpty then .error () else .ok (q.replaceFront retx)
  | .removeSn sn => .ok (q.removeSn sn).1
  | .clear => .ok q.clear

/-! ### The queue of the valid elements -/

def validItems (l : List RetxQueueItem) : List AmdRetx := (l.filter (!·.invalid)).map (·.retx)

def valid : List AmdRetx := validItems q.queue

/-- What an operation does to the valid elements. -/
def Op.fifo : Op → List AmdRetx
  | .tryPush retx => if q.size = q.capacity then q.valid else q.valid ++ [retx]
  | .pop => q.valid.tail
  | .replaceFront retx => retx :: q.valid.tail
  | .removeSn sn => q.valid.filter (·.sn ≠ sn)
  | .clear => []

def counts (l : List AmdRetx) : RetxQueueState where
  retxBytes := (l.map (·.length)).sum
  nRetxSoZero := l.countP (·.so = 0)
  nRetxSoNonzero := l.countP (·.so ≠ 0)

/-- What is expected of the queue after an operation. -/
structure Reports (op : Op) (q' : RetxQueue) : Prop where
  state : q'.st = counts q'.valid
  front : ∀ e ∈ q'.queue.head?, e.invalid = false
  empty : q'.isEmpty = true ↔ q'.valid = []
  order : q'.valid = op.fifo q

lemma validItems_cleanInvalidFront (l : List RetxQueueItem) : validItems (cleanInvalidFront l) = validItems l := by
  induction l with
  | nil => rfl
  | cons e l ih =>
    rw [cleanInvalidFront] at ih
    rw [cleanInvalidFront, dropWhile_cons]
    cases he : e.invalid with
    | true => simpa [validItems, he] using ih
    | false => rfl

lemma validItems_cons {e : RetxQueueItem} {l : List RetxQueueItem} (he : e.invalid = false) :
    validItems (e :: l) = e.retx :: validItems l := by
  simp [validItems, he]

lemma valid_cons {e : RetxQueueItem} {rest : List RetxQueueItem} (hq : q.queue = e :: rest) :
    q.valid = e.retx :: validItems rest := by
  rw [valid, hq]
  exact validItems_cons (q.front_valid e (by rw [hq]; rfl))

lemma isEmpty_iff : q.isEmpty = true ↔ q.valid = [] := by
  cases hq : q.queue with
  | nil => simp [isEmpty, valid, validItems, hq]
  | cons e l => simp [isEmpty, q.valid_cons hq, hq]

/-- The counters are those of the elements, without a wrap-around. -/
def Tracks (st : RetxQueueState) (l : List AmdRetx) : Prop := st = counts l ∧ st.Fits

lemma tracks_nil : Tracks {} [] := ⟨rfl, by decide, by decide, by decide⟩

variable {st : RetxQueueState} {p l : List AmdRetx} {x : AmdRetx}

lemma counts_cons : counts (p ++ x :: l) = if x.so = 0
    then ⟨(counts (p ++ l)).retxBytes + x.length, (counts (p ++ l)).nRetxSoZero + 1, (counts (p ++ l)).nRetxSoNonzero⟩
    else ⟨(counts (p ++ l)).retxBytes + x.length, (counts (p ++ l)).nRetxSoZero, (counts (p ++ l)).nRetxSoNonzero + 1⟩ := by
  split <;> simp [counts, *] <;> omega

lemma Tracks.subtract (h : Tracks st (p ++ x :: l)) : Tracks (st.subtract x) (p ++ l) := by
  obtain ⟨rfl, hfits⟩ := h
  rw [counts_cons] at hfits ⊢
  rw [RetxQueueState.subtract, Tracks]
  split at hfits
  all_goals
    simp only [RetxQueueState.Fits, *, if_true, if_false, Nat.add_sub_cancel, true_and] at hfits ⊢
    omega

lemma Tracks.add_iff (h : Tracks st (p ++ l)) :
    st.add x = counts (p ++ x :: l) ↔ (counts (p ++ x :: l)).Fits := by
  obtain ⟨rfl, hfits⟩ := h
  rw [counts_cons, RetxQueueState.add]
  split
  all_goals
    simp only [RetxQueueState.Fits, RetxQueueState.mk.injEq, true_and, and_true] at hfits ⊢
    omega

lemma validItems_invalidate (sn : ℕ) (st : RetxQueueState) (l : List RetxQueueItem) :
    validItems (invalidate sn st l).2.1 = (validItems l).filter (·.sn ≠ sn) := by
  induction l generalizing st with
  | nil => rfl
  | cons e l ih =>
    rw [invalidate]
    split
    next h => simpa [validItems, h.1, h.2] using ih _
    next h => cases he : e.invalid <;> simp_all [validItems]

/-- The loop takes the elements of the number out of the counters, one after another. -/
lemma Tracks.invalidate {items : List RetxQueueItem} (h : Tracks st (p ++ validItems items)) (sn : ℕ) :
    Tracks (RetxQueue.invalidate sn st items).1 (p ++ (validItems items).filter (·.sn ≠ sn)) := by
  induction items generalizing p st with
  | nil => exact h
  | cons e items ih =>
    rw [RetxQueue.invalidate]
    split
    next hc =>
      rw [validItems_cons hc.1] at h ⊢
      rw [filter_cons_of_neg (by simp [hc.2])]
      exact ih h.subtract
    next hc =>
      cases he : e.invalid with
      | true =>
        rw [show validItems (e :: items) = validItems items by simp [validItems, he]] at h ⊢
        exact ih h
      | false =>
        rw [validItems_cons he] at h ⊢
        rw [filter_cons_of_pos (by simpa [he] using hc), append_cons]
        rw [append_cons] at h
        exact ih h

lemma valid_step {op : Op} {q' : RetxQueue} (h : q.step op = .ok q') : q'.valid = op.fifo q := by
  cases op with
  | tryPush retx =>
    cases h
    rw [Op.fifo, tryPush, size]
    split
    · rfl
    · simp [valid, validItems]
  | pop =>
    cases h
    cases hq : q.queue with
    | nil => simp [pop, Op.fifo, valid, validItems, hq]
    | cons e rest =>
      rw [Op.fifo, q.valid_cons hq, tail_cons, ← validItems_cleanInvalidFront]
      simp [pop, hq, valid]
  | replaceFront retx =>
    rw [step] at h
    split at h
    · cases h
    next hne =>
      cases h
      cases hq : q.queue with
      | nil => simp [isEmpty, hq] at hne
      | cons e rest =>
        rw [Op.fifo, q.valid_cons hq]
        simp [replaceFront, hq, valid, validItems]
  | removeSn sn =>
    cases h
    exact (validItems_cleanInvalidFront _).trans (validItems_invalidate sn q.st q.queue)
  | clear =>
    cases h
    rfl

lemma st_step_iff {op : Op} {q' : RetxQueue} (h : q.step op = .ok q') (hst : Tracks q.st q.valid) :
    q'.st = counts q'.valid ↔ (counts q'.valid).Fits := by
  have hiff : ∀ {st l}, Tracks st l → (st = counts l ↔ (counts l).Fits) := fun ht => iff_of_true ht.1 (ht.1 ▸ ht.2)
  rw [q.valid_step h]
  cases op with
  | tryPush retx =>
    cases h
    rw [Op.fifo, size, tryPush]
    split
    · exact hiff hst
    · exact Tracks.add_iff (by rwa [append_nil])
  | pop =>
    cases h
    cases hq : q.queue with
    | nil => simpa [pop, Op.fifo, hq, valid, validItems] using hiff hst
    | cons e rest =>
      rw [q.valid_cons hq] at hst
      rw [Op.fifo, q.valid_cons hq]
      simpa [pop, hq] using hiff (Tracks.subtract (p := []) hst)
  | replaceFront retx =>
    rw [step] at h
    split at h
    · cases h
    next hne =>
      cases h
      cases hq : q.queue with
      | nil => simp [isEmpty, hq] at hne
      | cons e rest =>
        rw [q.valid_cons hq] at hst
        rw [Op.fifo, q.valid_cons hq]
        simpa [replaceFront, hq] using (Tracks.subtract (p := []) hst).add_iff
  | removeSn sn =>
    cases h
    exact hiff (Tracks.invalidate (p := []) hst sn)
  | clear =>
    cases h
    exact hiff tracks_nil

/-- **Every state of a run reports its valid elements exactly iff every state of the run has valid elements whose numbers
and total length fit in 32 bits.** -/
theorem retxQueue_iff (capacity : ℕ) (ops : List Op) : Along step Reports (empty capacity) ops ↔
    Along step (fun _ _ q' => (counts q'.valid).Fits) (empty capacity) ops := by
  refine Along.iff (I := fun q => Tracks q.st q.valid) (fun q op q' hq h => ?_) (fun q op q' hq h hf => ?_)
    tracks_nil ops
  · refine ⟨fun hr => (q.st_step_iff h hq).mp hr.state, fun hf => ?_⟩
    exact ⟨(q.st_step_iff h hq).mpr hf, q'.front_valid, q'.isEmpty_iff, q.valid_step h⟩
  · have hst := (q.st_step_iff h hq).mpr hf
    exact ⟨hst, hst ▸ hf⟩

/-- The total length of two elements is counted as 0. -/
theorem retxQueue_wraps : ¬ Along step Reports (empty 2) [.tryPush ⟨0, 0, 2 ^ 32 - 1⟩, .tryPush ⟨1, 0, 1⟩] := by
  intro h
  have hstate := ((h _ rfl).2 _ rfl).1.state
  exact absurd (congrArg RetxQueueState.retxBytes hstate) (by decide)

end RetxQueue

end SrsRan.Rlc
