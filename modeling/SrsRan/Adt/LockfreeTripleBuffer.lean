import SrsRan.Lib.Run
import Mathlib.Data.List.Forall2

/-!
# The lock-free triple buffer

`lockfree_triple_buffer` as two threads that interleave at their accesses to memory: an `exchange` and the shift of its
result are two steps, as are the load of `read` and its exchange.

A value is stored as a whole or in parts, and a commit is complete when the exchange is reached.  `commits` and `reads` are
histories.  Every access to the array checks its index, which the source does not do.
-/

namespace SrsRan.Adt

open Lib.Run List Nat

inductive ProducerPc where
  | writing
  /-- in `commit`, before the shift -/
  | exchanged
deriving DecidableEq

inductive ConsumerPc where
  | idle
  /-- in `read`, which loaded a word with the dirty bit -/
  | dirty (before : ℕ)
  /-- in `read`, before the shift -/
  | exchanged (before : ℕ)
deriving DecidableEq

/-- What a finished `read` returned. -/
structure ReadEvent (α : Type) where
  /-- the number of commits that had finished when the call loaded the word -/
  before : ℕ
  /-- the content of the slot at the return -/
  returned : α
  /-- what the consumer saw in the slot until its next call -/
  seen : List α
deriving DecidableEq

structure LockfreeTripleBuffer (α : Type) where
  buffer : ℕ → α
  dirtyMiddleBufferIdx : ℕ
  frontBufferIdx : ℕ
  backBufferIdx : ℕ
  producer : ProducerPc
  consumer : ConsumerPc
  /-- history: the initial value and the committed ones -/
  commits : List α
  /-- history: the number of calls of `commit` that have returned -/
  finished : ℕ
  /-- history: the calls of `read`, the latest first -/
  reads : List (ReadEvent α)

inductive BufferFault where
  | notEnabled
  | outOfBounds
deriving DecidableEq

/-- The steps of the two threads. -/
inductive BufferAction (α : Type) where
  /-- the producer modifies the slot that `write` refers to -/
  | store (v : α)
  | commitExchange
  | commitShift
  | readLoad
  | readExchange
  | readShift
  /-- the consumer looks at the slot that `read` returned -/
  | look
deriving DecidableEq

namespace LockfreeTripleBuffer

variable {α : Type}

def dirtyBit : ℕ := 1

def init (default : α) : LockfreeTripleBuffer α where
  buffer _ := default
  dirtyMiddleBufferIdx := 1 <<< 1
  frontBufferIdx := 0
  backBufferIdx := 2
  producer := .writing
  consumer := .idle
  commits := [default]
  finished := 0
  reads := []

variable (s : LockfreeTripleBuffer α)

def value (idx : ℕ) : Except BufferFault α :=
  if idx < 3 then .ok (s.buffer idx) else .error .outOfBounds

def store (v : α) : Except BufferFault (LockfreeTripleBuffer α) :=
  if s.backBufferIdx < 3 then .ok { s with buffer := Function.update s.buffer s.backBufferIdx v }
  else .error .outOfBounds

def commitExchange : LockfreeTripleBuffer α :=
  { s with
    backBufferIdx := s.dirtyMiddleBufferIdx
    dirtyMiddleBufferIdx := s.backBufferIdx <<< 1 ||| dirtyBit
    producer := .exchanged
    commits := s.commits ++ [s.buffer s.backBufferIdx] }

def commitShift : LockfreeTripleBuffer α :=
  { s with backBufferIdx := s.backBufferIdx >>> 1, producer := .writing, finished := s.finished + 1 }

def readReturn (before : ℕ) : Except BufferFault (LockfreeTripleBuffer α) := do
  let v ← s.value s.frontBufferIdx
  return { s with consumer := .idle, reads := ⟨before, v, []⟩ :: s.reads }

def readLoad : Except BufferFault (LockfreeTripleBuffer α) :=
  if s.dirtyMiddleBufferIdx &&& dirtyBit ≠ 0 then .ok { s with consumer := .dirty s.finished }
  else s.readReturn s.finished

def readExchange (before : ℕ) : LockfreeTripleBuffer α :=
  { s with
    frontBufferIdx := s.dirtyMiddleBufferIdx
    dirtyMiddleBufferIdx := s.frontBufferIdx <<< 1
    consumer := .exchanged before }

def readShift (before : ℕ) : Except BufferFault (LockfreeTripleBuffer α) :=
  readReturn { s with frontBufferIdx := s.frontBufferIdx >>> 1 } before

/-- The consumer reads its slot once more. -/
def look : Except BufferFault (LockfreeTripleBuffer α) := do
  match s.reads with
  | [] => .error .notEnabled
  | r :: earlier =>
    let v ← s.value s.frontBufferIdx
    return { s with reads := { r with seen := r.seen ++ [v] } :: earlier }

def step (a : BufferAction α) : Except BufferFault (LockfreeTripleBuffer α) :=
  match a, s.producer, s.consumer with
  | .store v, .writing, _ => s.store v
  | .commitExchange, .writing, _ => .ok s.commitExchange
  | .commitShift, .exchanged, _ => .ok s.commitShift
  | .readLoad, _, .idle => s.readLoad
  | .readExchange, _, .dirty before => .ok (s.readExchange before)
  | .readShift, _, .exchanged before => s.readShift before
  | .look, _, .idle => s.look
  | _, _, _ => .error .notEnabled

/-! ### Who owns which slot -/

def back : ℕ :=
  match s.producer with
  | .writing => s.backBufferIdx
  | .exchanged => s.backBufferIdx >>> 1

def middle : ℕ := s.dirtyMiddleBufferIdx >>> 1

def front : ℕ :=
  match s.consumer with
  | .exchanged _ => s.frontBufferIdx >>> 1
  | _ => s.frontBufferIdx

/-- The middle buffer has been committed and not read. -/
def Dirty : Prop := s.dirtyMiddleBufferIdx &&& dirtyBit ≠ 0

instance (s : LockfreeTripleBuffer α) : Decidable s.Dirty := inferInstanceAs (Decidable (_ ≠ _))

/-- The buffer of the last commit. -/
def newest : ℕ := if s.Dirty then s.middle else s.front

variable (i : ℕ)

lemma shift_clean : (i <<< 1) >>> 1 = i := by
  rw [shiftLeft_eq, shiftRight_eq_div_pow]
  omega

lemma or_dirtyBit : i <<< 1 ||| dirtyBit = 2 * i + 1 := by
  rw [dirtyBit, shiftLeft_eq, ← Nat.mul_comm (2 ^ 1) i, ← two_pow_add_eq_or_of_lt (by decide), pow_one]

lemma shift_dirty : (i <<< 1 ||| dirtyBit) >>> 1 = i := by
  rw [or_dirtyBit, shiftRight_eq_div_pow]
  omega

lemma and_clean : i <<< 1 &&& dirtyBit = 0 := by
  rw [dirtyBit, and_one_is_mod, shiftLeft_eq]
  omega

lemma and_dirty : (i <<< 1 ||| dirtyBit) &&& dirtyBit ≠ 0 := by
  rw [or_dirtyBit, dirtyBit, and_one_is_mod]
  omega

/-- The three roles are played by the three buffers. -/
structure Owners (b m f : ℕ) : Prop where
  back_lt : b < 3
  middle_lt : m < 3
  front_lt : f < 3
  back_middle : b ≠ m
  back_front : b ≠ f
  middle_front : m ≠ f

lemma Owners.perm {b m f : ℕ} (h : Owners b m f) : [b, m, f].Perm [0, 1, 2] := by
  have all : ∀ b m f : Fin 3, b ≠ m → b ≠ f → m ≠ f → [b.val, m.val, f.val].Perm [0, 1, 2] := by decide
  exact all ⟨b, h.back_lt⟩ ⟨m, h.middle_lt⟩ ⟨f, h.front_lt⟩ (by simpa using h.back_middle)
    (by simpa using h.back_front) (by simpa using h.middle_front)

/-- The calls of `read` returned the commits `ks`, as new as those finished before the call. -/
def Numbered (commits : List α) (reads : List (ReadEvent α)) (ks : List ℕ) : Prop :=
  List.Forall₂ (fun r k => r.before ≤ k ∧ commits[k]? = some r.returned ∧ ∀ v ∈ r.seen, v = r.returned) reads ks ∧
    ks.Pairwise (· ≥ ·)

/-- What all reachable states satisfy. -/
structure Inv (s : LockfreeTripleBuffer α) : Prop where
  owners : Owners s.back s.middle s.front
  newest : s.commits[s.commits.length - 1]? = some (s.buffer s.newest)
  finished : s.finished < s.commits.length
  mid : s.producer = .exchanged → s.finished + 1 < s.commits.length
  /-- the commit in the slot of the consumer -/
  numbered : ∃ ks k, Numbered s.commits s.reads ks ∧ (∀ j ∈ ks, j ≤ k) ∧ s.commits[k]? = some (s.buffer s.front) ∧
    ∀ before, s.consumer = .exchanged before → before ≤ k
  loaded : ∀ before, s.consumer = .dirty before → s.Dirty ∧ before ≤ s.finished
  current : ∀ r ∈ s.reads.head?, (∀ before, s.consumer ≠ .exchanged before) → r.returned = s.buffer s.front

variable {s s' : LockfreeTripleBuffer α}

lemma Inv.init (default : α) : (init default).Inv where
  owners := (⟨by decide, by decide, by decide, by decide, by decide, by decide⟩ : Owners 2 ((1 <<< 1) >>> 1) 0)
  newest := rfl
  finished := Nat.one_pos
  mid h := by cases h
  numbered := ⟨[], 0, ⟨.nil, .nil⟩, by simp, rfl, by simp [LockfreeTripleBuffer.init]⟩
  loaded before h := by cases h
  current r hr := by cases hr

/-! ### The steps of the producer -/

lemma getElem?_concat {l : List α} {k : ℕ} {v : α} (h : l[k]? = some v) (w : α) : (l ++ [w])[k]? = some v := by
  obtain ⟨hk, -⟩ := List.getElem?_eq_some_iff.mp h
  rw [getElem?_append_left hk, h]

lemma Numbered.concat {commits : List α} {reads : List (ReadEvent α)} {ks : List ℕ} (h : Numbered commits reads ks)
    (v : α) : Numbered (commits ++ [v]) reads ks := by
  refine ⟨h.1.imp ?_, h.2⟩
  rintro r k ⟨h1, h2, h3⟩
  exact ⟨h1, getElem?_concat h2 v, h3⟩

lemma Inv.newest_ne_back (h : s.Inv) : s.newest ≠ s.back := by
  unfold LockfreeTripleBuffer.newest
  split
  · exact h.owners.back_middle.symm
  · exact h.owners.back_front.symm

lemma Inv.store_other (h : s.Inv) (hp : s.producer = .writing) {v : α} (hs : s.store v = .ok s') :
    ∃ buffer, s' = { s with buffer := buffer } ∧ ∀ i, i ≠ s.back → buffer i = s.buffer i := by
  have hback : s.back = s.backBufferIdx := by simp only [back, hp]
  have hlt := h.owners.back_lt
  rw [hback] at hlt ⊢
  rw [store, if_pos hlt] at hs
  cases hs
  exact ⟨_, rfl, fun i hi => Function.update_of_ne hi _ _⟩

lemma Inv.store (h : s.Inv) (hp : s.producer = .writing) {v : α} (hs : s.store v = .ok s') : s'.Inv := by
  obtain ⟨buffer, rfl, hother⟩ := h.store_other hp hs
  obtain ⟨ks, k, hks, hle, hk, hb⟩ := h.numbered
  have hfront : buffer s.front = s.buffer s.front := hother s.front h.owners.back_front.symm
  refine ⟨h.owners, ?_, h.finished, h.mid, ⟨ks, k, hks, hle, ?_, hb⟩, h.loaded, ?_⟩
  · exact h.newest.trans (congrArg some (hother s.newest h.newest_ne_back).symm)
  · exact hk.trans (congrArg some hfront.symm)
  · intro r hr hc
    exact (h.current r hr hc).trans hfront.symm

lemma Inv.commitExchange (h : s.Inv) (hp : s.producer = .writing) : s.commitExchange.Inv := by
  have hback : s.back = s.backBufferIdx := by simp only [back, hp]
  have hmiddle : s.commitExchange.middle = s.back := (shift_dirty s.backBufferIdx).trans hback.symm
  have hdirty : s.commitExchange.Dirty := and_dirty s.backBufferIdx
  obtain ⟨ks, k, hks, hle, hk, hb⟩ := h.numbered
  refine ⟨?_, ?_, ?_, fun _ => ?_, ⟨ks, k, hks.concat _, hle, getElem?_concat hk _, hb⟩, ?_, h.current⟩
  · -- the producer gets the slot that was in the middle
    rw [hmiddle]
    exact ⟨h.owners.middle_lt, h.owners.back_lt, h.owners.front_lt, h.owners.back_middle.symm,
      h.owners.middle_front, h.owners.back_front⟩
  · rw [LockfreeTripleBuffer.newest, if_pos hdirty, hmiddle, hback]
    show (s.commits ++ [s.buffer s.backBufferIdx])[(s.commits ++ [_]).length - 1]? = _
    simp only [length_append, length_singleton, Nat.add_sub_cancel]
    exact getElem?_concat_length
  · show s.finished < (s.commits ++ [_]).length
    have := h.finished
    simp only [length_append, length_singleton]
    omega
  · show s.finished + 1 < (s.commits ++ [_]).length
    have := h.finished
    simp only [length_append, length_singleton]
    omega
  · intro before hc
    exact ⟨hdirty, (h.loaded before hc).2⟩

lemma Inv.commitShift (h : s.Inv) (hp : s.producer = .exchanged) : s.commitShift.Inv := by
  have hback : s.commitShift.back = s.back := by simp only [back, hp, LockfreeTripleBuffer.commitShift]
  refine ⟨?_, h.newest, h.mid hp, nofun, h.numbered, ?_, h.current⟩
  · rw [hback]
    exact h.owners
  · intro before hc
    obtain ⟨h1, h2⟩ := h.loaded before hc
    exact ⟨h1, le_succ_of_le h2⟩

/-! ### The steps of the consumer -/

def returned (s : LockfreeTripleBuffer α) (before : ℕ) : LockfreeTripleBuffer α :=
  { s with
    frontBufferIdx := s.front
    consumer := .idle
    reads := ⟨before, s.buffer s.front, []⟩ :: s.reads }

lemma Inv.returned (h : s.Inv) {before k : ℕ} {ks : List ℕ} (hks : Numbered s.commits s.reads ks)
    (hle : ∀ j ∈ ks, j ≤ k) (hk : s.commits[k]? = some (s.buffer s.front)) (hb : before ≤ k) :
    (s.returned before).Inv := by
  refine ⟨h.owners, h.newest, h.finished, h.mid, ⟨k :: ks, k, ⟨.cons ⟨hb, hk, by simp⟩ hks.1, ?_⟩, ?_, hk, ?_⟩, ?_, ?_⟩
  · exact pairwise_cons.mpr ⟨hle, hks.2⟩
  · intro j hj
    obtain rfl | hj := mem_cons.mp hj
    · exact le_rfl
    · exact hle j hj
  · intro before' hc
    cases hc
  · intro before' hc
    cases hc
  · intro r hr _
    cases hr
    rfl

lemma front_of_not_exchanged (hc : ∀ before, s.consumer ≠ .exchanged before) : s.front = s.frontBufferIdx := by
  unfold front
  split
  next before hb => exact absurd hb (hc before)
  · rfl

section

variable (h : s.Inv)
include h

lemma value_front (hf : s.front = s.frontBufferIdx) : s.value s.frontBufferIdx = .ok (s.buffer s.front) := by
  rw [← hf]
  exact if_pos h.owners.front_lt

lemma readReturn_eq (hf : s.front = s.frontBufferIdx) (before : ℕ) : s.readReturn before = .ok (s.returned before) := by
  rw [readReturn, value_front h hf, ok_bind, returned, hf]
  rfl

lemma readShift_eq {before : ℕ} (hc : s.consumer = .exchanged before) :
    s.readShift before = .ok (s.returned before) := by
  have hlt := h.owners.front_lt
  have hfront : s.front = s.frontBufferIdx >>> 1 := by simp only [front, hc]
  rw [readShift, readReturn, returned, hfront, value, if_pos (hfront ▸ hlt)]
  rfl

lemma Inv.readLoad (hc : s.consumer = .idle) (hs : s.readLoad = .ok s') : s'.Inv := by
  have hidle (before : ℕ) : s.consumer ≠ .exchanged before := by
    rw [hc]
    exact ConsumerPc.noConfusion
  unfold LockfreeTripleBuffer.readLoad at hs
  obtain ⟨ks, k, hks, hle, hk, -⟩ := h.numbered
  split at hs
  next hd =>
    cases hs
    have hfront : front { s with consumer := .dirty s.finished } = s.front := by
      simp [front, hc]
    have hnewest : LockfreeTripleBuffer.newest { s with consumer := .dirty s.finished } = s.newest := by
      unfold LockfreeTripleBuffer.newest
      rw [hfront]
      rfl
    refine ⟨?_, ?_, h.finished, h.mid, ⟨ks, k, hks, hle, ?_, ?_⟩, ?_, ?_⟩
    · rw [hfront]
      exact h.owners
    · rw [hnewest]
      exact h.newest
    · rw [hfront]
      exact hk
    · intro before hb
      cases hb
    · intro before hb
      cases hb
      exact ⟨hd, le_rfl⟩
    · intro r hr _
      rw [hfront]
      exact h.current r hr hidle
  · -- the slot of the consumer holds the latest commit
    rename_i hd
    have hnew := h.newest
    rw [LockfreeTripleBuffer.newest, if_neg (show ¬ s.Dirty from hd)] at hnew
    obtain ⟨hlt, -⟩ := List.getElem?_eq_some_iff.mp hk
    have hfin := h.finished
    rw [readReturn_eq h (front_of_not_exchanged hidle)] at hs
    cases hs
    refine h.returned hks ?_ hnew (by omega)
    intro j hj
    have := hle j hj
    omega

lemma Inv.readExchange {before : ℕ} (hc : s.consumer = .dirty before) : (s.readExchange before).Inv := by
  have hfront : s.front = s.frontBufferIdx := by simp only [front, hc]
  obtain ⟨hdirty, hbefore⟩ := h.loaded before hc
  obtain ⟨ks, k, hks, hle, hk, -⟩ := h.numbered
  have hfront' : (s.readExchange before).front = s.middle := rfl
  have hmiddle' : (s.readExchange before).middle = s.front := (shift_clean s.frontBufferIdx).trans hfront.symm
  have hclean : ¬ (s.readExchange before).Dirty := by
    intro hd
    exact hd (and_clean s.frontBufferIdx)
  -- the word still has the dirty bit, so that the middle slot holds the latest commit
  have hnew := h.newest
  rw [LockfreeTripleBuffer.newest, if_pos hdirty] at hnew
  obtain ⟨hlt, -⟩ := List.getElem?_eq_some_iff.mp hk
  have hfin := h.finished
  refine ⟨?_, ?_, h.finished, h.mid, ⟨ks, s.commits.length - 1, hks, ?_, hnew, ?_⟩, ?_, ?_⟩
  · rw [hfront', hmiddle']
    exact ⟨h.owners.back_lt, h.owners.front_lt, h.owners.middle_lt, h.owners.back_front, h.owners.back_middle,
      h.owners.middle_front.symm⟩
  · rw [LockfreeTripleBuffer.newest, if_neg hclean]
    exact hnew
  · intro j hj
    have := hle j hj
    omega
  · intro before' hb
    cases hb
    omega
  · intro before' hb
    cases hb
  · intro r _ hb
    exact absurd rfl (hb before)

lemma Inv.readShift {before : ℕ} (hc : s.consumer = .exchanged before) (hs : s.readShift before = .ok s') : s'.Inv := by
  obtain ⟨ks, k, hks, hle, hk, hb⟩ := h.numbered
  rw [readShift_eq h hc] at hs
  cases hs
  exact h.returned hks hle hk (hb before hc)

lemma Inv.look (hc : s.consumer = .idle) (hs : s.look = .ok s') : s'.Inv := by
  have hidle (before : ℕ) : s.consumer ≠ .exchanged before := by
    rw [hc]
    exact ConsumerPc.noConfusion
  obtain ⟨ks, k, ⟨hall, hsorted⟩, hle, hk, hb⟩ := h.numbered
  have hcur := h.current
  unfold LockfreeTripleBuffer.look at hs
  split at hs
  · cases hs
  next r earlier hr =>
    rw [value_front h (front_of_not_exchanged hidle)] at hs
    cases hs
    rw [hr] at hall hcur
    have hret : r.returned = s.buffer s.front := hcur r rfl hidle
    obtain ⟨k1, ks1, ⟨h1, h2, h3⟩, htail, rfl⟩ := forall₂_cons_left_iff.mp hall
    refine { h with numbered := ⟨k1 :: ks1, k, ⟨.cons ⟨h1, h2, ?_⟩ htail, hsorted⟩, hle, hk, hb⟩, current := ?_ }
    · intro v hv
      obtain hv | hv := mem_append.mp hv
      · exact h3 v hv
      · rw [mem_singleton.mp hv, hret]
    · intro r' hr' _
      cases hr'
      exact hret

end

/-! ### Runs -/

lemma Inv.step {a : BufferAction α} (h : s.Inv) (hs : s.step a = .ok s') : s'.Inv := by
  unfold LockfreeTripleBuffer.step at hs
  split at hs
  next hp => exact h.store hp hs
  next hp =>
    cases hs
    exact h.commitExchange hp
  next hp =>
    cases hs
    exact h.commitShift hp
  next hc => exact h.readLoad hc hs
  next hc =>
    cases hs
    exact h.readExchange hc
  next hc => exact h.readShift hc hs
  next hc => exact h.look hc hs
  · cases hs

lemma Inv.of_reach {default : α}
    (h : Reach LockfreeTripleBuffer.step (fun _ _ => True) (LockfreeTripleBuffer.init default) s) : s.Inv :=
  h.invariant (Inv.init default) fun _ _ _ hi _ hs => hi.step hs

lemma Inv.inBounds (h : s.Inv) (a : BufferAction α) : s.step a ≠ .error .outOfBounds := by
  unfold LockfreeTripleBuffer.step
  split
  next hp =>
    have hlt := h.owners.back_lt
    simp only [back, hp] at hlt
    rw [LockfreeTripleBuffer.store, if_pos hlt]
    simp
  · simp
  · simp
  next hc =>
    have hf : s.front = s.frontBufferIdx := front_of_not_exchanged (by simp [hc])
    unfold LockfreeTripleBuffer.readLoad
    split
    · simp
    · rw [readReturn_eq h hf]
      simp
  · simp
  next hc =>
    rw [readShift_eq h hc]
    simp
  next hc =>
    have hf : s.front = s.frontBufferIdx := front_of_not_exchanged (by simp [hc])
    unfold LockfreeTripleBuffer.look
    split
    · simp
    · rw [value_front h hf]
      intro he
      cases he
  · simp

lemma step_store {v : α} (hs : s.step (.store v) = .ok s') : s.producer = .writing ∧ s.store v = .ok s' := by
  unfold step at hs
  cases hp : s.producer with
  | writing =>
    rw [hp] at hs
    exact ⟨rfl, hs⟩
  | exchanged =>
    rw [hp] at hs
    cases hs

/-- **Hand-over.** In every interleaving the consumer sees committed values, never an older one than before. -/
theorem triple_buffer_hand_over {default : α}
    (h : Reach step (fun _ _ => True) (LockfreeTripleBuffer.init default) s) :
    [s.back, s.middle, s.front].Perm [0, 1, 2] ∧
      (s.producer = .writing → (∀ before, s.consumer ≠ .exchanged before) →
        [s.backBufferIdx, s.dirtyMiddleBufferIdx >>> 1, s.frontBufferIdx].Perm [0, 1, 2]) ∧
      (∀ a, s.step a ≠ .error .outOfBounds) ∧
      (∀ v s', s.step (.store v) = .ok s' → s'.front = s.front ∧ s'.buffer s.front = s.buffer s.front) ∧
      ∃ ks, Numbered s.commits s.reads ks := by
  have hi := Inv.of_reach h
  obtain ⟨ks, -, hks, -⟩ := hi.numbered
  refine ⟨hi.owners.perm, fun hp hc => ?_, hi.inBounds, fun v s' hs => ?_, ks, hks⟩
  · have hback : s.back = s.backBufferIdx := by simp only [back, hp]
    have hperm := hi.owners.perm
    rwa [hback, front_of_not_exchanged hc] at hperm
  · obtain ⟨hp, hs⟩ := step_store hs
    obtain ⟨buffer, rfl, hother⟩ := hi.store_other hp hs
    exact ⟨rfl, hother s.front hi.owners.back_front.symm⟩

/-- Reads before two commits, between them, and between the exchange and the shift of the second. -/
theorem triple_buffer_hand_over_run :
    ∃ s, Reach step (fun _ _ => True) (init 7) s ∧ s.commits = [7, 8, 9] ∧ s.reads.map (·.returned) = [9, 8, 7] ∧
      [s.back, s.middle, s.front].Perm [0, 1, 2] := by
  obtain ⟨s, hreach, hcommits, hreads⟩ : ∃ s, Reach step (fun _ _ => True) (init 7) s ∧
      s.commits = [7, 8, 9] ∧ s.reads.map (·.returned) = [9, 8, 7] :=
    Reach.exists_run [.store 8, .readLoad, .commitExchange, .look, .commitShift, .store 5, .readLoad, .store 9,
      .readExchange, .readShift, .commitExchange, .look, .readLoad, .readExchange, .commitShift, .readShift, .look]
      (by decide +kernel)
  exact ⟨s, hreach, hcommits, hreads, (triple_buffer_hand_over hreach).1⟩

end LockfreeTripleBuffer

end SrsRan.Adt
