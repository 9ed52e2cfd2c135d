import Mathlib.Data.Fin.Basic

/-!
# A channel of three buffers

A writer and a reader own one buffer each, and swap it with a third one in the middle; between the exchange and `adopt` the
writer holds the buffer it got in hand.  `Wf b w`: the three buffers are with the middle, the reader and the writer (who
holds `w`), and the one of the reader is empty.
-/

namespace SrsRan.Lib

structure TripleBuffer (α : Type) where
  buffers : Fin 3 → Option α
  middle : Fin 3
  read : Fin 3
  write : Fin 3

namespace TripleBuffer

variable {α : Type} (b : TripleBuffer α)

def init : TripleBuffer α where
  buffers _ := none
  middle := 1
  read := 0
  write := 2

def pending : Option α := b.buffers b.middle

def fill (a : α) : TripleBuffer α := { b with buffers := Function.update b.buffers b.write (some a) }

def exchange : TripleBuffer α := { b with middle := b.write }

/-- The buffer that the exchange gave to the writer is its buffer from now on. -/
def adopt (w : Fin 3) : TripleBuffer α := { b with write := w }

/-- The reader exchanges its buffer with the middle one, and empties it. -/
def pop : TripleBuffer α :=
  { b with buffers := Function.update b.buffers b.middle none, middle := b.read, read := b.middle }

/-- The three buffers are different, and the one to read is empty. -/
structure Wf (w : Fin 3) : Prop where
  middle_read : b.middle ≠ b.read
  middle_write : b.middle ≠ w
  read_write : b.read ≠ w
  read : b.buffers b.read = none

lemma Wf.init : (init : TripleBuffer α).Wf (init : TripleBuffer α).write :=
  ⟨(by decide : (1 : Fin 3) ≠ 0), (by decide : (1 : Fin 3) ≠ 2), (by decide : (0 : Fin 3) ≠ 2), rfl⟩

variable {b} {w : Fin 3}

lemma Wf.fill (h : b.Wf b.write) (a : α) : (b.fill a).Wf b.write where
  middle_read := h.middle_read
  middle_write := h.middle_write
  read_write := h.read_write
  read := by
    show Function.update b.buffers b.write (some a) b.read = none
    rw [Function.update_of_ne h.read_write, h.read]

lemma Wf.pending_fill (h : b.Wf b.write) (a : α) : (b.fill a).pending = b.pending :=
  Function.update_of_ne h.middle_write _ _

lemma buffers_fill (a : α) : (b.fill a).buffers (b.fill a).write = some a := Function.update_self _ _ _

lemma Wf.exchange (h : b.Wf b.write) : b.exchange.Wf b.middle where
  middle_read := h.read_write.symm
  middle_write := h.middle_write.symm
  read_write := h.middle_read.symm
  read := h.read

lemma Wf.adopt (h : b.Wf w) : (b.adopt w).Wf w := { h with }

lemma Wf.pop (h : b.Wf w) : b.pop.Wf w where
  middle_read := h.middle_read.symm
  middle_write := h.read_write
  read_write := h.middle_write
  read := Function.update_self _ _ _

lemma Wf.pending_pop (h : b.Wf w) : b.pop.pending = none := by
  show Function.update b.buffers b.middle none b.read = none
  rw [Function.update_of_ne h.middle_read.symm, h.read]

lemma Wf.buffers_pop (h : b.Wf w) : b.pop.buffers w = b.buffers w := Function.update_of_ne h.middle_write.symm _ _

end TripleBuffer

end SrsRan.Lib
