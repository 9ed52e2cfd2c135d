import Mathlib.Tactic.Ring

/-!
# Byte buffers

A `byte_buffer` or a view of one is the list of its bytes, and an assignment to a `uint8_t` keeps the number modulo `2 ^ 8`.
A `byte_buffer_chain` is a bounded list of slices, and both its creation and an append can fail: it lives in a block of a
memory pool, with room for `maxSlices` slices only.
-/

namespace SrsRan.Support

open List

/-- A `byte_buffer` or a view of one. -/
abbrev Bytes := List UInt8

/-- The value written by an assignment of an unsigned number to a `uint8_t`. -/
abbrev byte (n : ℕ) : UInt8 := UInt8.ofNat n

lemma toNat_byte (n : ℕ) : (byte n).toNat = n % 2 ^ 8 := UInt8.toNat_ofNat'

lemma flagged_fields (f : Bool) {x : ℕ} (h : x < 2 ^ 6) : (byte (f.toNat * 2 ^ 6 + x)).toNat % 2 ^ 6 = x ∧
    decide ((byte (f.toNat * 2 ^ 6 + x)).toNat / 2 ^ 6 % 2 = 1) = f := by
  rw [toNat_byte]
  cases f
  · refine ⟨by simp; omega, by simp; omega⟩
  · refine ⟨by simp; omega, by simp; omega⟩

def slice (buf : Bytes) (offset len : ℕ) : Bytes := (buf.drop offset).take len

lemma length_slice {buf : Bytes} {offset len : ℕ} (h : offset + len ≤ buf.length) :
    (slice buf offset len).length = len := by
  simp only [slice, length_take, length_drop]
  omega

lemma slice_zero_length (buf : Bytes) : slice buf 0 buf.length = buf := by
  simp [slice]

/-! ### Chains of slices -/

/-- `byte_buffer_chain`. -/
structure ByteBufferChain where
  maxSlices : ℕ
  slices : List Bytes
  length_le : slices.length ≤ maxSlices

namespace ByteBufferChain

/-- `byte_buffer_chain::create`, in a block for `mem` slices; `none` when the pool is exhausted. -/
def create (mem : Option ℕ) : Option ByteBufferChain := mem.map fun n => ⟨n, [], Nat.zero_le n⟩

def append (c : ByteBufferChain) (obj : Bytes) : Option ByteBufferChain :=
  if obj.isEmpty then some c
  else if h : c.slices.length < c.maxSlices then
    some { c with slices := c.slices ++ [obj], length_le := by rw [List.length_append]; exact h }
  else none

def appendAll (c : ByteBufferChain) : List Bytes → Option ByteBufferChain
  | [] => some c
  | obj :: rest => (c.append obj).bind fun c => c.appendAll rest

def bytes (c : ByteBufferChain) : Bytes := c.slices.flatten

lemma map_bytes_appendAll (c : ByteBufferChain) (l : List Bytes) (h : ∀ x ∈ l, x ≠ []) :
    (c.appendAll l).map bytes =
      if c.slices.length + l.length ≤ c.maxSlices then some (c.bytes ++ l.flatten) else none := by
  induction l generalizing c with
  | nil => simp [appendAll, c.length_le]
  | cons x rest ih =>
    have hx : x.isEmpty = false := by simpa using h x (by simp)
    have hlen : (x :: rest).length = rest.length + 1 := rfl
    rw [appendAll, append, if_neg (by simp [hx])]
    by_cases hroom : c.slices.length < c.maxSlices
    · rw [dif_pos hroom, Option.bind_some, ih _ fun y hy => h y (by simp [hy])]
      simp only [bytes, length_append, length_singleton, flatten_append, flatten_cons,
        flatten_nil, append_nil, append_assoc, hlen]
      refine if_congr (by omega) rfl rfl
    · rw [dif_neg hroom, if_neg (by omega)]
      rfl

end ByteBufferChain

end SrsRan.Support
