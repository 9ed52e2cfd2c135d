import Mathlib.Tactic.Ring
import Mathlib.Data.List.Basic

/-!
# Cutting an interval into chunks

`chunks fit fuel start n` cuts the `n` numbers from `start` on into chunks of `fit` numbers; the last chunk takes what is
left.  A chunk is its first number and its length.
-/

namespace SrsRan.Lib

open List

/-- The chunks of `start` to `start + n`, of at most `fit` numbers each. -/
def chunks (fit : ℕ) : ℕ → ℕ → ℕ → List (ℕ × ℕ)
  | 0, _, _ => []
  | fuel + 1, start, n => if n ≤ fit then [(start, n)] else (start, fit) :: chunks fit fuel (start + fit) (n - fit)

variable {fit fuel start n : ℕ}

def inChunk (x : ℕ) (c : ℕ × ℕ) : Bool := c.1 ≤ x && x < c.1 + c.2

lemma chunks_of_le (h : n ≤ fit) : chunks fit (fuel + 1) start n = [(start, n)] := if_pos h

lemma chunks_of_lt (h : fit < n) :
    chunks fit (fuel + 1) start n = (start, fit) :: chunks fit fuel (start + fit) (n - fit) :=
  if_neg (Nat.not_le.mpr h)

lemma bounds_of_mem_chunks (hfit : 0 < fit) (hn : 0 < n) {c : ℕ × ℕ} (hc : c ∈ chunks fit fuel start n) :
    0 < c.2 ∧ c.2 ≤ min fit n ∧ start ≤ c.1 ∧ c.1 + c.2 ≤ start + n := by
  induction fuel generalizing start n with
  | zero => exact absurd hc (List.not_mem_nil)
  | succ fuel ih =>
    rw [chunks] at hc
    split at hc
    · rw [mem_singleton.mp hc]
      simp only
      omega
    · rcases mem_cons.mp hc with rfl | hc
      · simp only
        omega
      · have := ih (by omega) hc
        omega

lemma countP_chunks (hfit : 0 < fit) (hfuel : n ≤ fuel) (hn : 0 < n) (x : ℕ) :
    (chunks fit fuel start n).countP (inChunk x) = if start ≤ x ∧ x < start + n then 1 else 0 := by
  induction fuel generalizing start n with
  | zero => omega
  | succ fuel ih =>
    rw [chunks]
    split
    · simp only [countP_singleton, inChunk, Bool.and_eq_true, decide_eq_true_eq]
    · rw [countP_cons, ih (by omega) (by omega)]
      simp only [inChunk, Bool.and_eq_true, decide_eq_true_eq]
      split <;> split <;> split <;> omega

lemma length_chunks (hfit : 0 < fit) (hfuel : n ≤ fuel) (hn : 0 < n) :
    (chunks fit fuel start n).length = (n + fit - 1) / fit := by
  induction fuel generalizing start n with
  | zero => omega
  | succ fuel ih =>
    rw [chunks]
    split
    · rw [length_singleton, Nat.div_eq_of_lt_le] <;> omega
    · rw [length_cons, ih (by omega) (by omega), ← Nat.add_div_right _ hfit]
      congr 1
      omega

end SrsRan.Lib
