import Mathlib.Data.Nat.Bitwise
import Mathlib.Tactic.Ring

/-!
# Flags in a machine word

A word that holds counters in its low bits and flags above them, as natural number: a flag is tested with `&&&`, set with
`|||` and toggled with `^^^`.  In arithmetic, to set or to clear a flag is to add or to subtract its power of two.
-/

namespace SrsRan.Lib

open Nat

lemma testBit_iff_div (w i : ℕ) : w.testBit i = true ↔ w / 2 ^ i % 2 = 1 := by
  rw [testBit_eq_decide_div_mod_eq, decide_eq_true_eq]

lemma and_flag (w i : ℕ) : w &&& 2 ^ i ≠ 0 ↔ w / 2 ^ i % 2 = 1 := by
  rw [and_two_pow, ← testBit_iff_div]
  cases w.testBit i <;> simp

lemma and_low (w n : ℕ) : w &&& (2 ^ n - 1) = w % 2 ^ n := and_two_pow_sub_one_eq_mod w n

lemma div_two_flag (w i : ℕ) : w / 2 / 2 ^ i = w / 2 ^ (i + 1) := by
  rw [Nat.div_div_eq_div_mul, pow_succ, mul_comm]

/-- **To set a flag** that is not set. -/
theorem or_flag {w i : ℕ} (h : w / 2 ^ i % 2 = 0) : w ||| 2 ^ i = w + 2 ^ i := by
  induction i generalizing w with
  | zero =>
    have hmod := or_mod_two_eq_one (a := w) (b := 1)
    have hdiv : (w ||| 1) / 2 = w / 2 := by rw [or_div_two, or_zero]
    rw [pow_zero, Nat.div_one] at h
    rw [pow_zero]
    omega
  | succ i ih =>
    have hmod : (w ||| 2 ^ (i + 1)) % 2 = w % 2 := by
      rw [← Nat.pow_one 2, or_mod_two_pow]
      simp [pow_succ]
    have hdiv : (w ||| 2 ^ (i + 1)) / 2 = w / 2 ||| 2 ^ i := by
      rw [or_div_two, pow_succ, Nat.mul_div_cancel _ (by decide)]
    rw [ih (by rw [div_two_flag, h])] at hdiv
    rw [pow_succ] at hmod hdiv ⊢
    omega

/-- **To toggle a flag** that is set. -/
theorem xor_flag {w i : ℕ} (h : w / 2 ^ i % 2 = 1) : w ^^^ 2 ^ i = w - 2 ^ i := by
  induction i generalizing w with
  | zero =>
    have hmod := xor_mod_two_eq_one (a := w) (b := 1)
    have hdiv : (w ^^^ 1) / 2 = w / 2 := by rw [xor_div_two, xor_zero]
    rw [pow_zero, Nat.div_one] at h
    rw [pow_zero]
    omega
  | succ i ih =>
    have hmod : (w ^^^ 2 ^ (i + 1)) % 2 = w % 2 := by
      rw [← Nat.pow_one 2, xor_mod_two_pow]
      simp [pow_succ]
    have hdiv : (w ^^^ 2 ^ (i + 1)) / 2 = w / 2 ^^^ 2 ^ i := by
      rw [xor_div_two, pow_succ, Nat.mul_div_cancel _ (by decide)]
    have hle : 2 ^ i ≤ w / 2 := by
      by_contra hlt
      rw [← div_two_flag, div_eq_of_lt (by omega)] at h
      omega
    rw [ih (by rw [div_two_flag, h])] at hdiv
    rw [pow_succ] at hmod hdiv ⊢
    omega

end SrsRan.Lib
