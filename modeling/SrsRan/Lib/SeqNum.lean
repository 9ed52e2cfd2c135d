import Mathlib.Data.Nat.ModEq
import Mathlib.Tactic.Ring

/-!
# Sequence numbers modulo `m` on an unsigned machine word

A sliding-window protocol counts its units with an unbounded counter and puts only the counter modulo `m` on the wire.  The
code compares two such numbers by their distance from a base, computed on an unsigned word of `N` values where `m ∣ N`
(`modSub`).
-/

namespace SrsRan.Lib.SeqNum

open Nat

/-- `(x - b) % m`, the subtraction being done on an unsigned word with `N` values. -/
def modSub (N m b x : ℕ) : ℕ := (x + (N - b % N)) % N % m

variable {N m : ℕ}

lemma modSub_lt (hm : 0 < m) (b x : ℕ) : modSub N m b x < m := mod_lt _ hm

lemma modSub_add_base (hN : 0 < N) (hd : m ∣ N) (b x : ℕ) : (modSub N m b x + b) % m = x % m := by
  have hb : b % N < N := mod_lt _ hN
  have h1 : (x + (N - b % N) + b) % m = x % m := by
    have hsplit : x + (N - b % N) + b = x + (N + N * (b / N)) := by
      have := div_add_mod b N
      omega
    obtain ⟨c, rfl⟩ := hd
    rw [hsplit, show m * c + m * c * (b / (m * c)) = m * (c + c * (b / (m * c))) by ring, add_mul_mod_self_left]
  unfold modSub
  rw [mod_mod_of_dvd _ hd, add_mod, mod_mod, ← add_mod, h1]

lemma modSub_eq_of_add_mod (hN : 0 < N) (hd : m ∣ N) {b x d : ℕ} (hlt : d < m)
    (h : (d + b) % m = x % m) : modSub N m b x = d := by
  have hm : 0 < m := pos_of_dvd_of_pos hd hN
  have h' : modSub N m b x + b ≡ d + b [MOD m] := by
    rw [Nat.ModEq, modSub_add_base hN hd, h]
  have h'' : modSub N m b x ≡ d [MOD m] := Nat.ModEq.add_right_cancel' b h'
  rwa [Nat.ModEq, mod_eq_of_lt (modSub_lt hm b x), mod_eq_of_lt hlt] at h''

lemma modSub_mod_of_le (hN : 0 < N) (hd : m ∣ N) {a b : ℕ} (h1 : b ≤ a) (h2 : a < b + m) :
    modSub N m (b % m) (a % m) = a - b := by
  refine modSub_eq_of_add_mod hN hd (by omega) ?_
  rw [add_mod, mod_mod, ← add_mod, mod_mod]
  congr 1
  omega

lemma modSub_mod_of_lt (hN : 0 < N) (hd : m ∣ N) {a b : ℕ} (h1 : a < b) (h2 : b ≤ a + m) :
    modSub N m (b % m) (a % m) = (m - (b - a)) := by
  have hm : 0 < m := pos_of_dvd_of_pos hd hN
  refine modSub_eq_of_add_mod hN hd (by omega) ?_
  rw [add_mod, mod_mod, ← add_mod, mod_mod, show m - (b - a) + b = a + m by omega, add_mod_right]

lemma eq_of_mod_eq {a a' b : ℕ} (h : a % m = a' % m) (h1 : b ≤ a) (h2 : a < b + m)
    (h3 : b ≤ a') (h4 : a' < b + m) : a = a' := by
  have key : ∀ c d : ℕ, c ≤ d → d < c + m → c % m = d % m → c = d := by
    intro c d hcd hlt hmod
    have hdvd : m ∣ d - c := (modEq_iff_dvd' hcd).mp hmod
    have := eq_zero_of_dvd_of_lt hdvd (by omega)
    omega
  rcases Nat.le_total a a' with hle | hle
  · exact key a a' hle (by omega) h
  · exact (key a' a hle (by omega) h.symm).symm

lemma exists_unwrap (hm : 0 < m) (b : ℕ) {x : ℕ} (hx : x < m) : ∃ a, b ≤ a ∧ a < b + m ∧ a % m = x := by
  refine ⟨b + modSub m m b x, by omega, ?_, ?_⟩
  · have := modSub_lt (N := m) hm b x
    omega
  · rw [Nat.add_comm, modSub_add_base hm (dvd_refl m), mod_eq_of_lt hx]

lemma succ_mod (a : ℕ) : (a % m + 1) % m = (a + 1) % m := by
  rw [add_mod, mod_mod, ← add_mod]

end SrsRan.Lib.SeqNum
