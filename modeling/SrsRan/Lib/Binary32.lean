import Mathlib.Data.Rat.Floor
import Mathlib.Algebra.Order.Field.Power
import Mathlib.Tactic.Positivity

/-!
# Single precision arithmetic

Values of `float`: finite numbers, the infinities and NaN.  An operation gives the exact result rounded to the nearest number
with 24 significant bits, ties to even.  The sign of zero is not represented.
-/

namespace SrsRan.Lib.Binary32

open Nat

/-- A value of the binary32 format. -/
inductive F32 where
  | nan
  | inf (neg : Bool)
  | fin (q : ℚ)
deriving DecidableEq

def roundEven (x : ℚ) : ℤ :=
  let f := ⌊x⌋
  if x - f < 1 / 2 then f
  else if 1 / 2 < x - f then f + 1
  else if f % 2 = 0 then f else f + 1

/-- The exponent of the leading bit of a positive number. -/
def exponent (q : ℚ) : ℤ :=
  let e : ℤ := Nat.log2 q.num.toNat - Nat.log2 q.den
  if q < 2 ^ e then e - 1 else e

namespace F32

def round (q : ℚ) : F32 :=
  if q = 0 then fin 0
  else
    let u : ℚ := 2 ^ (max (exponent |q|) (-126) - 23)
    let v := roundEven (|q| / u) * u
    if 2 ^ 128 ≤ v then inf (q < 0) else fin (if q < 0 then -v else v)

def ofNat (n : ℕ) : F32 := round n

def lt : F32 → F32 → Bool
  | nan, _ => false
  | _, nan => false
  | inf a, inf b => a && !b
  | inf a, fin _ => a
  | fin _, inf b => !b
  | fin a, fin b => a < b

def add : F32 → F32 → F32
  | nan, _ => nan
  | _, nan => nan
  | inf a, inf b => if a = b then inf a else nan
  | inf a, fin _ => inf a
  | fin _, inf b => inf b
  | fin a, fin b => round (a + b)

def mul : F32 → F32 → F32
  | nan, _ => nan
  | _, nan => nan
  | inf a, inf b => inf (a ^^ b)
  | inf a, fin q => if q = 0 then nan else inf (a ^^ (q < 0))
  | fin q, inf b => if q = 0 then nan else inf (b ^^ (q < 0))
  | fin a, fin b => round (a * b)

def div : F32 → F32 → F32
  | nan, _ => nan
  | _, nan => nan
  | inf _, inf _ => nan
  | inf a, fin q => inf (a ^^ (q < 0))
  | fin _, inf _ => fin 0
  | fin a, fin b => if b = 0 then (if a = 0 then nan else inf (a < 0)) else round (a / b)

/-- `std::min` and `std::max`, which return their first operand if the comparison is false. -/
def stdMin (a b : F32) : F32 := if b.lt a then b else a

@[inherit_doc stdMin]
def stdMax (a b : F32) : F32 := if a.lt b then b else a

def clampUnit (x : F32) : F32 := stdMax (fin 0) (stdMin (fin 1) x)

/-- `static_cast<unsigned>(std::round(x))`; none if the result is not a value of the type. -/
def toNat? : F32 → Option ℕ
  | nan => none
  | inf _ => none
  | fin q =>
    let r : ℤ := if q < 0 then -⌊-q + 1 / 2⌋ else ⌊q + 1 / 2⌋
    if 0 ≤ r ∧ r < 2 ^ 32 then some r.toNat else none

end F32

lemma roundEven_le_ceil (x : ℚ) : roundEven x ≤ ⌈x⌉ := by
  unfold roundEven
  simp only
  -- when the floor is not the result, the number is not an integer
  have hup : ¬ x - ⌊x⌋ < 1 / 2 → ⌊x⌋ + 1 ≤ ⌈x⌉ := by
    intro h
    have hlt : (⌊x⌋ : ℚ) < x := by linarith
    exact Int.lt_ceil.mpr hlt
  split
  · exact Int.floor_le_ceil x
  next h =>
    split
    · exact hup h
    · split
      · exact Int.floor_le_ceil x
      · exact hup h

lemma roundEven_nonneg {x : ℚ} (h : 0 ≤ x) : 0 ≤ roundEven x := by
  have hf : 0 ≤ ⌊x⌋ := Int.floor_nonneg.mpr h
  unfold roundEven
  simp only
  split
  · exact hf
  · split
    · omega
    · split <;> omega

lemma two_zpow_exponent_le {q : ℚ} (h : 0 < q) : (2 : ℚ) ^ exponent q ≤ q := by
  unfold exponent
  simp only
  split
  · have hnum : 0 < q.num := Rat.num_pos.mpr h
    have hn : q.num.toNat ≠ 0 := by omega
    have h1 : (2 : ℚ) ^ (log2 q.num.toNat) ≤ q.num := by
      have := log2_self_le hn
      have h' : ((2 ^ log2 q.num.toNat : ℕ) : ℚ) ≤ (q.num.toNat : ℚ) := by exact_mod_cast this
      have h'' : ((q.num.toNat : ℤ) : ℚ) = q.num := by rw [Int.toNat_of_nonneg (by omega)]
      push_cast at h' h''
      rw [← h'']
      exact h'
    have h2 : (q.den : ℚ) ≤ 2 ^ (log2 q.den + 1) := by
      have := lt_log2_self (n := q.den)
      exact_mod_cast this.le
    have hexp : (2 : ℚ) ^ ((log2 q.num.toNat : ℤ) - log2 q.den - 1) =
        2 ^ (log2 q.num.toNat) / 2 ^ (log2 q.den + 1) := by
      rw [sub_sub, zpow_sub₀ (by norm_num)]
      norm_cast
    rw [hexp, div_le_iff₀ (by positivity)]
    calc (2 : ℚ) ^ (log2 q.num.toNat) ≤ q.num := h1
      _ = q * q.den := (Rat.mul_den_eq_num q).symm
      _ ≤ q * 2 ^ (log2 q.den + 1) := by gcongr
  next hge => exact not_lt.mp hge

/-- **Rounding keeps to an interval `[0, n]`.** -/
theorem round_mem_Icc {q : ℚ} {n : ℕ} (h0 : 0 ≤ q) (hn : q ≤ n) (hn24 : n < 2 ^ 24) :
    ∃ v, F32.round q = .fin v ∧ 0 ≤ v ∧ v ≤ n := by
  unfold F32.round
  split
  · exact ⟨0, rfl, le_rfl, cast_nonneg n⟩
  rename_i hne
  have hpos : 0 < q := lt_of_le_of_ne h0 (Ne.symm hne)
  simp only [abs_of_pos hpos]
  have he : exponent q ≤ 23 := by
    have h1 := two_zpow_exponent_le hpos
    have h2 : (2 : ℚ) ^ exponent q < 2 ^ (24 : ℤ) := by
      have h3 : (n : ℚ) < 2 ^ (24 : ℤ) := by exact_mod_cast hn24
      linarith
    have := (zpow_lt_zpow_iff_right₀ (by norm_num : (1 : ℚ) < 2)).mp h2
    omega
  -- the unit in the last place is a fraction of 1, so `n` is a multiple of it
  obtain ⟨k, hk⟩ : ∃ k : ℕ, max (exponent q) (-126) - 23 = -(k : ℤ) := ⟨(23 - max (exponent q) (-126)).toNat, by omega⟩
  rw [hk]
  have hu : (0 : ℚ) < 2 ^ (-(k : ℤ)) := by positivity
  have hmul : (n : ℚ) = (n * 2 ^ k : ℤ) * 2 ^ (-(k : ℤ)) := by
    push_cast
    rw [mul_assoc, zpow_neg, zpow_natCast, mul_inv_cancel₀ (by positivity), mul_one]
  have hle : (roundEven (q / 2 ^ (-(k : ℤ))) : ℚ) * 2 ^ (-(k : ℤ)) ≤ n := by
    rw [hmul]
    refine mul_le_mul_of_nonneg_right ?_ hu.le
    have hceil : ⌈q / 2 ^ (-(k : ℤ))⌉ ≤ (n * 2 ^ k : ℤ) := by
      rw [Int.ceil_le, div_le_iff₀ hu, ← hmul]
      exact hn
    exact_mod_cast (roundEven_le_ceil _).trans hceil
  have hnn : (0 : ℚ) ≤ (roundEven (q / 2 ^ (-(k : ℤ))) : ℚ) * 2 ^ (-(k : ℤ)) := by
    refine mul_nonneg ?_ hu.le
    exact_mod_cast roundEven_nonneg (div_nonneg h0 hu.le)
  rw [if_neg]
  · refine ⟨_, rfl, ?_⟩
    rw [if_neg (not_lt.mpr h0)]
    exact ⟨hnn, hle⟩
  · have h3 : (n : ℚ) < 2 ^ 24 := by exact_mod_cast hn24
    linarith

lemma clampUnit_mem (x : F32) : ∃ v, x.clampUnit = .fin v ∧ 0 ≤ v ∧ v ≤ 1 := by
  unfold F32.clampUnit F32.stdMin F32.stdMax
  cases x with
  | nan => exact ⟨1, rfl, by norm_num, le_rfl⟩
  | inf neg =>
    cases neg with
    | true => exact ⟨0, rfl, le_rfl, by norm_num⟩
    | false => exact ⟨1, rfl, by norm_num, le_rfl⟩
  | fin q =>
    simp only [F32.lt, decide_eq_true_eq]
    by_cases h1 : q < 1
    · rw [if_pos h1]
      by_cases h0 : 0 < q
      · exact ⟨q, by simp [h0], h0.le, h1.le⟩
      · exact ⟨0, by simp [h0], le_rfl, by norm_num⟩
    · rw [if_neg h1]
      exact ⟨1, by simp, by norm_num, le_rfl⟩

/-- **A fraction of a natural number, rounded.** -/
theorem toNat?_mul_le (x : F32) {n : ℕ} (hn : n < 2 ^ 24) :
    ∃ m, (x.clampUnit.mul (.ofNat n)).toNat? = some m ∧ m ≤ n := by
  obtain ⟨v, hv, hv0, hv1⟩ := clampUnit_mem x
  obtain ⟨w, hw, hw0, hwn⟩ := round_mem_Icc (q := n) (cast_nonneg n) le_rfl hn
  have hvw : v * w ≤ n := by
    calc v * w ≤ 1 * w := by gcongr
      _ = w := one_mul w
      _ ≤ n := hwn
  obtain ⟨z, hz, hz0, hzn⟩ := round_mem_Icc (mul_nonneg hv0 hw0) hvw hn
  have hprod : x.clampUnit.mul (.ofNat n) = .fin z := by
    rw [hv, F32.ofNat, hw, F32.mul, hz]
  have hfl0 : 0 ≤ ⌊z + 1 / 2⌋ := Int.floor_nonneg.mpr (by linarith)
  have hfln : ⌊z + 1 / 2⌋ < (n : ℤ) + 1 := by
    rw [Int.floor_lt]
    push_cast
    linarith
  rw [hprod, F32.toNat?]
  rw [if_neg (not_lt.mpr hz0), if_pos ⟨hfl0, by omega⟩]
  exact ⟨_, rfl, by omega⟩

end SrsRan.Lib.Binary32
