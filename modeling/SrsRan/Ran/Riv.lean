import Mathlib.Tactic.Linarith

/-!
# Start and length indicator values

`sliv_from_s_and_l` folds the pairs of a start and a length within `N` into one `unsigned`.  `slivCode` is the value over
unbounded numbers: the smaller one of the two formulas of the source (`slivCode_le`).
-/

namespace SrsRan.Ran

open Option Prod Nat

/-- The value of a sum or a product of the type `unsigned` -/
def u32 (x : ℤ) : ℕ := (x % 2 ^ 32).toNat

def slivToSAndL (N sliv : ℕ) : ℕ × ℕ :=
  let low := sliv % N
  let high := sliv / N
  if u32 (high + 1 + low) ≤ N then (low, u32 (high + 1)) else (u32 (N - 1 - low), u32 (N - high + 1))

def slivFromSAndL (N S L : ℕ) : ℕ :=
  if u32 (L - 1) ≤ N / 2 then u32 (N * (L - 1) + S) else u32 (N * (N - L + 1) + (N - 1 - S))

def raFrequencyType1GetRiv (nBwpSize startVrb lengthVrb : ℕ) : Option ℕ :=
  if 1 ≤ lengthVrb ∧ lengthVrb ≤ u32 (nBwpSize - startVrb) then some (slivFromSAndL nBwpSize startVrb lengthVrb) else none

def raFrequencyType1FromRiv (nBwpSize riv : ℕ) : ℕ × ℕ := slivToSAndL nBwpSize riv

structure RaFrequencyType1SpecialConfiguration where
  nBwpInitial : ℕ
  nBwpActive : ℕ
  startVrb : ℕ
  lengthVrb : ℕ

namespace RaFrequencyType1SpecialConfiguration

variable (config : RaFrequencyType1SpecialConfiguration)

/-- The loop over 8, 4 and 2 that determines `K` -/
def k : ℕ :=
  let ratio := config.nBwpActive / config.nBwpInitial
  if 8 ≤ ratio then 8 else if 4 ≤ ratio then 4 else if 2 ≤ ratio then 2 else 1

/-- `ra_frequency_type1_special_get_riv`; `none` is an abort. -/
def getRiv : Option ℕ :=
  if config.nBwpInitial = 0 then none
  else raFrequencyType1GetRiv config.nBwpInitial (config.startVrb / config.k) (config.lengthVrb / config.k)

end RaFrequencyType1SpecialConfiguration

def slivCode (N S L : ℕ) : ℕ := if L - 1 ≤ N / 2 then N * (L - 1) + S else N * (N - L + 1) + (N - 1 - S)

/-- What is expected of the values for a BWP of `N` blocks -/
def RivInvertible (N : ℕ) : Prop :=
  ∀ S L, 1 ≤ L → S + L ≤ N → ∃ riv, raFrequencyType1GetRiv N S L = some riv ∧ raFrequencyType1FromRiv N riv = (S, L) ∧
    riv < N * (N + 1) / 2 ∧
    ∀ S' L', 1 ≤ L' → S' + L' ≤ N → raFrequencyType1GetRiv N S' L' = some riv → (S', L') = (S, L)

lemma u32_natCast {x : ℕ} (h : x < 2 ^ 32) : u32 x = x := by
  rw [u32]
  omega

lemma slivToSAndL_fst_lt {N : ℕ} (hN : 0 < N) (hlt : N < 2 ^ 32) (sliv : ℕ) : (slivToSAndL N sliv).1 < N := by
  have hlow := mod_lt sliv hN
  rw [slivToSAndL]
  split
  · exact hlow
  · rw [u32]
    omega

section Pair

variable {N S L : ℕ} (hlt : N < 2 ^ 32) (hL : 1 ≤ L) (hle : S + L ≤ N)
include hL hle

lemma slivCode_le : slivCode N S L ≤ N * (L - 1) + S ∧ slivCode N S L ≤ N * (N - L + 1) + (N - 1 - S) := by
  rw [slivCode]
  split
  next h =>
    refine ⟨le_rfl, ?_⟩
    rcases lt_or_ge (L - 1) (N - L + 1) with hlt | hge
    · have := Nat.mul_le_mul_left N (show L - 1 + 1 ≤ N - L + 1 from hlt)
      rw [mul_add] at this
      omega
    · -- the middle length of an even `N`
      rw [show N - L + 1 = L - 1 by omega]
      omega
  next h =>
    refine ⟨?_, le_rfl⟩
    have := Nat.mul_le_mul_left N (show N - L + 1 + 1 ≤ L - 1 by omega)
    rw [mul_add] at this
    omega

lemma slivCode_lt : slivCode N S L < N * (N + 1) / 2 := by
  obtain ⟨h1, h2⟩ := slivCode_le hL hle
  have hsum : N * (L - 1) + N * (N - L + 1) = N * N := by
    rw [← mul_add]
    congr 1
    omega
  obtain ⟨m, hm⟩ := Nat.even_mul_succ_self N
  rw [mul_add] at hm ⊢
  omega

include hlt

lemma slivFromSAndL_eq : slivFromSAndL N S L = slivCode N S L % 2 ^ 32 := by
  have hcast : ((L : ℤ) - 1) = (L - 1 : ℕ) := by omega
  have hcast' : ((N : ℤ) - L + 1) = (N - L + 1 : ℕ) := by omega
  have hcast'' : ((N : ℤ) - 1 - S) = (N - 1 - S : ℕ) := by omega
  rw [slivFromSAndL, slivCode, hcast, hcast', hcast'', u32_natCast (by omega)]
  split <;> simp only [u32] <;> norm_cast

lemma raFrequencyType1GetRiv_eq : raFrequencyType1GetRiv N S L = some (slivCode N S L % 2 ^ 32) := by
  rw [raFrequencyType1GetRiv, if_pos ⟨hL, by rw [u32]; omega⟩, slivFromSAndL_eq hlt hL hle]

lemma slivToSAndL_code (h : slivCode N S L < 2 ^ 32) : slivToSAndL N (slivCode N S L) = (S, L) := by
  have hN : 0 < N := by omega
  rw [slivCode] at h ⊢
  rw [slivToSAndL]
  split at h
  next hcase =>
    rw [if_pos hcase, mul_add_mod, mod_eq_of_lt (show S < N by omega), mul_add_div hN,
      div_eq_of_lt (show S < N by omega)]
    rw [if_pos (by rw [u32]; omega), u32, mk.injEq]
    omega
  next hcase =>
    have hlow : N - 1 - S < N := by omega
    rw [if_neg hcase, mul_add_mod, mod_eq_of_lt hlow, mul_add_div hN, div_eq_of_lt hlow]
    have hhigh := Nat.mul_le_mul_right (N - L + 1) (show 2 ≤ N by omega)
    rw [if_neg (by rw [u32]; omega), u32, u32, mk.injEq]
    omega

lemma slivToSAndL_ne {w : ℕ} (hw : w < slivCode N S L) : slivToSAndL N w ≠ (S, L) := by
  intro heq
  obtain ⟨h1, h2⟩ := slivCode_le hL hle
  have hN : 0 < N := by omega
  have hdiv := div_add_mod w N
  have hmod := mod_lt w hN
  have hhigh : w / N < N := by
    rw [Nat.div_lt_iff_lt_mul hN]
    have := Nat.mul_le_mul_left N (show L - 1 + 1 ≤ N by omega)
    rw [mul_add] at this
    omega
  rw [slivToSAndL] at heq
  generalize w / N = high at hdiv hhigh heq
  generalize w % N = low at hdiv hmod heq
  split at heq
  · rw [mk.injEq, u32] at heq
    rw [show high = L - 1 by omega] at hdiv
    omega
  · rw [mk.injEq, u32, u32] at heq
    rw [show high = N - L + 1 by omega] at hdiv
    omega

lemma roundtrip_iff : slivToSAndL N (slivCode N S L % 2 ^ 32) = (S, L) ↔ slivCode N S L < 2 ^ 32 := by
  by_cases h : slivCode N S L < 2 ^ 32
  · rw [mod_eq_of_lt h]
    exact iff_of_true (slivToSAndL_code hlt hL hle h) h
  · exact iff_of_false (slivToSAndL_ne hlt hL hle (by omega)) h

end Pair

lemma rivInvertible_iff {N : ℕ} (hN : 0 < N) (hlt : N < 2 ^ 32) : RivInvertible N ↔ N ≤ 92681 := by
  constructor
  · intro h
    by_contra hgt
    -- a length above the middle whose code needs 33 bits
    have hL : 1 ≤ N / 2 + 2 := by omega
    have hle : 0 + (N / 2 + 2) ≤ N := by omega
    obtain ⟨riv, hget, hback, -⟩ := h 0 (N / 2 + 2) hL hle
    rw [raFrequencyType1GetRiv_eq hlt hL hle, some.injEq] at hget
    subst hget
    have hcode := (roundtrip_iff hlt hL hle).mp hback
    rw [slivCode, if_neg (by omega)] at hcode
    have := Nat.mul_le_mul (show 92682 ≤ N by omega) (show 46340 ≤ N - (N / 2 + 2) + 1 by omega)
    omega
  · intro hmax S L hL hle
    have hbound := slivCode_lt hL hle
    have hfit : ∀ S L, 1 ≤ L → S + L ≤ N → slivCode N S L < 2 ^ 32 := by
      intro S L hL hle
      have := slivCode_lt hL hle
      have := Nat.mul_le_mul hmax (show N + 1 ≤ 92682 by omega)
      omega
    have hback : ∀ S L, 1 ≤ L → S + L ≤ N → raFrequencyType1FromRiv N (slivCode N S L % 2 ^ 32) = (S, L) :=
      fun S L hL hle => (roundtrip_iff hlt hL hle).mpr (hfit S L hL hle)
    refine ⟨_, raFrequencyType1GetRiv_eq hlt hL hle, hback S L hL hle, by omega, fun S' L' hL' hle' heq => ?_⟩
    rw [raFrequencyType1GetRiv_eq hlt hL' hle', some.injEq] at heq
    rw [← hback S L hL hle, ← heq, hback S' L' hL' hle']

/-- **Resource indication values.** A pair is decoded into itself iff its code fits into 32 bits, in the special form iff the
start is not behind the initial BWP as well. -/
theorem riv_iff (N : ℕ) (hN : 0 < N) (hlt : N < 2 ^ 32) (config : RaFrequencyType1SpecialConfiguration)
    (hinit : config.nBwpInitial < 2 ^ 32) :
    (∀ S L, 1 ≤ L → S + L ≤ N → ∃ riv, raFrequencyType1GetRiv N S L = some riv ∧
      (raFrequencyType1FromRiv N riv = (S, L) ↔ slivCode N S L < 2 ^ 32)) ∧
    (RivInvertible N ↔ N ≤ 92681) ∧
    ∀ riv, config.k ∣ config.startVrb → config.k ∣ config.lengthVrb → config.getRiv = some riv →
      ((config.k * (raFrequencyType1FromRiv config.nBwpInitial riv).1 = config.startVrb ∧
          config.k * (raFrequencyType1FromRiv config.nBwpInitial riv).2 = config.lengthVrb) ↔
        config.startVrb / config.k ≤ config.nBwpInitial ∧
          slivCode config.nBwpInitial (config.startVrb / config.k) (config.lengthVrb / config.k) < 2 ^ 32) := by
  refine ⟨fun S L hL hle => ⟨_, raFrequencyType1GetRiv_eq hlt hL hle, roundtrip_iff hlt hL hle⟩,
    rivInvertible_iff hN hlt, fun riv hstart hlength hget => ?_⟩
  have hk : 0 < config.k := by
    unfold RaFrequencyType1SpecialConfiguration.k
    dsimp only
    split_ifs <;> decide
  obtain ⟨start, hs⟩ := hstart
  obtain ⟨length, hl⟩ := hlength
  rw [RaFrequencyType1SpecialConfiguration.getRiv] at hget
  rw [hs, hl, Nat.mul_div_cancel_left _ hk, Nat.mul_div_cancel_left _ hk] at hget ⊢
  rw [Nat.mul_right_inj hk.ne', Nat.mul_right_inj hk.ne', ← mk.injEq, mk.eta]
  split at hget
  · cases hget
  next hinit0 =>
    by_cases hle : start ≤ config.nBwpInitial
    · have hacc : 1 ≤ length ∧ start + length ≤ config.nBwpInitial := by
        rw [raFrequencyType1GetRiv, ite_none_right_eq_some, u32] at hget
        omega
      rw [raFrequencyType1GetRiv_eq hinit hacc.1 hacc.2, some.injEq] at hget
      rw [← hget, and_iff_right hle]
      exact roundtrip_iff hinit hacc.1 hacc.2
    · refine iff_of_false (fun heq => ?_) (fun h => hle h.1)
      have hfst := slivToSAndL_fst_lt (Nat.pos_of_ne_zero hinit0) hinit riv
      rw [raFrequencyType1FromRiv] at heq
      rw [heq] at hfst
      exact hle hfst.le

theorem riv_fifty : RivInvertible 50 ∧
    (4 * (raFrequencyType1FromRiv 24 124).1 = 16 ∧ 4 * (raFrequencyType1FromRiv 24 124).2 = 24) := by
  have h := riv_iff 50 (by decide) (by decide) ⟨24, 100, 16, 24⟩ (by decide)
  exact ⟨h.2.1.mpr (by decide), (h.2.2 124 (by decide) (by decide) (by decide)).mpr (by decide)⟩

/-- A pair whose code is wrapped to the one of another, and a start behind the initial BWP that passes the assertions -/
theorem riv_wraps :
    (raFrequencyType1GetRiv 131072 0 65537 = some 0 ∧ raFrequencyType1FromRiv 131072 0 = (0, 1)) ∧
      (RaFrequencyType1SpecialConfiguration.mk 10 10 11 1).getRiv = some 11 ∧ raFrequencyType1FromRiv 10 11 = (1, 2) := by
  decide

end SrsRan.Ran
