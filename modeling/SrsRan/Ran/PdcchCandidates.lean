import Mathlib.Data.Nat.ModEq
import Mathlib.Tactic.NormNum.Prime

/-!
# PDCCH candidates

The lowest CCE of each candidate of a search space.  A candidate is stored in an octet, so that candidates of a CORESET
with more than 256 CCEs may get the same number.
-/

namespace SrsRan.Ran

open List

inductive AggregationLevel where
  | n1
  | n2
  | n4
  | n8
  | n16
deriving DecidableEq

def AggregationLevel.toNofCces : AggregationLevel → ℕ
  | n1 => 1
  | n2 => 2
  | n4 => 4
  | n8 => 8
  | n16 => 16

def pdcchMaxNofCandidatesSs : ℕ := 8

/-- `n_cce`, before it is stored as a `pdcch_candidate_type`; the other products are small. -/
def nCce (Yp nCi L nofCandidates nofCceCoreset candidate : ℕ) : ℕ :=
  L * ((Yp + candidate * nofCceCoreset % 2 ^ 32 / (L * nofCandidates) + nCi) % 2 ^ 32 % (nofCceCoreset / L))

def pdcchCandidatesGetLowestCce (Yp nCi L nofCandidates nofCceCoreset : ℕ) : Option (List ℕ) :=
  if nofCceCoreset > 0 ∧ L > 0 ∧ (L ≤ nofCceCoreset ∨ nofCandidates = 0) ∧ nofCandidates ≤ pdcchMaxNofCandidatesSs then
    some ((range nofCandidates).map fun candidate => nCce Yp nCi L nofCandidates nofCceCoreset candidate % 2 ^ 8)
  else none

def pdcchCandidatesUeSsGetYp (Ap D rnti : ℕ) : ℕ → ℕ
  | 0 => Ap * rnti % 2 ^ 32 % D
  | n + 1 => Ap * pdcchCandidatesUeSsGetYp Ap D rnti n % 2 ^ 32 % D

def pdcchCandidatesCommonSsGetLowestCce (al : AggregationLevel) (nofCandidates nofCceCoreset : ℕ) : Option (List ℕ) :=
  pdcchCandidatesGetLowestCce 0 0 al.toNofCces nofCandidates nofCceCoreset

def ApValue (csId : ℕ) : ℕ := [39827, 39829, 39839].getD (csId % 3) 0

def pdcchCandidatesUeSsGetLowestCce (al : AggregationLevel) (nofCandidates nofCceCoreset csId rnti slotIndex : ℕ) :
    Option (List ℕ) :=
  pdcchCandidatesGetLowestCce (pdcchCandidatesUeSsGetYp (ApValue csId) 65537 rnti slotIndex) 0 al.toNofCces
    nofCandidates nofCceCoreset

/-- The recursion of TS 38.213, over unbounded numbers -/
def exactYp (A rnti : ℕ) : ℕ → ℕ
  | 0 => A * rnti % 65537
  | n + 1 => A * exactYp A rnti n % 65537

/-- What is expected of the candidates: aligned ranges inside of the CORESET, disjoint if there is room for them -/
structure CandidatesOk (L M N : ℕ) (candidates : List ℕ) : Prop where
  inside : ∀ c ∈ candidates, L ∣ c ∧ c + L ≤ N
  disjoint : M * L ≤ N → candidates.Pairwise fun c d => c + L ≤ d ∨ d + L ≤ c

/-- The numbers of the candidates differ in their octets. -/
def DistinctOctets (Y L M N : ℕ) : Prop :=
  M * L ≤ N → (range M).Pairwise fun i j => nCce Y 0 L M N i % 2 ^ 8 ≠ nCce Y 0 L M N j % 2 ^ 8

lemma toNofCces_dvd (al : AggregationLevel) : al.toNofCces ∣ 2 ^ 8 := by
  cases al <;> decide

variable {Y L M N : ℕ}

lemma ranges_disjoint_iff {c d : ℕ} (hpos : 0 < L) (hc : L ∣ c) (hd : L ∣ d) : (c + L ≤ d ∨ d + L ≤ c) ↔ c ≠ d := by
  obtain ⟨a, rfl⟩ := hc
  obtain ⟨b, rfl⟩ := hd
  rw [← Nat.mul_succ, ← Nat.mul_succ, Nat.mul_le_mul_left_iff hpos, Nat.mul_le_mul_left_iff hpos, Ne,
    Nat.mul_right_inj hpos.ne']
  omega

lemma nCce_add_le (hpos : 0 < L) (hle : L ≤ N) (i : ℕ) : nCce Y 0 L M N i + L ≤ N :=
  (Nat.mul_le_mul_left L (Nat.mod_lt _ (Nat.div_pos hle hpos))).trans (Nat.mul_div_le N L)

lemma candidatesOk_iff (hdvd : L ∣ 2 ^ 8) {cs : List ℕ}
    (h : pdcchCandidatesGetLowestCce Y 0 L M N = some cs) : CandidatesOk L M N cs ↔ DistinctOctets Y L M N := by
  unfold pdcchCandidatesGetLowestCce at h
  split_ifs at h with hassert
  obtain ⟨-, hpos, hle, -⟩ := hassert
  cases h
  have hinside : ∀ i ∈ range M, L ∣ nCce Y 0 L M N i % 2 ^ 8 ∧ nCce Y 0 L M N i % 2 ^ 8 + L ≤ N := by
    intro i hi
    have hle : L ≤ N := hle.resolve_right (Nat.ne_of_gt (Nat.zero_lt_of_lt (mem_range.mp hi)))
    refine ⟨(Nat.dvd_mod_iff hdvd).mpr (Nat.dvd_mul_right L _), ?_⟩
    exact (Nat.add_le_add_right (Nat.mod_le _ _) L).trans (nCce_add_le hpos hle i)
  have hiff : ∀ {i j}, i ∈ range M → j ∈ range M →
      ((nCce Y 0 L M N i % 2 ^ 8 + L ≤ nCce Y 0 L M N j % 2 ^ 8 ∨ nCce Y 0 L M N j % 2 ^ 8 + L ≤ nCce Y 0 L M N i % 2 ^ 8) ↔
        nCce Y 0 L M N i % 2 ^ 8 ≠ nCce Y 0 L M N j % 2 ^ 8) :=
    fun hi hj => ranges_disjoint_iff hpos (hinside _ hi).1 (hinside _ hj).1
  constructor
  · intro hok hroom
    exact (pairwise_map.mp (hok.disjoint hroom)).imp_of_mem fun hi hj => (hiff hi hj).mp
  · intro hdistinct
    refine ⟨fun c hc => ?_, fun hroom => pairwise_map.mpr ((hdistinct hroom).imp_of_mem fun hi hj => (hiff hi hj).mpr)⟩
    obtain ⟨i, hi, rfl⟩ := mem_map.mp hc
    exact hinside i hi

/-- Candidates for which there is room do not overlap, in a CORESET of any size. -/
lemma nCce_pairwise (hpos : 0 < L) (hroom : M * L ≤ N) (hwrap : Y + M * N < 2 ^ 32) :
    (range M).Pairwise fun i j => nCce Y 0 L M N i ≠ nCce Y 0 L M N j := by
  refine Pairwise.imp_of_mem (fun {i j} hi hj hlt => ?_) pairwise_lt_range
  rw [mem_range] at hi hj
  have hLM : L * M ≤ N := Nat.mul_comm M L ▸ hroom
  have hM0 : 0 < L * M := Nat.mul_pos hpos (Nat.zero_lt_of_lt hi)
  -- the candidates advance by one aggregation level at least, and stay below the end
  have hnext : ∀ k, k * N / (L * M) + 1 ≤ (k + 1) * N / (L * M) := by
    intro k
    rw [← Nat.add_div_right _ hM0, Nat.succ_mul]
    exact Nat.div_le_div_right (Nat.add_le_add_left hLM _)
  have hend : ∀ k < M, k * N / (L * M) < N / L := by
    intro k hk
    calc _ < (k + 1) * N / (L * M) := hnext k
      _ ≤ M * N / (L * M) := Nat.div_le_div_right (Nat.mul_le_mul_right N hk)
      _ = N / L := by rw [Nat.mul_comm L M, Nat.mul_div_mul_left _ _ (Nat.zero_lt_of_lt hi)]
  have hexact : ∀ k < M, nCce Y 0 L M N k = L * ((Y + k * N / (L * M)) % (N / L)) := by
    intro k hk
    have hkN : k * N ≤ M * N := Nat.mul_le_mul_right N hk.le
    have hdiv := Nat.div_le_self (k * N) (L * M)
    rw [nCce, Nat.mod_eq_of_lt (show k * N < 2 ^ 32 by omega), Nat.add_zero,
      Nat.mod_eq_of_lt (show Y + k * N / (L * M) < 2 ^ 32 by omega)]
  rw [hexact i hi, hexact j hj, Ne, Nat.mul_right_inj hpos.ne']
  intro heq
  have hmod : i * N / (L * M) ≡ j * N / (L * M) [MOD N / L] := Nat.ModEq.add_left_cancel' Y heq
  have hstep := (hnext i).trans (Nat.div_le_div_right (Nat.mul_le_mul_right N hlt))
  exact (Nat.lt_of_succ_le hstep).ne (hmod.eq_of_lt_of_lt (hend i hi) (hend j hj))

/-- Up to 256 CCEs the octets are the numbers themselves. -/
lemma distinctOctets_of_le (hY : Y < 2 ^ 17) (hpos : 0 < L) (hM : M ≤ 8) (hN : N ≤ 2 ^ 8) : DistinctOctets Y L M N := by
  intro hroom
  have hMN : M * N ≤ 8 * 2 ^ 8 := Nat.mul_le_mul hM hN
  have hwrap : Y + M * N < 2 ^ 32 := by omega
  refine (nCce_pairwise hpos hroom hwrap).imp_of_mem fun {i j} hi _ hne => ?_
  have hM0 : 0 < M := Nat.zero_lt_of_lt (mem_range.mp hi)
  have hle : L ≤ N := (Nat.le_mul_of_pos_left L hM0).trans hroom
  have hlt : ∀ k, nCce Y 0 L M N k < 2 ^ 8 := fun k => by
    have := nCce_add_le (Y := Y) (M := M) hpos hle k
    omega
  rwa [Nat.mod_eq_of_lt (hlt i), Nat.mod_eq_of_lt (hlt j)]

lemma ApValue_cases (csId : ℕ) : ApValue csId = 39827 ∨ ApValue csId = 39829 ∨ ApValue csId = 39839 := by
  have : csId % 3 = 0 ∨ csId % 3 = 1 ∨ csId % 3 = 2 := by omega
  rcases this with h | h | h <;> simp [ApValue, h]

lemma getYp_spec (csId : ℕ) {rnti : ℕ} (hpos : 0 < rnti) (hlt : rnti < 2 ^ 16) (n : ℕ) :
    pdcchCandidatesUeSsGetYp (ApValue csId) 65537 rnti n = exactYp (ApValue csId) rnti n ∧
      0 < exactYp (ApValue csId) rnti n ∧ exactYp (ApValue csId) rnti n < 65537 := by
  have hstep : ∀ y, 0 < y → y < 65537 → ApValue csId * y % 2 ^ 32 % 65537 = ApValue csId * y % 65537 ∧
      0 < ApValue csId * y % 65537 ∧ ApValue csId * y % 65537 < 65537 := by
    intro y hy hylt
    have hA := ApValue_cases csId
    refine ⟨?_, Nat.pos_of_ne_zero fun hzero => ?_, Nat.mod_lt _ (by decide)⟩
    · have : ApValue csId * y < 2 ^ 32 := by rcases hA with h | h | h <;> rw [h] <;> omega
      rw [Nat.mod_eq_of_lt this]
    · rcases (Nat.Prime.dvd_mul (by norm_num)).mp (Nat.dvd_of_mod_eq_zero hzero) with h | h
      · rcases hA with hA | hA | hA <;> rw [hA] at h <;> exact absurd h (by decide)
      · exact absurd (Nat.le_of_dvd hy h) (by omega)
  induction n with
  | zero => exact hstep rnti hpos (by omega)
  | succ n ih =>
    rw [pdcchCandidatesUeSsGetYp, ih.1]
    exact hstep _ ih.2.1 ih.2.2

/-- The offset of a UE is the one of the recursion and not 0, and the candidates are as expected iff they differ in their
octets, which is so for up to 256 CCEs. -/
theorem pdcchCandidates_iff (al : AggregationLevel) (M N csId rnti slotIndex : ℕ) (hpos : 0 < rnti)
    (hlt : rnti < 2 ^ 16) {Y : ℕ} (hY : Y = pdcchCandidatesUeSsGetYp (ApValue csId) 65537 rnti slotIndex) :
    (Y = exactYp (ApValue csId) rnti slotIndex ∧ Y ≠ 0) ∧
      (∀ cs, pdcchCandidatesCommonSsGetLowestCce al M N = some cs →
        (CandidatesOk al.toNofCces M N cs ↔ DistinctOctets 0 al.toNofCces M N)) ∧
      (∀ cs, pdcchCandidatesUeSsGetLowestCce al M N csId rnti slotIndex = some cs →
        (CandidatesOk al.toNofCces M N cs ↔ DistinctOctets Y al.toNofCces M N)) ∧
      (M ≤ 8 → N ≤ 2 ^ 8 → DistinctOctets 0 al.toNofCces M N ∧ DistinctOctets Y al.toNofCces M N) := by
  obtain ⟨heq, hY0, hYlt⟩ := getYp_spec csId hpos hlt slotIndex
  have hL : 0 < al.toNofCces := Nat.pos_of_dvd_of_pos (toNofCces_dvd al) (by decide)
  subst hY
  refine ⟨⟨heq, heq ▸ hY0.ne'⟩, fun cs h => candidatesOk_iff (toNofCces_dvd al) h,
    fun cs h => candidatesOk_iff (toNofCces_dvd al) h, fun hM h256 => ⟨?_, ?_⟩⟩
  · exact distinctOctets_of_le (by decide) hL hM h256
  · exact distinctOctets_of_le (by omega) hL hM h256

/-- A CORESET of 48 CCEs. -/
theorem pdcchCandidates_of_48 : CandidatesOk 4 3 48 [44, 12, 28] ∧ pdcchCandidatesUeSsGetYp 39827 65537 1 0 ≠ 0 := by
  have h := pdcchCandidates_iff .n4 3 48 0 1 0 (by decide) (by decide) rfl
  exact ⟨(h.2.2.1 _ (by decide)).mpr (h.2.2.2 (by decide) (by decide)).2, h.1.2⟩

/-- Eight candidates of a CORESET with 2048 CCEs -/
theorem pdcchCandidates_of_2048 : pdcchCandidatesCommonSsGetLowestCce .n1 8 2048 = some (replicate 8 0) := by
  decide

end SrsRan.Ran
