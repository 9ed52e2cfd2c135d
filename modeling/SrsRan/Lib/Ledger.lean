import Mathlib.Algebra.BigOperators.Fin
import Mathlib.Algebra.Order.BigOperators.Group.Finset

/-!
# Ledgers of items

Items are in a free list or with one of the owners `0, …, n - 1`.  `Ledger all n free owned` says that all of them are
accounted for.
-/

namespace SrsRan.Lib

variable {α : Type} {all : Multiset α} {n : ℕ} {free : List α} {owned : ℕ → List α}

/-- The free list and the `n` owners have all items between them. -/
def Ledger (all : Multiset α) (n : ℕ) (free : List α) (owned : ℕ → List α) : Prop :=
  (free : Multiset α) + ∑ i ∈ Finset.range n, (owned i : Multiset α) = all

namespace Ledger

lemma sum_update {M : Type} [AddCommMonoid M] {f g : ℕ → M} {i : ℕ} (hi : i < n) (hg : ∀ j, j ≠ i → g j = f j) :
    ∃ r, ∑ j ∈ Finset.range n, f j = f i + r ∧ ∑ j ∈ Finset.range n, g j = g i + r := by
  have hmem : i ∈ Finset.range n := Finset.mem_range.mpr hi
  refine ⟨∑ j ∈ (Finset.range n).erase i, f j, (Finset.add_sum_erase _ _ hmem).symm, ?_⟩
  rw [← Finset.add_sum_erase _ _ hmem]
  congr 1
  exact Finset.sum_congr rfl fun j hj => hg j (Finset.ne_of_mem_erase hj)

/-- **Moves.**  What leaves the free list goes to the owner, and conversely. -/
theorem update (h : Ledger all n free owned) {i : ℕ} (hi : i < n) {free' : List α} {owned' : ℕ → List α}
    (hother : ∀ j, j ≠ i → owned' j = owned j) (hmove : (free' ++ owned' i).Perm (free ++ owned i)) :
    Ledger all n free' owned' := by
  obtain ⟨r, hsum, hsum'⟩ := sum_update (M := Multiset α) (f := fun j => (owned j : Multiset α))
    (g := fun j => (owned' j : Multiset α)) hi (fun j hj => by rw [hother j hj])
  have hmove' : (free' : Multiset α) + owned' i = (free : Multiset α) + owned i := by
    rw [Multiset.coe_add, Multiset.coe_add]
    exact Multiset.coe_eq_coe.mpr hmove
  rw [Ledger, hsum', ← add_assoc, hmove', add_assoc, ← hsum]
  exact h

variable [DecidableEq α]

lemma count_add_sum (h : Ledger all n free owned) (a : α) :
    free.count a + ∑ i ∈ Finset.range n, (owned i).count a = all.count a := by
  rw [← h, Multiset.count_add, Multiset.coe_count, Multiset.count_sum']
  simp only [Multiset.coe_count]

section Nodup

variable (hall : all.Nodup)

include hall

lemma owner_unique (h : Ledger all n free owned) {a : α} {i j : ℕ} (hi : i < n) (hj : j < n) (hai : a ∈ owned i)
    (haj : a ∈ owned j) : i = j := by
  by_contra hne
  have hcount := h.count_add_sum a
  have hle := Multiset.nodup_iff_count_le_one.mp hall a
  rw [← hcount] at hle
  have hpair : (owned i).count a + (owned j).count a ≤ ∑ k ∈ Finset.range n, (owned k).count a :=
    Finset.add_le_sum (f := fun k => (owned k).count a) (fun _ _ => Nat.zero_le _) (Finset.mem_range.mpr hi)
      (Finset.mem_range.mpr hj) hne
  have hpi := List.count_pos_iff.mpr hai
  have hpj := List.count_pos_iff.mpr haj
  omega

lemma nodup_owned (h : Ledger all n free owned) {i : ℕ} (hi : i < n) : (owned i).Nodup := by
  refine List.nodup_iff_count_le_one.mpr fun a => ?_
  have hcount := h.count_add_sum a
  have hle := Multiset.nodup_iff_count_le_one.mp hall a
  have hone : (owned i).count a ≤ ∑ k ∈ Finset.range n, (owned k).count a :=
    Finset.single_le_sum (f := fun k => (owned k).count a) (fun _ _ => Nat.zero_le _) (Finset.mem_range.mpr hi)
  omega

end Nodup

end Ledger

end SrsRan.Lib
