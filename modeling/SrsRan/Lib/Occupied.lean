import Mathlib.Data.Finset.Card

/-!
# Slots of a table with a property

A table changes in one slot at a time, which joins or leaves the slots whose entry has a property.
-/

namespace SrsRan.Lib

open Finset Function

variable {ι α : Type} [DecidableEq ι] {p : α → Prop} [DecidablePred p] {s : Finset ι} {i : ι} {v : α}

lemma filter_update_pos (hi : i ∈ s) (hv : p v) (f : ι → α) :
    {j ∈ s | p (update f i v j)} = insert i {j ∈ s | p (f j)} := by
  ext j
  by_cases hj : j = i
  · simp [hj, hi, hv]
  · simp [hj]

lemma filter_update_neg (hv : ¬ p v) (f : ι → α) : {j ∈ s | p (update f i v j)} = erase {j ∈ s | p (f j)} i := by
  ext j
  by_cases hj : j = i
  · simp [hj, hv]
  · simp [hj]

end SrsRan.Lib
