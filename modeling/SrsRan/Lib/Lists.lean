import Mathlib.Algebra.Order.BigOperators.Group.List
import Mathlib.Algebra.Order.Group.Nat
import Mathlib.Tactic.Ring

/-!
# Lists as tables and their sizes

A list that is read with a default behaves as a table when one place is modified; sums and lengths are bounded by a bound for
each element and for each key.
-/

namespace SrsRan.Lib.Lists

open List

variable {α β : Type}

lemma getD_modify (l : List α) (i k : ℕ) (f : α → α) (d : α) (hd : l.length ≤ i → f d = d) :
    (l.modify i f).getD k d = if k = i then f (l.getD k d) else l.getD k d := by
  rw [getD_eq_getElem?_getD, getD_eq_getElem?_getD, getElem?_modify]
  by_cases h : k = i
  · subst h
    rw [if_pos rfl]
    cases hk : l[k]? with
    | some a => simp
    | none => simpa using (hd (getElem?_eq_none_iff.mp hk)).symm
  · simp [h, Ne.symm h]

lemma sum_map_le {l : List α} {f : α → ℕ} {B n : ℕ} (hf : ∀ x ∈ l, f x ≤ B) (hl : l.length ≤ n) :
    (l.map f).sum ≤ n * B := by
  have h1 : (l.map f).sum ≤ (l.map f).length * B := sum_le_card_nsmul _ B (by simpa using hf)
  rw [length_map] at h1
  exact h1.trans (Nat.mul_le_mul_right B hl)

/-- If each key occurs at most `n` times, there are at most `n` elements for each of the keys. -/
lemma length_le_of_countP_le [DecidableEq β] (f : α → β) (n : ℕ) (ks : List β) :
    ∀ l : List α, (∀ x ∈ l, f x ∈ ks) → (∀ k, l.countP (fun x => f x = k) ≤ n) → l.length ≤ n * ks.length := by
  induction ks with
  | nil =>
    intro l hl _
    cases l with
    | nil => simp
    | cons x _ => exact absurd (hl x mem_cons_self) List.not_mem_nil
  | cons k ks ih =>
    intro l hl hn
    -- the elements with this key, and the others
    have hsplit := length_eq_countP_add_countP (fun x => decide (f x = k)) (l := l)
    have hrest : (l.filter fun x => ¬ f x = k).length ≤ n * ks.length := by
      apply ih
      · intro x hx
        obtain ⟨h1, h2⟩ := mem_filter.mp hx
        obtain h | h := mem_cons.mp (hl x h1)
        · simp [h] at h2
        · exact h
      · intro k'
        exact (filter_sublist.countP_le).trans (hn k')
    rw [← countP_eq_length_filter] at hrest
    have hk := hn k
    rw [length_cons, Nat.mul_succ]
    simp only [decide_not, Bool.decide_eq_true] at hsplit hrest ⊢
    omega

end SrsRan.Lib.Lists
