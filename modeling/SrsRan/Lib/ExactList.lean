import Mathlib.Data.List.Nodup

/-!
# Lists that hold exactly the elements of a set

`Exactly l P`: the list has no duplicates, and its elements are those that satisfy `P`.  This is what an intrusive list
or a stack of free identifiers has to satisfy; inserting and removing an element is followed on the predicate.
-/

namespace SrsRan.Lib.ExactList

open List

variable {α : Type} {l : List α} {P Q : α → Prop} {x : α}

/-- The list holds the elements with the property, each once. -/
structure Exactly (l : List α) (P : α → Prop) : Prop where
  nodup : l.Nodup
  mem : ∀ x, x ∈ l ↔ P x

lemma Exactly.congr (h : Exactly l P) (hPQ : ∀ x, P x ↔ Q x) : Exactly l Q :=
  ⟨h.nodup, fun x => (h.mem x).trans (hPQ x)⟩

lemma Exactly.nil (h : ∀ x, ¬ P x) : Exactly ([] : List α) P :=
  ⟨nodup_nil, fun x => ⟨fun hx => (nomatch hx), fun hx => (h x hx).elim⟩⟩

lemma Exactly.cons (h : Exactly l P) (hx : ¬ P x) : Exactly (x :: l) fun y => y = x ∨ P y := by
  constructor
  · exact nodup_cons.mpr ⟨fun hm => hx ((h.mem x).mp hm), h.nodup⟩
  · intro y
    rw [mem_cons, h.mem]

lemma Exactly.concat (h : Exactly l P) (hx : ¬ P x) : Exactly (l ++ [x]) fun y => y = x ∨ P y := by
  have hperm : (l ++ [x]).Perm (x :: l) := perm_append_singleton x l
  constructor
  · exact hperm.nodup_iff.mpr (h.cons hx).nodup
  · intro y
    rw [hperm.mem_iff]
    exact (h.cons hx).mem y

lemma Exactly.erase [BEq α] [LawfulBEq α] (h : Exactly l P) (x : α) : Exactly (l.erase x) fun y => y ≠ x ∧ P y := by
  constructor
  · exact h.nodup.erase x
  · intro y
    rw [h.nodup.mem_erase_iff, h.mem]

lemma Exactly.dropLast (h : Exactly l P) (hx : l.getLast? = some x) : Exactly l.dropLast fun y => y ≠ x ∧ P y := by
  obtain ⟨ys, rfl⟩ := getLast?_eq_some_iff.mp hx
  rw [dropLast_concat]
  have hnd := h.nodup
  rw [nodup_append] at hnd
  obtain ⟨h1, -, h2⟩ := hnd
  constructor
  · exact h1
  · intro y
    have hy := h.mem y
    rw [mem_append, mem_singleton] at hy
    constructor
    · intro hm
      exact ⟨h2 y hm x (mem_singleton.mpr rfl), hy.mp (.inl hm)⟩
    · rintro ⟨hne, hp⟩
      exact (hy.mpr hp).resolve_right hne

lemma Exactly.of_getLast? (h : Exactly l P) (hx : l.getLast? = some x) : P x := (h.mem x).mp (mem_of_getLast? hx)

lemma Exactly.reverse_range (n : ℕ) : Exactly (List.range n).reverse fun i => i < n := by
  constructor
  · exact nodup_reverse.mpr nodup_range
  · intro i
    rw [mem_reverse, mem_range]

lemma Exactly.count_eq [BEq α] [LawfulBEq α] (h : Exactly l P) {c : Prop} [Decidable c] (hc : P x ↔ c) :
    l.count x = if c then 1 else 0 := by
  split
  next hx => exact count_eq_one_of_mem h.nodup ((h.mem x).mpr (hc.mpr hx))
  next hx => exact count_eq_zero_of_not_mem fun hm => hx (hc.mp ((h.mem x).mp hm))

end SrsRan.Lib.ExactList
