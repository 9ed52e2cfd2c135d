import Mathlib.Data.List.Sort

/-!
# Sums in an order

An addition that is commutative but not associative, such as one that saturates: `total base l` adds the summands of `l` to
`base` one after another.
-/

namespace SrsRan.Lib

open List

variable {α : Type} [Add α]

def total (base : α) (l : List α) : α := l.foldl (· + ·) base

lemma total_append (base : α) (l l' : List α) : total base (l ++ l') = total (total base l) l' := foldl_append

variable [Zero α] {f : ℕ → α} {l : List ℕ} (hz : ∀ a : α, a + 0 = a)
include hz

lemma total_map_sublist {l' : List ℕ} (hsub : l'.Sublist l) (hnd : l.Nodup)
    (hf : ∀ x ∈ l, x ∉ l' → f x = 0) (base : α) : total base (l.map f) = total base (l'.map f) := by
  induction hsub generalizing base with
  | slnil => rfl
  | @cons l1 l2 a hsub ih =>
    obtain ⟨ha, hnd⟩ := nodup_cons.mp hnd
    have h0 : f a = 0 := hf a mem_cons_self fun hmem => ha (hsub.subset hmem)
    show total (base + f a) (l2.map f) = _
    rw [h0, hz]
    exact ih hnd (fun x hx hx' => hf x (mem_cons_of_mem a hx) hx') base
  | @cons_cons l1 l2 a hsub ih =>
    obtain ⟨ha, hnd⟩ := nodup_cons.mp hnd
    apply ih hnd
    intro x hx hx'
    apply hf x (mem_cons_of_mem a hx)
    intro hmem
    rcases mem_cons.mp hmem with rfl | hmem
    · exact ha hx
    · exact hx' hmem

omit hz in
lemma sublist_of_increasing {l' : List ℕ} (hl : l.Pairwise (· < ·)) (hl' : l'.Pairwise (· < ·)) (hsub : l' ⊆ l) :
    l'.Sublist l := by
  have hnd : l'.Nodup := hl'.imp fun h => Nat.ne_of_lt h
  apply sublist_of_subperm_of_sortedLE (subperm_of_subset hnd hsub)
  · exact sortedLE_iff_pairwise.mpr (hl'.imp fun h => Nat.le_of_lt h)
  · exact sortedLE_iff_pairwise.mpr (hl.imp fun h => Nat.le_of_lt h)

lemma total_map_of_increasing (l' : List ℕ) (hl : l.Pairwise (· < ·))
    (hl' : l'.Pairwise (· < ·)) (hsub : l' ⊆ l) (hf : ∀ x ∈ l, x ∉ l' → f x = 0) (base : α) :
    total base (l.map f) = total base (l'.map f) :=
  total_map_sublist hz (sublist_of_increasing hl hl' hsub) (hl.imp fun h => Nat.ne_of_lt h) hf base

/-- **Two summands** are added in their order. -/
theorem total_map_pair (hl : l.Pairwise (· < ·)) {a b : ℕ} (hab : a < b)
    (ha : a ∈ l) (hb : b ∈ l) (hf : ∀ x ∈ l, x ≠ a → x ≠ b → f x = 0) (base : α) :
    total base (l.map f) = base + f a + f b := by
  rw [total_map_of_increasing hz [a, b] hl]
  · rfl
  · simpa using hab
  · simp [ha, hb]
  · intro x hx hx'
    simp only [mem_cons, List.not_mem_nil, or_false, not_or] at hx'
    exact hf x hx hx'.1 hx'.2

/-- **Three summands** that are added to zero: the last one matters. -/
theorem total_map_triple (hz' : ∀ a : α, 0 + a = a) (hcomm : ∀ a b : α, a + b = b + a)
    (hl : l.Pairwise (· < ·)) {a b c : ℕ} (hab : a ≠ b) (hac : a < c) (hbc : b < c) (ha : a ∈ l) (hb : b ∈ l)
    (hc : c ∈ l) (hf : ∀ x ∈ l, x ≠ a → x ≠ b → x ≠ c → f x = 0) : total 0 (l.map f) = f a + f b + f c := by
  have hthree {a b : ℕ} (hab : a < b) (hbc : b < c) (ha : a ∈ l) (hb : b ∈ l)
      (hf : ∀ x ∈ l, x ≠ a → x ≠ b → x ≠ c → f x = 0) : total 0 (l.map f) = f a + f b + f c := by
    rw [total_map_of_increasing hz [a, b, c] hl]
    · show 0 + f a + f b + f c = _
      rw [hz']
    · simp [hab, hbc, hab.trans hbc]
    · simp [ha, hb, hc]
    · intro x hx hx'
      simp only [mem_cons, List.not_mem_nil, or_false, not_or] at hx'
      exact hf x hx hx'.1 hx'.2.1 hx'.2.2
  rcases Nat.lt_or_gt_of_ne hab with hlt | hgt
  · exact hthree hlt hbc ha hb hf
  · rw [hthree hgt hac hb ha fun x hx h1 h2 h3 => hf x hx h2 h1 h3, hcomm (f b)]

omit hz in
/-- **Two orders** of the same summands, in which the same one of any three is the last, give the same sum. -/
theorem total_map_eq_of_last (hz' : ∀ a : α, 0 + a = a) (hcomm : ∀ a b : α, a + b = b + a) {l' : List ℕ}
    (hl : l.Pairwise (· < ·)) (hperm : l'.Perm l)
    (hlast : ∀ a b c, [a, b, c].Sublist l' → a < c ∧ b < c) : total 0 (l'.map f) = total 0 (l.map f) := by
  have hnd : l'.Nodup := hperm.nodup_iff.mpr (hl.imp fun h => Nat.ne_of_lt h)
  have heq {k : List ℕ} (hk : k.Pairwise (· < ·)) (hp : k.Perm l) : k = l := by
    apply hp.eq_of_pairwise _ hk hl
    intro a b _ _ hab hba
    exact absurd hab (Nat.lt_asymm hba)
  rcases l' with _ | ⟨x, _ | ⟨y, rest⟩⟩
  · rw [heq List.Pairwise.nil hperm]
  · rw [heq (pairwise_singleton _ _) hperm]
  · have hrest : rest.Pairwise (· < ·) := by
      rw [pairwise_iff_forall_sublist]
      intro a b hab
      exact (hlast x a b ((hab.cons y).cons_cons x)).2
    have hbelow (c : ℕ) (hc : c ∈ rest) : x < c ∧ y < c :=
      hlast x y c (((singleton_sublist.mpr hc).cons_cons y).cons_cons x)
    rcases Nat.lt_trichotomy x y with hlt | rfl | hgt
    · rw [heq _ hperm]
      refine pairwise_cons.mpr ⟨?_, pairwise_cons.mpr ⟨fun c hc => (hbelow c hc).2, hrest⟩⟩
      intro c hc
      rcases mem_cons.mp hc with rfl | hc
      · exact hlt
      · exact (hbelow c hc).1
    · simp at hnd
    · -- the first two summands are exchanged
      have hswap : y :: x :: rest = l := by
        apply heq _ ((List.Perm.swap x y rest).trans hperm)
        refine pairwise_cons.mpr ⟨?_, pairwise_cons.mpr ⟨fun c hc => (hbelow c hc).1, hrest⟩⟩
        intro c hc
        rcases mem_cons.mp hc with rfl | hc
        · exact hgt
        · exact (hbelow c hc).2
      rw [← hswap]
      show total (0 + f x + f y) (rest.map f) = total (0 + f y + f x) (rest.map f)
      rw [hz', hz', hcomm]

end SrsRan.Lib
