import Mathlib.Tactic.Ring

/-!
# Weights of a list of threads

A system of threads keeps them in a list and addresses them by index: a step replaces one of them (`set`) or ends it
(`eraseIdx`).  The sum of a weight over the threads counts those in some phase, or measures the work that is left.
-/

namespace SrsRan.Lib

open List

variable {τ : Type} (w : τ → ℕ)

def weight (l : List τ) : ℕ := (l.map w).sum

@[simp] lemma weight_cons (t : τ) (l : List τ) : weight w (t :: l) = w t + weight w l := sum_cons

variable {w}

lemma weight_set {l : List τ} {i : ℕ} {t : τ} (h : l[i]? = some t) (t' : τ) :
    weight w (l.set i t') + w t = weight w l + w t' := by
  induction l generalizing i with
  | nil => cases h
  | cons u l ih =>
    cases i with
    | zero =>
      obtain rfl : u = t := Option.some.inj h
      rw [set_cons_zero, weight_cons, weight_cons]
      omega
    | succ i =>
      have := ih (i := i) h
      rw [set_cons_succ, weight_cons, weight_cons]
      omega

lemma weight_eraseIdx {l : List τ} {i : ℕ} {t : τ} (h : l[i]? = some t) : weight w (l.eraseIdx i) + w t = weight w l := by
  induction l generalizing i with
  | nil => cases h
  | cons u l ih =>
    cases i with
    | zero =>
      obtain rfl : u = t := Option.some.inj h
      rw [eraseIdx_cons_zero, weight_cons]
      omega
    | succ i =>
      have := ih (i := i) h
      rw [eraseIdx_cons_succ, weight_cons, weight_cons]
      omega

end SrsRan.Lib
