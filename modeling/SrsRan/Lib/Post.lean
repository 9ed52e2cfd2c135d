import SrsRan.Lib.Run

/-!
# Postconditions of computations that can fail

`Post E Q x`: the computation `x` ends with a value that satisfies `Q`, or with an error that satisfies `E`.
-/

namespace SrsRan.Lib.Run

variable {ε σ α β : Type} {E : ε → Prop}

/-- The result satisfies `Q`, the error `E`. -/
def Post (E : ε → Prop) (Q : α → Prop) : Except ε α → Prop
  | .ok a => Q a
  | .error e => E e

lemma Post.mono {Q Q' : α → Prop} {x : Except ε α} (h : Post E Q x) (hQ : ∀ a, Q a → Q' a) : Post E Q' x := by
  cases x with
  | ok a => exact hQ a h
  | error e => exact h

/-- **Sequencing.** -/
theorem Post.bind {Q : α → Prop} {R : β → Prop} {x : Except ε α} {f : α → Except ε β} (h : Post E Q x)
    (hf : ∀ a, Q a → Post E R (f a)) : Post E R (x >>= f) := by
  cases x with
  | ok a => exact hf a h
  | error e => exact h

/-- **Loops.**  What every iteration preserves, the loop preserves. -/
theorem Post.foldlM {Q : σ → Prop} {f : σ → α → Except ε σ} {l : List α} {s : σ} (hs : Q s)
    (hf : ∀ s x, x ∈ l → Q s → Post E Q (f s x)) : Post E Q (l.foldlM f s) := by
  induction l generalizing s with
  | nil => exact hs
  | cons x l ih =>
    rw [List.foldlM_cons]
    refine (hf s x List.mem_cons_self hs).bind ?_
    intro s' hs'
    exact ih hs' fun t y hy => hf t y (List.mem_cons_of_mem x hy)

lemma Post.of_ok {Q : α → Prop} {x : Except ε α} {a : α} (h : Post E Q x) (hx : x = .ok a) : Q a := by
  subst hx
  exact h

lemma Post.of_error {Q : α → Prop} {x : Except ε α} {e : ε} (h : Post E Q x) (hx : x = .error e) : E e := by
  subst hx
  exact h

end SrsRan.Lib.Run
