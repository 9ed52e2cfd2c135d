import Mathlib.Data.List.MinMax

/-!
# Priority queues with unspecified ties

A priority queue is a list of elements; `TieBreak prio` is a way to choose one of the elements of highest priority.
-/

namespace SrsRan.Lib.PrioQueue

/-- A choice of an element of highest priority in every non-empty queue. -/
structure TieBreak {α : Type} (prio : α → ℕ) where
  top : List α → Option α
  top_mem : ∀ {q a}, top q = some a → a ∈ q
  top_max : ∀ {q a b}, top q = some a → b ∈ q → prio b ≤ prio a
  top_none : ∀ {q}, top q = none → q = []

def TieBreak.first {α : Type} (prio : α → ℕ) : TieBreak prio where
  top := List.argmax prio
  top_mem h := List.argmax_mem h
  top_max h hb := List.le_of_mem_argmax hb h
  top_none h := List.argmax_eq_none.mp h

variable {α : Type} {prio : α → ℕ}

lemma TieBreak.top_isSome (tb : TieBreak prio) {q : List α} (h : q ≠ []) : ∃ a, tb.top q = some a := by
  cases ht : tb.top q with
  | none => exact absurd (tb.top_none ht) h
  | some a => exact ⟨a, rfl⟩

end SrsRan.Lib.PrioQueue
