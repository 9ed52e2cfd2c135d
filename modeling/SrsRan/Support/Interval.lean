import Mathlib.Tactic.Common
import Mathlib.Order.Lattice

/-!
# `interval<unsigned>`

A half-open interval `[start, stop)`.  The constructor asserts `start ≤ stop`, which is a field here.
-/

namespace SrsRan.Support

/-- `interval`, from `start` up to `stop`. -/
structure Interval where
  start : ℕ
  stop : ℕ
  start_le_stop : start ≤ stop
deriving DecidableEq

namespace Interval

/-- The constructor, whose assertion fails unless `start ≤ stop`. -/
def make? (start stop : ℕ) : Option Interval :=
  if h : start ≤ stop then some ⟨start, stop, h⟩ else none

def contains (i : Interval) (point : ℕ) : Bool := i.start ≤ point ∧ point < i.stop

def isEmpty (i : Interval) : Bool := i.stop = i.start

def length (i : Interval) : ℕ := i.stop - i.start

def overlaps (i j : Interval) : Bool := i.start < j.stop ∧ j.start < i.stop

def inter (i j : Interval) : Interval :=
  if h : i.overlaps j then
    { start := max i.start j.start
      stop := min i.stop j.stop
      start_le_stop := by
        have hi := i.start_le_stop
        have hj := j.start_le_stop
        simp only [overlaps, decide_eq_true_eq] at h
        omega }
  else ⟨0, 0, le_rfl⟩

lemma contains_iff {i : Interval} {point : ℕ} : i.contains point = true ↔ i.start ≤ point ∧ point < i.stop := by
  simp [contains]

end Interval

end SrsRan.Support
