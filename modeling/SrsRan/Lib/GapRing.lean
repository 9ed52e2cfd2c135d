import Mathlib.Data.List.Range
import Mathlib.Tactic.Ring

/-!
# Selection from a ring with a gap

The positions of a ring are taken one after another, those of a gap being left out; `pick x t` is the position that is taken
as number `t` when the selection starts at `x`.  A selection in chunks is the same selection (`positions_chunk`).
-/

namespace SrsRan.Lib

open List Nat

/-- A ring of `size` positions with the gap from `start` to `stop`. -/
structure GapRing where
  size : ℕ
  start : ℕ
  stop : ℕ
  start_pos : 0 < start
  start_le : start ≤ stop
  stop_le : stop ≤ size

namespace GapRing

variable (r : GapRing)

/-- The position lies in the gap. -/
def Gap (x : ℕ) : Prop := r.start ≤ x ∧ x < r.stop

instance (x : ℕ) : Decidable (r.Gap x) := inferInstanceAs (Decidable (_ ∧ _))

/-- Moves on while the position is in the gap. -/
def skip : (fuel : ℕ) → ℕ → ℕ
  | 0, x => x
  | fuel + 1, x => if r.Gap x then skip fuel ((x + 1) % r.size) else x

/-- The first position from `x` on that is not in the gap. -/
def settle (x : ℕ) : ℕ := r.skip (r.stop - r.start) x

def next (x : ℕ) : ℕ := r.settle ((x + 1) % r.size)

def pick (x t : ℕ) : ℕ := r.next^[t] (r.settle x)

def positions (x n : ℕ) : List ℕ := (List.range n).map (r.pick x)

variable {r} {x : ℕ}

lemma size_pos (r : GapRing) : 0 < r.size := lt_of_lt_of_le r.start_pos (r.start_le.trans r.stop_le)

lemma skip_of_not_gap (fuel : ℕ) (h : ¬ r.Gap x) : r.skip fuel x = x := by
  cases fuel with
  | zero => rfl
  | succ fuel => rw [skip, if_neg h]

lemma not_gap_stop (r : GapRing) : ¬ r.Gap (r.stop % r.size) := by
  intro h
  have h1 := r.start_pos
  have h2 := r.stop_le
  obtain ⟨h3, h4⟩ := h
  rcases lt_or_ge r.stop r.size with hlt | hge
  · rw [mod_eq_of_lt hlt] at h4
    omega
  · rw [le_antisymm h2 hge, mod_self] at h3
    omega

lemma skip_of_gap {fuel : ℕ} (h : r.Gap x) (hf : r.stop - x ≤ fuel) : r.skip fuel x = r.stop % r.size := by
  induction fuel generalizing x with
  | zero =>
    have := h.2
    omega
  | succ fuel ih =>
    rw [skip, if_pos h]
    obtain ⟨h1, h2⟩ := h
    have h3 := r.stop_le
    rcases lt_or_ge (x + 1) r.stop with hlt | hge
    · rw [mod_eq_of_lt (by omega)]
      apply ih
      · exact ⟨by omega, hlt⟩
      · omega
    · -- the end of the gap, which may be the end of the ring
      obtain hx : x + 1 = r.stop := by omega
      rw [hx]
      exact skip_of_not_gap fuel r.not_gap_stop

lemma settle_of_not_gap (h : ¬ r.Gap x) : r.settle x = x := skip_of_not_gap _ h

lemma settle_of_gap (h : r.Gap x) : r.settle x = r.stop % r.size := by
  apply skip_of_gap h
  have := h.1
  omega

lemma pick_zero (h : ¬ r.Gap x) : r.pick x 0 = x := settle_of_not_gap h

lemma pick_succ (h : ¬ r.Gap x) (t : ℕ) : r.pick x (t + 1) = r.pick ((x + 1) % r.size) t := by
  rw [pick, Function.iterate_succ_apply, settle_of_not_gap h]
  rfl

lemma pick_of_gap (h : r.Gap x) (t : ℕ) : r.pick x t = r.pick (r.stop % r.size) t := by
  rw [pick, settle_of_gap h, pick, settle_of_not_gap r.not_gap_stop]

lemma settle_lt (h : x < r.size) : r.settle x < r.size := by
  by_cases hg : r.Gap x
  · rw [settle_of_gap hg]
    exact mod_lt _ r.size_pos
  · rw [settle_of_not_gap hg]
    exact h

lemma not_gap_settle (x : ℕ) : ¬ r.Gap (r.settle x) := by
  by_cases hg : r.Gap x
  · rw [settle_of_gap hg]
    exact r.not_gap_stop
  · rw [settle_of_not_gap hg]
    exact hg

lemma pick_spec (h : x < r.size) (t : ℕ) : r.pick x t < r.size ∧ ¬ r.Gap (r.pick x t) := by
  induction t with
  | zero => exact ⟨settle_lt h, not_gap_settle x⟩
  | succ t ih =>
    rw [pick, Function.iterate_succ_apply']
    exact ⟨settle_lt (mod_lt _ r.size_pos), not_gap_settle _⟩

lemma length_positions (x n : ℕ) : (r.positions x n).length = n := by
  rw [positions, length_map, length_range]

lemma positions_of_gap (h : r.Gap x) (n : ℕ) : r.positions x n = r.positions (r.stop % r.size) n := by
  apply map_congr_left
  intro t _
  exact pick_of_gap h t

lemma positions_succ (h : ¬ r.Gap x) (n : ℕ) : r.positions x (n + 1) = x :: r.positions ((x + 1) % r.size) n := by
  rw [positions, range_succ_eq_map, map_cons, List.map_map, pick_zero h]
  congr 1
  apply map_congr_left
  intro t _
  exact pick_succ h t

/-- **A chunk** of positions outside of the gap is taken in its order. -/
theorem positions_chunk (hx : x < r.size) (c n : ℕ) (hle : x + c ≤ r.size) (hgap : ∀ y, x ≤ y → y < x + c → ¬ r.Gap y) :
    r.positions x (c + n) = List.range' x c ++ r.positions ((x + c) % r.size) n := by
  induction c generalizing x with
  | zero => rw [Nat.zero_add, Nat.add_zero, mod_eq_of_lt hx, range'_zero, nil_append]
  | succ c ih =>
    have hx' := hgap x le_rfl (by omega)
    rw [show c + 1 + n = (c + n) + 1 by ring, positions_succ hx', range'_succ, cons_append]
    congr 1
    obtain rfl | hc := Nat.eq_zero_or_pos c
    · rw [Nat.zero_add, range'_zero, nil_append]
    · rw [mod_eq_of_lt (by omega), ih (by omega) (by omega) fun y h1 h2 => hgap y (by omega) (by omega)]
      rw [show x + 1 + c = x + (c + 1) by ring]

end GapRing

end SrsRan.Lib
