import SrsRan.Lib.SeqNum

/-!
# Slot points

A `slot_point` is a slot count modulo the number of slots of a hyper system frame.  `slotLt` compares two counts; it is right
for counts of slots that are less than half a hyper system frame apart (`slotLt_mod`).
-/

namespace SrsRan.Support

open Nat

def nofSlotsPerHyperSystemFrame (numerology : ℕ) : ℕ := 2 ^ numerology * 10 * 1024

def slotAdd (nofSlots slot jump : ℕ) : ℕ := (slot + jump) % nofSlots

def slotLt (nofSlots a b : ℕ) : Bool :=
  let v : ℤ := (b : ℤ) - a
  if v > 0 then v < nofSlots / 2 else v < -(nofSlots : ℤ) / 2

def nofSlotsPerSubframe (numerology : ℕ) : ℕ := 2 ^ numerology

def nofSlotsPerFrame (numerology : ℕ) : ℕ := nofSlotsPerSubframe numerology * 10

def sfn (numerology slot : ℕ) : ℕ := slot / nofSlotsPerFrame numerology

def slotIndex (numerology slot : ℕ) : ℕ := slot % nofSlotsPerFrame numerology

def subframeIndex (numerology slot : ℕ) : ℕ := slotIndex numerology slot / nofSlotsPerSubframe numerology

def subframeSlotIndex (numerology slot : ℕ) : ℕ := slot % nofSlotsPerSubframe numerology

def slotOf (numerology frame subframe slotId : ℕ) : ℕ :=
  slotId + subframe * nofSlotsPerSubframe numerology + frame * nofSlotsPerFrame numerology

lemma nofSlotsPerSubframe_pos (μ : ℕ) : 0 < nofSlotsPerSubframe μ := Nat.two_pow_pos _

lemma nofSlotsPerFrame_pos (μ : ℕ) : 0 < nofSlotsPerFrame μ := Nat.mul_pos (nofSlotsPerSubframe_pos _) (by decide)

lemma subframeIndex_lt (μ slot : ℕ) : subframeIndex μ slot < 10 :=
  Nat.div_lt_of_lt_mul (mod_lt _ (nofSlotsPerFrame_pos _))

lemma subframeSlotIndex_lt (μ slot : ℕ) : subframeSlotIndex μ slot < nofSlotsPerSubframe μ :=
  mod_lt _ (nofSlotsPerSubframe_pos _)

lemma slotIndex_eq (μ slot : ℕ) :
    slotIndex μ slot =
      subframeSlotIndex μ slot + subframeIndex μ slot * nofSlotsPerSubframe μ := by
  have hmod : slotIndex μ slot % nofSlotsPerSubframe μ = subframeSlotIndex μ slot :=
    mod_mod_of_dvd _ (Nat.dvd_mul_right _ _)
  rw [← hmod, subframeIndex, Nat.mul_comm]
  exact (mod_add_div _ _).symm

lemma slotIndex_add_mod (μ slot m : ℕ) :
    slotIndex μ slot + sfn μ slot % m * nofSlotsPerFrame μ =
      slot % (nofSlotsPerFrame μ * m) := by
  rw [mod_mul, Nat.mul_comm (sfn μ slot % m)]
  rfl

lemma slotOf_fields (μ slot m : ℕ) :
    slotOf μ (sfn μ slot % m) (subframeIndex μ slot) (subframeSlotIndex μ slot) =
      slot % (nofSlotsPerFrame μ * m) := by
  rw [← slotIndex_add_mod, slotIndex_eq]
  rfl

variable {nofSlots : ℕ}

lemma slotLt_iff {a b : ℕ} (heven : 2 ∣ nofSlots) (ha : a < nofSlots) (hb : b < nofSlots) :
    slotLt nofSlots a b = true ↔
      0 < Lib.SeqNum.modSub nofSlots nofSlots a b ∧ 2 * Lib.SeqNum.modSub nofSlots nofSlots a b < nofSlots := by
  have hmod : Lib.SeqNum.modSub nofSlots nofSlots a b = if a ≤ b then b - a else nofSlots - (a - b) := by
    split
    next hle =>
      have := Lib.SeqNum.modSub_mod_of_le (m := nofSlots) (by omega) dvd_rfl hle (by omega)
      rwa [mod_eq_of_lt ha, mod_eq_of_lt hb] at this
    next hle =>
      have := Lib.SeqNum.modSub_mod_of_lt (m := nofSlots) (by omega) dvd_rfl (Nat.lt_of_not_le hle) (by omega)
      rwa [mod_eq_of_lt ha, mod_eq_of_lt hb] at this
  rw [hmod, slotLt]
  split <;> split <;> simp only [decide_eq_true_eq] <;> omega

lemma slotLt_mod {s t : ℕ} (heven : 2 ∣ nofSlots) (hst : 2 * s < 2 * t + nofSlots) (hts : 2 * t < 2 * s + nofSlots) :
    slotLt nofSlots (s % nofSlots) (t % nofSlots) = decide (s < t) := by
  have hpos : 0 < nofSlots := by omega
  rw [Bool.eq_iff_iff, slotLt_iff heven (mod_lt _ hpos) (mod_lt _ hpos), decide_eq_true_eq]
  rcases Nat.lt_or_ge t s with h | h
  · rw [Lib.SeqNum.modSub_mod_of_lt hpos dvd_rfl h (by omega)]
    omega
  · rw [Lib.SeqNum.modSub_mod_of_le hpos dvd_rfl h (by omega)]
    omega

end SrsRan.Support
