import SrsRan.Support.SlotPoint

/-!
# Jumps and differences of slot points

`operator+=` and `operator-=` compute in the 32 bits of the jump before they reduce by the number of slots of a hyper system
frame, which does not divide `2 ^ 32`: a jump is exact iff it stays within the signed range (`SlotJump.Fits`).
-/

namespace SrsRan.Support

open Int Option

/-- A jump of type `int`, or of an unsigned type. -/
inductive SlotJump where
  | int (jump : ℤ)
  | unsigned (jump : ℕ)

namespace SlotJump

def val : SlotJump → ℤ
  | int jump => jump
  | unsigned jump => jump

/-- The jump is a value of its type. -/
def Representable : SlotJump → Prop
  | int jump => -2 ^ 31 ≤ jump ∧ jump < 2 ^ 31
  | unsigned jump => jump < 2 ^ 32

/-- The jump and its negation lead from `slot` to a signed number. -/
def Fits (slot : ℕ) : SlotJump → Prop
  | int jump => slot + jump < 2 ^ 31 ∧ slot - jump < 2 ^ 31
  | unsigned jump => jump < 2 ^ 31

end SlotJump

section Operators

variable (N slot : ℕ)

/-- `operator+=(int)`; `none` is the overflow of the signed sum. -/
def slotAddInt (jump : ℤ) : Option ℕ :=
  if slot + jump < 2 ^ 31 then
    let tmp := ((slot : ℤ) + jump).tmod N
    some (tmp + if tmp < 0 then N else 0).toNat
  else none

/-- The negation of an `int`, which overflows for the least one -/
def negInt (jump : ℤ) : Option ℤ := if jump = -2 ^ 31 then none else some (-jump)

def slotPlus : SlotJump → Option ℕ
  | .int jump => slotAddInt N slot jump
  | .unsigned jump => some ((slot + jump) % 2 ^ 32 % N)

def slotMinus : SlotJump → Option ℕ
  | .int jump => (negInt jump).bind (slotAddInt N slot)
  | .unsigned jump => (negInt ((jump : ℤ).bmod (2 ^ 32))).bind (slotAddInt N slot)

def slotSub (other : ℕ) : ℤ :=
  let a : ℤ := slot - other
  if a ≥ N / 2 then a - N else if a < -(N : ℤ) / 2 then a + N else a

/-- What is expected of the operators at the slots `slot` and `other` and a jump -/
structure SlotArithmetic (other : ℕ) (k : SlotJump) : Prop where
  plus : slotPlus N slot k = some ((slot + k.val) % N).toNat
  minus : slotMinus N slot k = some ((slot - k.val) % N).toNat
  sub_plus : -(N : ℤ) ≤ 2 * k.val → 2 * k.val < N →
    (slotPlus N slot k).map (slotSub N · slot) = some k.val
  add_sub : slotPlus N slot (.int (slotSub N other slot)) = some other
  lt_iff : slotLt N slot other = true ↔ slotSub N slot other < 0
  ge_iff : (!slotLt N slot other) = true ↔ 0 ≤ slotSub N slot other

end Operators

variable {N slot other : ℕ}

lemma emod_of_near {x : ℤ} (hlow : -(N : ℤ) ≤ x) (hhigh : x < 2 * N) :
    x % N = if x < 0 then x + N else if x < N then x else x - N := by
  split
  · rw [← add_emod_right, emod_eq_of_lt] <;> omega
  · split
    · rw [emod_eq_of_lt] <;> omega
    · rw [← sub_emod_right, emod_eq_of_lt] <;> omega

/-! ### Jumps -/

section Jumps

variable (hpos : 0 < N)
include hpos

lemma slotAddInt_eq {jump : ℤ} (h : slot + jump < 2 ^ 31) :
    slotAddInt N slot jump = some ((slot + jump) % N).toNat := by
  have hlt := emod_lt_of_pos (slot + jump) (natCast_pos.mpr hpos)
  have hnn := emod_nonneg (slot + jump) (natCast_ne_zero.mpr hpos.ne')
  have hdvd := dvd_iff_emod_eq_zero (a := (N : ℤ)) (b := slot + jump)
  rw [slotAddInt, if_pos h, tmod_eq_emod]
  dsimp only
  congr 2
  split_ifs <;> omega

lemma slotAddInt_eq_iff (jump : ℤ) :
    slotAddInt N slot jump = some ((slot + jump) % N).toNat ↔ slot + jump < 2 ^ 31 := by
  by_cases h : (slot : ℤ) + jump < 2 ^ 31
  · exact iff_of_true (slotAddInt_eq hpos h) h
  · rw [slotAddInt, if_neg h]
    exact iff_of_false nofun h

lemma slotMinus_int (jump : ℤ) :
    slotMinus N slot (.int jump) = some ((slot - jump) % N).toNat ↔ slot - jump < 2 ^ 31 := by
  rw [slotMinus, negInt]
  split
  · exact iff_of_false nofun (by omega)
  · rw [bind_some, Int.sub_eq_add_neg]
    exact slotAddInt_eq_iff hpos _

variable (hndvd : ¬(N : ℤ) ∣ 2 ^ 32)
include hndvd

lemma toNat_emod_add_ne (x : ℤ) : ((x + 2 ^ 32) % N).toNat ≠ (x % N).toNat := by
  intro heq
  have hne := natCast_ne_zero.mpr hpos.ne'
  have hx := emod_nonneg x hne
  have hx' := emod_nonneg (x + 2 ^ 32) hne
  have hsub := emod_eq_emod_iff_emod_sub_eq_zero.mp (show (x + 2 ^ 32) % N = x % N by omega)
  rw [add_sub_cancel_left] at hsub
  exact hndvd (dvd_of_emod_eq_zero hsub)

lemma slotPlus_unsigned {jump : ℕ} (h : slot + jump < 2 ^ 33) :
    slotPlus N slot (.unsigned jump) = some (((slot : ℤ) + jump) % N).toNat ↔ slot + jump < 2 ^ 32 := by
  have hcode : slotPlus N slot (.unsigned jump) = some ((((slot + jump) % 2 ^ 32 : ℕ) : ℤ) % N).toNat := by
    rw [← natCast_emod, toNat_natCast, slotPlus]
  rw [hcode, some.injEq]
  by_cases hlt : slot + jump < 2 ^ 32
  · rw [Nat.mod_eq_of_lt hlt, Nat.cast_add]
    exact iff_of_true rfl hlt
  · refine iff_of_false (fun heq => ?_) hlt
    have hne := toNat_emod_add_ne hpos hndvd ((slot + jump) % 2 ^ 32 : ℕ)
    rw [show (((slot + jump) % 2 ^ 32 : ℕ) : ℤ) + 2 ^ 32 = slot + jump by omega] at hne
    exact hne heq.symm

lemma slotMinus_unsigned {jump : ℕ} (hjump : jump < 2 ^ 32) (hslot : slot < 2 ^ 31) :
    slotMinus N slot (.unsigned jump) = some (((slot : ℤ) - jump) % N).toNat ↔ jump < 2 ^ 31 := by
  have hbmod : (jump : ℤ).bmod (2 ^ 32) = if jump < 2 ^ 31 then (jump : ℤ) else jump - 2 ^ 32 := by
    rw [bmod_def]
    split_ifs <;> omega
  rw [slotMinus, hbmod]
  by_cases hlt : jump < 2 ^ 31
  · rw [if_pos hlt, negInt, if_neg (by omega), bind_some, slotAddInt_eq hpos (by omega), ← Int.sub_eq_add_neg]
    exact iff_of_true rfl hlt
  · refine iff_of_false (fun heq => ?_) hlt
    rw [if_neg hlt, negInt] at heq
    split at heq
    · cases heq
    · have hne := toNat_emod_add_ne hpos hndvd ((slot : ℤ) - jump)
      rw [show (slot : ℤ) - jump + 2 ^ 32 = slot + -(jump - 2 ^ 32) by omega] at hne
      by_cases hsum : (slot : ℤ) + -(jump - 2 ^ 32) < 2 ^ 31
      · rw [bind_some, slotAddInt_eq hpos hsum, some.injEq] at heq
        exact hne heq
      · rw [bind_some, slotAddInt, if_neg hsum] at heq
        cases heq

lemma plus_and_minus_iff (hslot : slot < 2 ^ 30) {k : SlotJump} (hk : k.Representable) :
    (slotPlus N slot k = some ((slot + k.val) % N).toNat ∧
      slotMinus N slot k = some ((slot - k.val) % N).toNat) ↔ k.Fits slot := by
  cases k with
  | int jump => exact and_congr (slotAddInt_eq_iff hpos _) (slotMinus_int hpos _)
  | unsigned jump =>
    have hlt : jump < 2 ^ 32 := hk
    refine (and_congr (slotPlus_unsigned hpos hndvd (by omega)) (slotMinus_unsigned hpos hndvd hlt (by omega))).trans ?_
    show _ ↔ jump < 2 ^ 31
    omega

end Jumps

/-! ### Differences -/

section Differences

variable (heven : 2 ∣ N) (hslot : slot < N)
include heven hslot

lemma slotSub_near {k : ℤ} (hlow : -(N : ℤ) ≤ 2 * k) (hhigh : 2 * k < N) :
    slotSub N ((slot + k) % N).toNat slot = k := by
  rw [emod_of_near (by omega) (by omega), slotSub]
  split_ifs <;> omega

lemma slotAddInt_sub (hmax : N < 2 ^ 30) (hother : other < N) :
    slotAddInt N slot (slotSub N other slot) = some other := by
  have hd : slotSub N other slot + slot = other ∨
      slotSub N other slot + slot = other + N ∨
      slotSub N other slot + slot = other - N := by
    rw [slotSub]
    split_ifs <;> omega
  rw [slotAddInt_eq (by omega) (by omega), emod_of_near (by omega) (by omega)]
  congr 1
  split_ifs <;> omega

lemma slotLt_iff_sub (hother : other < N) :
    (slotLt N slot other = true ↔ slotSub N slot other < 0) ↔
      2 * slot ≠ 2 * other + N ∧ 2 * other ≠ 2 * slot + N := by
  rw [slotLt, slotSub]
  split_ifs <;> simp only [decide_eq_true_eq] <;> omega

end Differences

lemma nofSlots_facts : ∀ μ < 5, 2 ∣ nofSlotsPerHyperSystemFrame μ ∧ 0 < nofSlotsPerHyperSystemFrame μ ∧
    nofSlotsPerHyperSystemFrame μ < 2 ^ 30 ∧ ¬(nofSlotsPerHyperSystemFrame μ : ℤ) ∣ 2 ^ 32 := by
  decide

/-- The operators are exact for a jump that fits and two slots that are not half a hyper system frame apart, and only
for these. -/
theorem slotArithmetic_iff {μ slot other : ℕ} {k : SlotJump} (hμ : μ < 5) (hslot : slot < nofSlotsPerHyperSystemFrame μ)
    (hother : other < nofSlotsPerHyperSystemFrame μ) (hk : k.Representable) :
    SlotArithmetic (nofSlotsPerHyperSystemFrame μ) slot other k ↔
      k.Fits slot ∧ 2 * slot ≠ 2 * other + nofSlotsPerHyperSystemFrame μ ∧
        2 * other ≠ 2 * slot + nofSlotsPerHyperSystemFrame μ := by
  obtain ⟨heven, hpos, hmax, hndvd⟩ := nofSlots_facts μ hμ
  have hfit := plus_and_minus_iff hpos hndvd (hslot.trans hmax) hk
  have hlt := slotLt_iff_sub heven hslot hother
  constructor
  · intro h
    exact ⟨hfit.mp ⟨h.plus, h.minus⟩, hlt.mp h.lt_iff⟩
  · rintro ⟨hk', hne⟩
    obtain ⟨hplus, hminus⟩ := hfit.mpr hk'
    refine ⟨hplus, hminus, fun hlow hhigh => ?_, slotAddInt_sub heven hslot hmax hother, hlt.mpr hne, ?_⟩
    · rw [hplus, map_some, slotSub_near heven hslot hlow hhigh]
    · rw [Bool.not_eq_true', ← Bool.not_eq_true, hlt.mpr hne, not_lt]

theorem slotArithmetic_small : SlotArithmetic (nofSlotsPerHyperSystemFrame 1) 20479 0 (.unsigned 3) :=
  (slotArithmetic_iff (k := .unsigned 3) (by decide) (by decide) (by decide) (show 3 < 2 ^ 32 by decide)).mpr
    ⟨show 3 < 2 ^ 31 by decide, by decide, by decide⟩

/-- A wrapped sum, an overflow, and two slots half a hyper system frame apart -/
theorem slotArithmetic_wraps :
    (slotPlus 10240 1 (.unsigned (2 ^ 32 - 1)) = some 0 ∧ (1 + (2 ^ 32 - 1)) % 10240 = 4096) ∧
      slotPlus 10240 1 (.int (2 ^ 31 - 1)) = none ∧
      slotSub 10240 0 5120 = -5120 ∧ slotLt 10240 0 5120 = false := by
  decide

end SrsRan.Support
