import SrsRan.Sched.InterSlice

/-!
# The priority of a slice

`get_prio` packs five fields and a set bit into a word of 32 bits, so that comparing the words compares the fields from the
first one on.  The fields are saturated.
-/

namespace SrsRan.Sched

open Support (slotSub)

/-- The distance, whether RBs are missing, the priority, the time since the last allocation, and the average. -/
structure PrioKey where
  dist : ℕ
  minRb : ℕ
  priority : ℕ
  delay : ℕ
  load : ℕ
  minRb_lt : minRb < 2

/-- A slice that can be scheduled, with the arguments of `get_prio`. -/
structure PrioContext (cell : SliceCell) where
  slice : RanSlice
  dl : Bool
  pdcchSlot : ℕ
  pxschSlot : ℕ
  sliceResched : Bool
  pdcch_lt : pdcchSlot < cell.nofSlots
  pxsch_lt : pxschSlot < cell.nofSlots
  nofSlots_le : cell.nofSlots ≤ 2 ^ 31
  active : slice.active = true
  below : slice.rbCount cell dl pxschSlot < slice.cfg.maxPrb

namespace PrioKey

variable (x y : PrioKey)

def pack : ℕ :=
  2 * (128 * (256 * (256 * (2 * (127 - min x.dist 127) + x.minRb) + min x.priority 255) + min x.delay 255) +
    (127 - min x.load 127)) + 1

def compareTail : Ordering := (compare (min x.delay 255) (min y.delay 255)).then (compare (min y.load 127) (min x.load 127))

def compareRest : Ordering :=
  (compare x.minRb y.minRb).then ((compare (min x.priority 255) (min y.priority 255)).then (compareTail x y))

/-- The lexicographic comparison, by the closer slot first. -/
def compareLex : Ordering :=
  (compare y.dist x.dist).then
    ((compare x.minRb y.minRb).then ((compare x.priority y.priority).then (compareTail x y)))

/-- The word has each field in its bits. -/
structure PackedIn (prio : ℕ) : Prop where
  ne_zero : prio ≠ 0
  lt : prio < 2 ^ 32
  dist : prio / 2 ^ 25 = 127 - min x.dist 127
  minRb : prio / 2 ^ 24 % 2 = x.minRb
  priority : prio / 2 ^ 16 % 2 ^ 8 = min x.priority 255
  delay : prio / 2 ^ 8 % 2 ^ 8 = min x.delay 255
  load : prio / 2 % 2 ^ 7 = 127 - min x.load 127

/-- Where saturated fields differ, the fields that follow decide alike. -/
def Told : Prop :=
  (x.dist ≠ y.dist → 127 ≤ x.dist → 127 ≤ y.dist → compareRest x y = compare y.dist x.dist) ∧
  (x.dist = y.dist → x.minRb = y.minRb → x.priority ≠ y.priority → 255 ≤ x.priority → 255 ≤ y.priority →
    compareTail x y = compare x.priority y.priority)

end PrioKey

namespace PrioContext

variable {cell : SliceCell} (c : PrioContext cell)

def key : PrioKey where
  dist := (slotSub cell.nofSlots c.pxschSlot c.pdcchSlot % 2 ^ 32).toNat
  minRb := if !c.sliceResched ∧ 0 < c.slice.cfg.minPrb ∧ c.slice.rbCount cell c.dl c.pxschSlot < c.slice.cfg.minPrb then 1
    else 0
  priority := c.slice.cfg.priority
  delay := c.slice.nofSlotsSinceLast cell c.dl c.pxschSlot
  load := cell.avgRound (if c.dl then c.slice.avgPdschRbsPerSlot else c.slice.avgPuschRbsPerSlot)
  minRb_lt := by split <;> decide

def prio : ℕ := c.slice.getPrio cell c.dl c.pdcchSlot c.pxschSlot c.sliceResched

end PrioContext

/-! ### Packed fields -/

lemma compare_congr {a b c d : ℕ} (hlt : a < b ↔ c < d) (hgt : b < a ↔ d < c) : compare a b = compare c d := by
  rw [Nat.compare_eq_ite_lt, Nat.compare_eq_ite_lt]
  simp only [hlt, hgt]

lemma compare_append {B a b : ℕ} (ha : a < B) (hb : b < B) (p q : ℕ) :
    compare (B * p + a) (B * q + b) = (compare p q).then (compare a b) := by
  rcases h : compare p q with _ | _ | _
  · have hle : B * (p + 1) ≤ B * q := Nat.mul_le_mul_left B (Nat.compare_eq_lt.mp h)
    rw [Nat.mul_succ] at hle
    exact Nat.compare_eq_lt.mpr (by omega)
  · rw [Nat.compare_eq_eq.mp h, Ordering.eq_then]
    exact compare_congr (by omega) (by omega)
  · have hle : B * (q + 1) ≤ B * p := Nat.mul_le_mul_left B (Nat.compare_eq_gt.mp h)
    rw [Nat.mul_succ] at hle
    exact Nat.compare_eq_gt.mpr (by omega)

namespace PrioKey

variable {x y : PrioKey}

lemma compare_pack (x y : PrioKey) :
    compare x.pack y.pack = (compare (min y.dist 127) (min x.dist 127)).then (compareRest x y) := by
  have hx := x.minRb_lt
  have hy := y.minRb_lt
  rw [pack, pack, compare_append (by omega) (by omega), compare_append (by omega) (by omega),
    compare_append (by omega) (by omega), compare_append (by omega) (by omega), compare_append hx hy,
    Nat.compare_eq_eq.mpr rfl, Ordering.then_eq, compareRest, compareTail,
    show compare (127 - min x.dist 127) (127 - min y.dist 127) = compare (min y.dist 127) (min x.dist 127) from
      compare_congr (by omega) (by omega),
    show compare (127 - min x.load 127) (127 - min y.load 127) = compare (min y.load 127) (min x.load 127) from
      compare_congr (by omega) (by omega)]
  simp only [Ordering.then_assoc]

lemma compare_min_of_saturated {a b n : ℕ} (ha : n ≤ a) (hb : n ≤ b) : compare (min a n) (min b n) = .eq := by
  rw [min_eq_right ha, min_eq_right hb, Nat.compare_eq_eq.mpr rfl]

lemma compare_min_of_not {a b n : ℕ} (h : ¬ (n ≤ a ∧ n ≤ b)) : compare (min a n) (min b n) = compare a b :=
  compare_congr (by omega) (by omega)

lemma packedIn_pack (x : PrioKey) : x.PackedIn x.pack := by
  have hx := x.minRb_lt
  constructor <;> rw [pack] <;> omega

lemma then_of_ne {a b : ℕ} (h : a ≠ b) (o : Ordering) : (compare a b).then o = compare a b := by
  rcases h' : compare a b with _ | _ | _
  · rfl
  · exact absurd (Nat.compare_eq_eq.mp h') h
  · rfl

lemma compareRest_iff :
    compareRest x y = (compare x.minRb y.minRb).then ((compare x.priority y.priority).then (compareTail x y)) ↔
      (x.minRb = y.minRb → x.priority ≠ y.priority → 255 ≤ x.priority → 255 ≤ y.priority →
        compareTail x y = compare x.priority y.priority) := by
  rw [compareRest]
  by_cases hmin : x.minRb = y.minRb
  · rw [Nat.compare_eq_eq.mpr hmin, Ordering.eq_then, Ordering.eq_then]
    by_cases hsat : 255 ≤ x.priority ∧ 255 ≤ y.priority
    · rw [compare_min_of_saturated hsat.1 hsat.2, Ordering.eq_then]
      by_cases hp : x.priority = y.priority
      · simp [hp]
      · simp [hmin, hp, hsat, then_of_ne hp]
    · rw [compare_min_of_not hsat]
      exact iff_of_true rfl fun _ _ h1 h2 => absurd ⟨h1, h2⟩ hsat
  · rw [then_of_ne hmin, then_of_ne hmin]
    exact iff_of_true rfl fun h => absurd h hmin

lemma compare_pack_iff : compare x.pack y.pack = compareLex x y ↔ Told x y := by
  rw [compare_pack, compareLex, Told]
  by_cases hd : x.dist = y.dist
  · rw [hd, Nat.compare_eq_eq.mpr rfl, Nat.compare_eq_eq.mpr rfl, Ordering.eq_then, Ordering.eq_then, compareRest_iff]
    simp
  · rw [then_of_ne (Ne.symm hd)]
    by_cases hsat : 127 ≤ x.dist ∧ 127 ≤ y.dist
    · rw [compare_min_of_saturated hsat.2 hsat.1, Ordering.eq_then]
      simp [hd, hsat]
    · have hmin : min y.dist 127 ≠ min x.dist 127 := by omega
      rw [then_of_ne hmin, compare_min_of_not (fun h => hsat h.symm)]
      exact iff_of_true rfl ⟨fun _ h1 h2 => absurd ⟨h1, h2⟩ hsat, fun h => absurd h hd⟩

end PrioKey

namespace PrioContext

variable {cell : SliceCell}

lemma prio_eq (c : PrioContext cell) : c.prio = c.key.pack := by
  have hdist : (127 - if slotSub cell.nofSlots c.pxschSlot c.pdcchSlot < 0 then 127
      else min (slotSub cell.nofSlots c.pxschSlot c.pdcchSlot).toNat 127) = 127 - min c.key.dist 127 := by
    have h1 := c.pdcch_lt
    have h2 := c.pxsch_lt
    have h3 := c.nofSlots_le
    have hlo : -(2 ^ 31) ≤ slotSub cell.nofSlots c.pxschSlot c.pdcchSlot := by rw [slotSub]; grind
    have hhi : slotSub cell.nofSlots c.pxschSlot c.pdcchSlot < 2 ^ 31 := by rw [slotSub]; grind
    have hkey : c.key.dist = (slotSub cell.nofSlots c.pxschSlot c.pdcchSlot % 2 ^ 32).toNat := rfl
    rw [hkey]
    split <;> omega
  rw [prio, RanSlice.getPrio, if_neg (by simp [c.active, c.below]), PrioKey.pack]
  simp only [hdist]
  rfl

/-- **The priority of a slice** compares as its fields do iff saturation hides no difference that what follows does not
tell. -/
theorem prio_compare_iff (x y : PrioContext cell) :
    x.key.PackedIn x.prio ∧ (compare x.prio y.prio = x.key.compareLex y.key ↔ x.key.Told y.key) := by
  rw [x.prio_eq, y.prio_eq]
  exact ⟨x.key.packedIn_pack, PrioKey.compare_pack_iff⟩

def ntnCell : SliceCell where
  cellMaxRbs := 10
  ntnCsKoffset := 512
  k2 := [1, 3]
  validPuschTdListPerSlot := [[0, 1]]
  ringSize := 640
  nofSlots := 20480
  isDlEnabled _ := true
  avgUpdate avg _ := avg
  avgRound avg := avg
  ringSize_pos := by decide
  ringSize_dvd := by decide
  k2_lt := by decide

def ntnSlice (priority : ℕ) : RanSlice where
  cfg := { minPrb := 0, maxPrb := 10, priority := priority }
  active := true
  pdschRbCount := 0
  puschRbCountPerSlot _ := 0
  lastPdschAllocSlot := none
  lastPuschAllocSlot := none
  avgPdschRbsPerSlot := 0
  avgPuschRbsPerSlot := 0

def ntnContext (priority k2 : ℕ) (h : 512 + k2 < ntnCell.nofSlots) : PrioContext ntnCell where
  slice := ntnSlice priority
  dl := false
  pdcchSlot := 0
  pxschSlot := 512 + k2
  sliceResched := false
  pdcch_lt := by decide
  pxsch_lt := h
  nofSlots_le := by decide
  active := rfl
  below := by simp [ntnSlice, RanSlice.rbCount]

/-- The slice with priority 1 is before the one with priority 0 although its PUSCH slot is two slots later. -/
theorem prio_farther_first :
    (ntnContext 1 3 (by decide)).key.dist = 515 ∧ (ntnContext 0 1 (by decide)).key.dist = 513 ∧
      compare (ntnContext 1 3 (by decide)).prio (ntnContext 0 1 (by decide)).prio = .gt ∧
      (ntnContext 1 3 (by decide)).key.compareLex (ntnContext 0 1 (by decide)).key = .lt := by
  decide +kernel

end PrioContext

end SrsRan.Sched
