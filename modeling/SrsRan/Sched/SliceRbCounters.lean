import SrsRan.Sched.InterSlice

/-!
# The UL RB counters of a slice

`ran_slice_instance` counts the RBs granted for each PUSCH slot in a ring, and clears one counter in every slot.  At any time
the ring stands for one turn from the minimum of `k2` on (`Counts`).
-/

namespace SrsRan.Sched

open Lib.Run Lib.SeqNum Support List
open Function (update update_self update_of_ne)

def schedulerMaxK2 : ℕ := 11

def powerLoop (x power : ℕ) : ℕ := if x / 2 = 0 then power else powerLoop (x / 2) (2 * power)
termination_by x
decreasing_by omega

def power2Ceil (x : ℕ) : ℕ := if x ≤ 1 then 1 else powerLoop (x - 1) 2

/-- `get_allocator_ring_size_gt_min` with its default subcarrier spacing -/
def getAllocatorRingSizeGtMin (minimumValue : ℕ) : ℕ := power2Ceil ((minimumValue + 9) / 10) * 10

/-- A cell whose rings have the size that `ran_slice_instance` gives them. -/
structure RbCell extends SliceCell where
  nofSlots_pos : 0 < nofSlots
  k2_le : ∀ k ∈ k2, k ≤ schedulerMaxK2
  ringSize_eq : ringSize = getAllocatorRingSizeGtMin (schedulerMaxK2 + ntnCsKoffset)

/-- The ring has a counter for every slot that can be granted. -/
def RbCell.Spare (cell : RbCell) : Prop :=
  ¬ (0 ∈ cell.k2 ∧ schedulerMaxK2 ∈ cell.k2 ∧ cell.ringSize = schedulerMaxK2 + cell.ntnCsKoffset)

/-- The scheduler, the number of the slot and the RBs granted, not wrapped around. -/
structure RbRun where
  slices : List RanSlice
  currentSlot : ℕ
  time : ℕ
  granted : ℕ → ℕ → ℕ

/-- The calls of the counters. -/
inductive RbAction where
  | slotIndication (slotTx : ℕ)
  | storePuschGrant (id k2 crbs : ℕ)

namespace RbRun

variable (cell : RbCell)

/-- A call, with the stored grants recorded. -/
def step (s : RbRun) : RbAction → Except Abort RbRun
  | .slotIndication slotTx =>
    .ok { s with
      slices := InterSlice.advance cell.toSliceCell s.currentSlot slotTx s.slices
      currentSlot := slotTx
      time := s.time + (slotTx + cell.nofSlots - s.currentSlot) % cell.nofSlots }
  | .storePuschGrant id k2 crbs =>
    let delay := k2 + cell.ntnCsKoffset
    .ok { s with
      slices := s.slices.modify id (·.storeGrant cell.toSliceCell false crbs (cell.plus s.currentSlot delay))
      granted := update s.granted id
        (update (s.granted id) (s.time + delay) (s.granted id (s.time + delay) + crbs)) }

/-- Slot points are in range, and grants are for a configured `k2`. -/
def Cond (_ : RbRun) : RbAction → Prop
  | .slotIndication slotTx => slotTx < cell.nofSlots
  | .storePuschGrant _ k2 _ => k2 ∈ cell.k2

def init (policies : List SlicePolicy) (slot : ℕ) : RbRun where
  slices := policies.map fun cfg =>
    { cfg := cfg, active := false, pdschRbCount := 0, puschRbCountPerSlot := fun _ => 0, lastPdschAllocSlot := none,
      lastPuschAllocSlot := none, avgPdschRbsPerSlot := 0, avgPuschRbsPerSlot := 0 }
  currentSlot := slot
  time := slot
  granted _ _ := 0

/-- What is read for the PUSCH slots in reach is what was granted. -/
def Exact (s : RbRun) : Prop :=
  ∀ id r, s.slices[id]? = some r → ∀ k ∈ cell.k2,
    r.rbCount cell.toSliceCell false (cell.plus s.currentSlot (k + cell.ntnCsKoffset)) =
      s.granted id (s.time + (k + cell.ntnCsKoffset))

/-! ### The ring -/

variable {cell}

/-- The ring stands for the slots of one turn, and no later slot has been granted. -/
def Counts (cell : RbCell) (ring granted : ℕ → ℕ) (time : ℕ) : Prop :=
  (∀ v, time + cell.minK2 ≤ v → v < time + cell.minK2 + cell.ringSize → ring (v % cell.ringSize) = granted v) ∧
  ∀ v, time + cell.minK2 + cell.ringSize ≤ v → granted v = 0

lemma add_le_powerLoop (x power : ℕ) : (x + 1) * power ≤ 2 * powerLoop x power := by
  induction x, power using powerLoop.induct with
  | case1 x power h =>
    rw [powerLoop, if_pos h]
    exact Nat.mul_le_mul_right power (by omega)
  | case2 x power h ih =>
    rw [powerLoop, if_neg h]
    calc (x + 1) * power ≤ (2 * (x / 2 + 1)) * power := Nat.mul_le_mul_right power (by omega)
      _ = (x / 2 + 1) * (2 * power) := by ring
      _ ≤ _ := ih

lemma le_getAllocatorRingSizeGtMin (n : ℕ) : n ≤ getAllocatorRingSizeGtMin n := by
  have hceil : ∀ x, x ≤ power2Ceil x := by
    intro x
    rw [power2Ceil]
    split
    · assumption
    · have := add_le_powerLoop (x - 1) 2
      omega
  have := hceil ((n + 9) / 10)
  rw [getAllocatorRingSizeGtMin]
  omega

lemma minK2_spec {k : ℕ} (hk : k ∈ cell.k2) : cell.minK2 ∈ cell.k2 ∧ cell.minK2 ≤ k := by
  cases h : cell.k2.min? with
  | none => simp [min?_eq_none_iff.mp h] at hk
  | some m =>
    obtain ⟨hm, hle⟩ := min?_eq_some_iff.mp h
    rw [SliceCell.minK2, h]
    exact ⟨hm, hle k hk⟩

lemma k2_lt_turn (hcell : cell.Spare) {k : ℕ} (hk : k ∈ cell.k2) :
    k + cell.ntnCsKoffset < cell.minK2 + cell.ringSize := by
  obtain ⟨hmem, -⟩ := minK2_spec hk
  have hle := cell.k2_le k hk
  have hring : schedulerMaxK2 + cell.ntnCsKoffset ≤ cell.ringSize := by
    rw [cell.ringSize_eq]
    exact le_getAllocatorRingSizeGtMin _
  by_contra hlt
  have hk' : k = schedulerMaxK2 := by omega
  have hmin : cell.minK2 = 0 := by omega
  exact hcell ⟨hmin ▸ hmem, hk' ▸ hk, by omega⟩

lemma plus_mod (slot n : ℕ) : cell.plus slot n % cell.ringSize = (slot + n) % cell.ringSize :=
  Nat.mod_mod_of_dvd _ cell.ringSize_dvd

lemma mod_ne {t v w : ℕ} (hv : t ≤ v ∧ v < t + cell.ringSize) (hw : t ≤ w ∧ w < t + cell.ringSize) (h : v ≠ w) :
    v % cell.ringSize ≠ w % cell.ringSize := fun heq => h (eq_of_mod_eq heq hv.1 hv.2 hw.1 hw.2)

variable {ring granted : ℕ → ℕ} {time : ℕ}

/-- **A slot.**  The counter that is cleared is that of the first slot of the turn, and becomes that of the slot behind
its end. -/
lemma Counts.tick {r : RanSlice} (h : Counts cell r.puschRbCountPerSlot granted time) {slot : ℕ}
    (hslot : slot ≡ time + 1 [MOD cell.ringSize]) :
    Counts cell (r.slotIndication cell.toSliceCell slot).puschRbCountPerSlot granted (time + 1) := by
  have hpos := cell.nofSlots_pos
  have hclear : cell.plus (cell.plus slot cell.minK2) (cell.nofSlots - 1) ≡ time + cell.minK2 [MOD cell.ringSize] := by
    calc cell.plus (cell.plus slot cell.minK2) (cell.nofSlots - 1)
      _ ≡ cell.plus slot cell.minK2 + (cell.nofSlots - 1) [MOD cell.ringSize] := plus_mod _ _
      _ ≡ slot + cell.minK2 + (cell.nofSlots - 1) [MOD cell.ringSize] := .add_right _ (plus_mod _ _)
      _ ≡ time + 1 + cell.minK2 + (cell.nofSlots - 1) [MOD cell.ringSize] := .add_right _ (.add_right _ hslot)
      _ = time + cell.minK2 + cell.nofSlots := by omega
      _ ≡ time + cell.minK2 [MOD cell.ringSize] := .add_left _ (Nat.modEq_zero_iff_dvd.mpr cell.ringSize_dvd)
  refine ⟨fun v h1 h2 => ?_, fun v hv => h.2 v (by omega)⟩
  rw [RanSlice.slotIndication]
  simp only [show _ % cell.ringSize = _ from hclear]
  by_cases hv : v = time + cell.minK2 + cell.ringSize
  · rw [hv, Nat.add_mod_right, update_self, h.2 _ le_rfl]
  · have hne : v % cell.ringSize ≠ (time + cell.minK2) % cell.ringSize :=
      mod_ne (t := time + cell.minK2) (by omega) (by have := cell.ringSize_pos; omega) (by omega)
    rw [update_of_ne hne, h.1 v (by omega) (by omega)]

lemma Counts.store (h : Counts cell ring granted time) {v : ℕ} (h1 : time + cell.minK2 ≤ v)
    (h2 : v < time + cell.minK2 + cell.ringSize) (crbs : ℕ) :
    Counts cell (update ring (v % cell.ringSize) (ring (v % cell.ringSize) + crbs))
      (update granted v (granted v + crbs)) time := by
  refine ⟨fun w hw1 hw2 => ?_, fun w hw => ?_⟩
  · by_cases hw : w = v
    · rw [hw, update_self, update_self, h.1 v h1 h2]
    · rw [update_of_ne (mod_ne ⟨hw1, hw2⟩ ⟨h1, h2⟩ hw), update_of_ne hw, h.1 w hw1 hw2]
  · rw [update_of_ne (by omega), h.2 w hw]

/-! ### Runs -/

/-- What all reachable states satisfy. -/
structure Inv (cell : RbCell) (s : RbRun) : Prop where
  current_lt : s.currentSlot < cell.nofSlots
  current_mod : s.currentSlot ≡ s.time [MOD cell.nofSlots]
  counts : ∀ id r, s.slices[id]? = some r → Counts cell r.puschRbCountPerSlot (s.granted id) s.time

variable {s s' : RbRun}

lemma Inv.index (h : Inv cell s) (n : ℕ) : cell.plus s.currentSlot n % cell.ringSize = (s.time + n) % cell.ringSize :=
  (plus_mod _ _).trans ((h.current_mod.of_dvd cell.ringSize_dvd).add_right n)

lemma Inv.replay (h : Inv cell s) (n : ℕ) :
    ∀ id r, ((List.range n).foldl (fun rs i => rs.map (·.slotIndication cell.toSliceCell (cell.plus s.currentSlot (i + 1))))
      s.slices)[id]? = some r → Counts cell r.puschRbCountPerSlot (s.granted id) (s.time + n) := by
  induction n with
  | zero => exact h.counts
  | succ n ih =>
    intro id r hr
    rw [List.range_succ, foldl_append, foldl_cons, foldl_nil, getElem?_map] at hr
    obtain ⟨r0, hr0, rfl⟩ := Option.map_eq_some_iff.mp hr
    exact (ih id r0 hr0).tick (h.index (n + 1))

lemma Inv.step (h : Inv cell s) (hcell : cell.Spare) {a : RbAction} (ha : s.Cond cell a)
    (hs : s.step cell a = .ok s') : Inv cell s' := by
  cases a with
  | slotIndication slotTx =>
    cases hs
    have hlt := h.current_lt
    refine ⟨ha, ?_, h.replay _⟩
    calc slotTx
      _ ≡ s.currentSlot + (slotTx + cell.nofSlots - s.currentSlot) [MOD cell.nofSlots] := by
        rw [show s.currentSlot + (slotTx + cell.nofSlots - s.currentSlot) = slotTx + cell.nofSlots by omega]
        exact (Nat.add_mod_right _ _).symm
      _ ≡ s.time + (slotTx + cell.nofSlots - s.currentSlot) % cell.nofSlots [MOD cell.nofSlots] :=
        h.current_mod.add (Nat.mod_modEq _ _).symm
  | storePuschGrant id k2 crbs =>
    cases hs
    refine ⟨h.current_lt, h.current_mod, fun id' r hr => ?_⟩
    rw [getElem?_modify] at hr
    obtain ⟨r0, hr0, rfl⟩ := Option.map_eq_some_iff.mp hr
    have hcounts := h.counts id' r0 hr0
    by_cases hid : id = id'
    · subst hid
      have hle := (minK2_spec ha).2
      have hlt := k2_lt_turn hcell ha
      have hstore := hcounts.store (v := s.time + (k2 + cell.ntnCsKoffset)) (by omega) (by omega) crbs
      simpa [RanSlice.storeGrant, h.index] using hstore
    · simpa [hid, update_of_ne (Ne.symm hid)] using hcounts

/-- **The UL RB counters** are exact for the slots that can be reached, in every run, if the ring has a counter for each
of them. -/
theorem rbCounters_exact (hcell : cell.Spare) (policies : List SlicePolicy) (slot : ℕ) (hslot : slot < cell.nofSlots)
    (h : Reach (step cell) (Cond cell) (init policies slot) s) : s.Exact cell := by
  have hinv : Inv cell s := by
    refine h.invariant ⟨hslot, rfl, fun id r hr => ?_⟩ fun _ _ _ hinv ha hs => hinv.step hcell ha hs
    rw [init, getElem?_map] at hr
    obtain ⟨cfg, -, rfl⟩ := Option.map_eq_some_iff.mp hr
    exact ⟨fun _ _ _ => rfl, fun _ _ => rfl⟩
  intro id r hr k hk
  have hle := (minK2_spec hk).2
  have hlt := k2_lt_turn hcell hk
  rw [RanSlice.rbCount, if_neg Bool.false_ne_true, hinv.index]
  exact (hinv.counts id r hr).1 _ (by omega) (by omega)

def edgeCell (k2 : Fin 12) : RbCell where
  cellMaxRbs := 10
  ntnCsKoffset := 9
  k2 := [k2.val, 11]
  validPuschTdListPerSlot := [[0]]
  ringSize := 20
  nofSlots := 10240
  isDlEnabled _ := true
  avgUpdate avg _ := avg
  avgRound avg := avg
  ringSize_pos := Nat.zero_lt_succ 19
  ringSize_dvd := ⟨512, rfl⟩
  k2_lt := by simp; omega
  nofSlots_pos := by decide
  k2_le := by simp [schedulerMaxK2]; omega
  ringSize_eq := by simp [getAllocatorRingSizeGtMin, power2Ceil, powerLoop, schedulerMaxK2]

def edgeEnd (cell : RbCell) (slot : ℕ) : RbRun :=
  (run (step cell) (fun _ _ => true) (init [⟨0, 10, 1⟩] 10239)
    [.slotIndication 0, .storePuschGrant 0 11 5, .slotIndication slot]).getD (init [] 0)

lemma reach_edgeEnd (k2 : Fin 12) {slot : ℕ} (hslot : slot < 10240) :
    Reach (step (edgeCell k2)) (Cond (edgeCell k2)) (init [⟨0, 10, 1⟩] 10239) (edgeEnd (edgeCell k2) slot) :=
  .step (a := .slotIndication slot) (.step (a := .storePuschGrant 0 11 5)
    (.step (a := .slotIndication 0) .init (show 0 < 10240 by decide) rfl) (show 11 ∈ [k2.val, 11] by simp) rfl) hslot rfl

theorem rbCounters_exact_spare :
    (edgeEnd (edgeCell 1) 10).granted 0 10260 = 5 ∧ (edgeEnd (edgeCell 1) 10).Exact (edgeCell 1) :=
  ⟨by decide +kernel, rbCounters_exact (fun h => absurd h.1 (by decide)) [⟨0, 10, 1⟩] 10239 (by decide)
    (reach_edgeEnd 1 (by decide))⟩

/-- The counter of slot 20 is cleared in slot 1, and reads 0 in slot 11, from which `k2 = 0` reaches it. -/
theorem rbCounter_cleared_early :
    Reach (step (edgeCell 0)) (Cond (edgeCell 0)) (init [⟨0, 10, 1⟩] 10239) (edgeEnd (edgeCell 0) 11) ∧
      (edgeEnd (edgeCell 0) 11).granted 0 10260 = 5 ∧ ¬ (edgeEnd (edgeCell 0) 11).Exact (edgeCell 0) := by
  refine ⟨reach_edgeEnd 0 (by decide), by decide +kernel, fun h => ?_⟩
  exact absurd (h 0 _ rfl 0 (by decide)) (by decide +kernel)

end RbRun

end SrsRan.Sched
