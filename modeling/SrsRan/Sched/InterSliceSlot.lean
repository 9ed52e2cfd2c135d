import SrsRan.Lib.Lists
import SrsRan.Sched.InterSliceBudget
import Mathlib.Data.List.Sigma

/-!
# A slot of the inter-slice scheduler

`slot_indication` applies the budgets received from EdgeRIC, clears the RB counters of the past, and queues the
slices.  The queue it leaves satisfies `Queued`, so the results of a slot hold for all runs from it
(`slot_budgets`).
-/

namespace SrsRan.Sched

open Support Lib.Lists Lib.Run Lib.PrioQueue List Option

/-- The limits of the slice are in order. -/
def SlicePolicy.Ordered (p : SlicePolicy) : Prop := p.minPrb ≤ p.maxPrb

namespace InterSlice

variable {cell : SliceCell} {s : InterSlice}

/-! ### The slices -/

variable {budgets : ℕ → Option SliceBudget} {id slotTx : ℕ} {r : RanSlice}

lemma applyBudgets_budget {slices : List RanSlice} {b : SliceBudget} (hb : budgets id = some b)
    (hr : (applyBudgets cell budgets slices)[id]? = some r) :
    r.cfg.minPrb ≤ r.cfg.maxPrb ∧ r.cfg.maxPrb ≤ cell.cellMaxRbs ∧ r.cfg.priority ≤ SlicePolicy.maxPriority := by
  rw [applyBudgets, getElem?_mapIdx] at hr
  obtain ⟨r', -, rfl⟩ := map_eq_some_iff.mp hr
  simp only [hb]
  refine ⟨?_, ?_, ?_⟩
  · omega
  · exact Nat.min_le_right _ _
  · exact Nat.min_le_right _ _

lemma applyBudgets_ordered {slices : List RanSlice}
    (h : ∀ r ∈ slices, r.cfg.Ordered) : ∀ r ∈ applyBudgets cell budgets slices, r.cfg.Ordered := by
  intro r hr
  obtain ⟨id, hid⟩ := mem_iff_getElem?.mp hr
  cases hb : budgets id with
  | some b => exact (applyBudgets_budget hb hid).1
  | none =>
    rw [applyBudgets, getElem?_mapIdx] at hid
    obtain ⟨r', hr', rfl⟩ := map_eq_some_iff.mp hid
    simp only [hb]
    exact h r' (mem_of_getElem? hr')

lemma map_fixed_advance (cell : SliceCell) (current slot : ℕ) (slices : List RanSlice) :
    (advance cell current slot slices).map RanSlice.fixed = slices.map RanSlice.fixed := by
  unfold advance
  -- every slot indication keeps the configuration and the activity
  induction List.range ((slot + cell.nofSlots - current) % cell.nofSlots) generalizing slices with
  | nil => rfl
  | cons i is ih =>
    rw [foldl_cons, ih, List.map_map]
    rfl

lemma map_fixed_slotIndication (cell : SliceCell) (budgets : ℕ → Option SliceBudget) (en : Bool)
    (full : ℕ → Bool) (slotTx : ℕ) (s : InterSlice) :
    (slotIndication cell budgets en full slotTx s).slices.map RanSlice.fixed =
      (applyBudgets cell budgets s.slices).map RanSlice.fixed := by
  unfold slotIndication
  simp only
  split <;> exact map_fixed_advance cell _ _ _

lemma cfg_slotIndication {en : Bool} {full : ℕ → Bool}
    (hr : (slotIndication cell budgets en full slotTx s).slices[id]? = some r) :
    ∃ r', (applyBudgets cell budgets s.slices)[id]? = some r' ∧ r'.cfg = r.cfg := by
  have hmap := congrArg (·[id]?) (map_fixed_slotIndication cell budgets en full slotTx s)
  simp only [getElem?_map, hr, map_some] at hmap
  obtain ⟨r', h1, h2⟩ := map_eq_some_iff.mp hmap.symm
  exact ⟨r', h1, congrArg Prod.fst h2⟩

/-! ### The queues -/

lemma context?_eq_some {dl : Bool} {pdcch slot : ℕ} {x : SliceContext}
    (h : context? cell dl pdcch slot id r = some x) :
    x.id = id ∧ x.slotTx = slot ∧ r.active = true ∧ r.rbCount cell dl slot < r.cfg.maxPrb ∧
      x.rbLims.start = r.rbCount cell dl slot ∧
      x.rbLims.stop = if r.rbCount cell dl slot ≤ r.cfg.minPrb ∧ 0 < r.cfg.minPrb then r.cfg.minPrb else r.cfg.maxPrb := by
  unfold context? at h
  simp only at h
  split at h
  next hlt =>
    have hact : r.active = true := by
      by_contra hne
      rw [getPrio_eq_zero_of_inactive (by simpa using hne)] at h
      simp at h
    split at h
    · cases h
    · cases h
      refine ⟨rfl, rfl, hact, hlt, ?_⟩
      dsimp only
      split <;> exact ⟨rfl, rfl⟩
  · cases h

lemma mem_queue_slotIndication {en : Bool} {full : ℕ → Bool} {dl : Bool} {x : SliceContext}
    (hx : x ∈ (slotIndication cell budgets en full slotTx s).queue dl) :
    ∃ r slot, (slotIndication cell budgets en full slotTx s).slices[x.id]? = some r ∧
      context? cell dl slotTx slot x.id r = some x ∧
      if dl then slot = slotTx else ∃ td ∈ cell.puschTd slotTx, slot = cell.plus slotTx td.2 := by
  unfold slotIndication at hx ⊢
  simp only at hx ⊢
  split at hx
  next hdl =>
    simp only [hdl, if_true]
    cases dl with
    | true =>
      simp only [queue, if_true] at hx
      split at hx
      · obtain ⟨y, hy, hc⟩ := mem_filterMap.mp hx
        have hid := (context?_eq_some hc).1
        rw [mem_zipIdx_iff_getElem?] at hy
        rw [hid]
        exact ⟨y.1, slotTx, hy, hc, rfl⟩
      · cases hx
    | false =>
      simp only [queue, Bool.false_eq_true, if_false] at hx
      obtain ⟨y, hy, hc⟩ := mem_flatMap.mp hx
      obtain ⟨td, htd, hc⟩ := mem_filterMap.mp hc
      have hid := (context?_eq_some hc).1
      rw [mem_zipIdx_iff_getElem?] at hy
      rw [hid]
      exact ⟨y.1, _, hy, hc, td, (mem_filter.mp htd).1, rfl⟩
  · cases dl <;> cases hx

lemma delay_eq_of_sameCounter {a b : ℕ × ℕ} (ha : a ∈ cell.puschTd slotTx) (hb : b ∈ cell.puschTd slotTx)
    (h : cell.plus slotTx a.2 % cell.ringSize = cell.plus slotTx b.2 % cell.ringSize) : a.2 = b.2 := by
  have hk : ∀ c ∈ cell.puschTd slotTx, ∃ k < cell.ringSize, c.2 = k + cell.ntnCsKoffset := by
    intro c hc
    obtain ⟨td, -, hc⟩ := mem_filterMap.mp hc
    obtain ⟨k, hk, rfl⟩ := map_eq_some_iff.mp hc
    exact ⟨k, cell.k2_lt k (mem_of_getElem? hk), rfl⟩
  obtain ⟨k, hk1, hk2⟩ := hk a ha
  obtain ⟨l, hl1, hl2⟩ := hk b hb
  simp only [SliceCell.plus, Nat.mod_mod_of_dvd _ cell.ringSize_dvd, hk2, hl2] at h
  have hmod : k ≡ l [MOD cell.ringSize] := by
    have h' : slotTx + (k + cell.ntnCsKoffset) ≡ slotTx + (l + cell.ntnCsKoffset) [MOD cell.ringSize] := h
    exact Nat.ModEq.add_right_cancel' _ (Nat.ModEq.add_left_cancel' _ h')
  have heq : k = l := by
    rw [Nat.ModEq, Nat.mod_eq_of_lt hk1, Nat.mod_eq_of_lt hl1] at hmod
    exact hmod
  rw [hk2, hl2, heq]

/-- No two time-domain resources of the slot have the same delay. -/
def DistinctDelays (cell : SliceCell) (slotTx : ℕ) : Prop := ((cell.puschTd slotTx).map Prod.snd).Nodup

/-- No queued slice has exactly its minimum of RBs. -/
def NotAtMin (cell : SliceCell) (s : InterSlice) : Prop :=
  ∀ dl, ∀ x ∈ s.queue dl, ∀ r ∈ s.slices[x.id]?, ¬ (0 < r.cfg.minPrb ∧ r.rbCount cell dl x.slotTx = r.cfg.minPrb)

lemma keys_slotIndication (cell : SliceCell) (budgets : ℕ → Option SliceBudget) (en : Bool)
    (full : ℕ → Bool) (hk : DistinctDelays cell slotTx) (s : InterSlice) (dl : Bool) :
    (((slotIndication cell budgets en full slotTx s).queue dl).map SliceContext.key).Nodup := by
  -- the slices of two entries differ, or the delays of their resources
  have hids : ∀ l : List RanSlice, l.zipIdx.Pairwise fun a b => a.2 ≠ b.2 := fun l =>
    pairwise_map.mp (nodup_zipIdx_map_snd l)
  unfold slotIndication
  simp only
  split
  · cases dl with
    | true =>
      simp only [queue, if_true]
      split
      · refine pairwise_map.mpr (pairwise_filterMap.mpr ((hids _).imp ?_))
        intro a b hne x hx y hy heq
        have h1 := (context?_eq_some hx).1
        have h2 := (context?_eq_some hy).1
        have h3 : x.id = y.id := congrArg Prod.fst heq
        omega
      · exact nodup_nil
    | false =>
      simp only [queue, Bool.false_eq_true, if_false]
      refine pairwise_map.mpr (pairwise_flatMap.mpr ⟨?_, (hids _).imp ?_⟩)
      · intro a ha
        have hsub : ((cell.puschTd slotTx).filter fun td => !full td.1).Sublist (cell.puschTd slotTx) := filter_sublist
        have hpair : ((cell.puschTd slotTx).filter fun td => !full td.1).Pairwise fun a b => a.2 ≠ b.2 :=
          (pairwise_map.mp hk).sublist hsub
        refine pairwise_filterMap.mpr (hpair.imp_of_mem ?_)
        intro c d hc hd hne x hx y hy heq
        have h1 := (context?_eq_some hx).2.1
        have h2 := (context?_eq_some hy).2.1
        have h3 : x.slotTx = y.slotTx := congrArg Prod.snd heq
        refine hne (delay_eq_of_sameCounter (hsub.mem hc) (hsub.mem hd) ?_)
        rw [← h1, ← h2, h3]
      · intro a b hne x hx y hy heq
        obtain ⟨c, -, hc⟩ := mem_filterMap.mp hx
        obtain ⟨d, -, hd⟩ := mem_filterMap.mp hy
        have h1 := (context?_eq_some hc).1
        have h2 := (context?_eq_some hd).1
        have h3 : x.id = y.id := congrArg Prod.fst heq
        omega
  · cases dl <;> exact nodup_nil

/-- **The slot indication.** -/
theorem queued_slotIndication (budgets : ℕ → Option SliceBudget) (en : Bool) (full : ℕ → Bool)
    (hcfg : ∀ r ∈ s.slices, r.cfg.Ordered) (hk : DistinctDelays cell slotTx)
    (hmin : NotAtMin cell (slotIndication cell budgets en full slotTx s)) :
    Queued cell (slotIndication cell budgets en full slotTx s) where
  keys := keys_slotIndication cell budgets en full hk s
  apart dl x hx y hy _ hsame := by
    obtain ⟨rx, sx, -, hcx, hdx⟩ := mem_queue_slotIndication hx
    obtain ⟨ry, sy, -, hcy, hdy⟩ := mem_queue_slotIndication hy
    have ex := (context?_eq_some hcx).2.1
    have ey := (context?_eq_some hcy).2.1
    rw [ex, ey] at hsame ⊢
    cases dl with
    | true =>
      have hdx' : sx = slotTx := hdx
      have hdy' : sy = slotTx := hdy
      rw [hdx', hdy']
    | false =>
      obtain ⟨a, ha, rfl⟩ := hdx
      obtain ⟨b, hb, rfl⟩ := hdy
      obtain h | hsame := hsame
      · cases h
      · rw [delay_eq_of_sameCounter ha hb hsame]
  entry dl x hx := by
    obtain ⟨r, slot, hr, hc, -⟩ := mem_queue_slotIndication hx
    obtain ⟨-, -, hact, hlt, -, hstop⟩ := context?_eq_some hc
    obtain ⟨r', hr', hcfg'⟩ := cfg_slotIndication hr
    have hord : r.cfg.minPrb ≤ r.cfg.maxPrb := by
      rw [← hcfg']
      exact applyBudgets_ordered hcfg r' (mem_of_getElem? hr')
    refine ⟨r, hr, hact, ?_⟩
    split at hstop
    next hle =>
      obtain heq | hlt' := Nat.eq_or_lt_of_le hord
      · exact .inl (hstop.trans heq)
      · exact .inr ⟨hstop, hle.2, hlt'⟩
    · exact .inl hstop
  fresh dl x hx := by
    obtain ⟨r, slot, hr, hc, -⟩ := mem_queue_slotIndication hx
    obtain ⟨-, hslot, -, hlt, hstart, hstop⟩ := context?_eq_some hc
    have hne := hmin dl x hx r hr
    rw [hslot] at hne
    rw [rbCount, hr, hslot]
    refine ⟨hstart, ?_⟩
    rw [hstart, hstop]
    split
    next hle => exact Nat.lt_of_le_of_ne hle.1 fun heq => hne ⟨hle.2, heq⟩
    · exact hlt

end InterSlice

namespace SliceRun

variable {cell : SliceCell}

lemma RunInv.length_returned_le {s : InterSlice} {r : SliceRun} (h : RunInv cell s r) (dl : Bool) :
    (r.returned.filter fun x => x.1.dl = dl).length ≤ 2 * (s.queue dl).length := by
  have hle := length_le_of_countP_le (fun x : RanSliceCandidate × ℕ => x.1.key) 2 ((s.queue dl).map SliceContext.key)
    (r.returned.filter fun x => x.1.dl = dl)
  rw [length_map] at hle
  apply hle
  · intro x hx
    obtain ⟨h1, h2⟩ := mem_filter.mp hx
    have h3 := h.returned x h1
    rw [of_decide_eq_true h2] at h3
    exact h3
  · intro k
    rw [countP_filter]
    refine le_trans (le_of_eq ?_) (h.twice dl k)
    rw [offers]
    congr 1
    funext x
    simp [Bool.and_comm]

instance (r : SliceRun) (a : SliceAction) : Decidable (Within cell r a) := by
  cases a <;> unfold Within <;> infer_instance

/-- **A slot of the inter-slice scheduler**, whatever budgets have been received, while the grants of a candidate total
at most its remaining RBs. -/
theorem slot_budgets (cell : SliceCell) (s : InterSlice) (budgets : ℕ → Option SliceBudget) (pdschEnabled : Bool)
    (full : ℕ → Bool) (slotTx : ℕ) (hcfg : ∀ r ∈ s.slices, r.cfg.Ordered)
    (hk : InterSlice.DistinctDelays cell slotTx)
    (hmin : InterSlice.NotAtMin cell (s.slotIndication cell budgets pdschEnabled full slotTx)) (r : SliceRun)
    (hr : Reach (step cell) (Within cell) (start (s.slotIndication cell budgets pdschEnabled full slotTx)) r) :
    (∀ dl id slot x, r.sched.slices[id]? = some x → x.rbCount cell dl slot ≤
        max ((s.slotIndication cell budgets pdschEnabled full slotTx).rbCount cell dl id slot) x.cfg.maxPrb) ∧
      ((∀ dl k, r.offers dl k ≤ 2) ∧ ∀ dl, (r.returned.filter fun x => x.1.dl = dl).length ≤
        2 * ((s.slotIndication cell budgets pdschEnabled full slotTx).queue dl).length) ∧
      (∀ dl ∈ r.ended, ∀ x ∈ (s.slotIndication cell budgets pdschEnabled full slotTx).queue dl,
        ∃ y ∈ r.returned, y.1.dl = dl ∧ y.1.key = x.key ∧ 0 < y.2) ∧
      ∀ dl tb, ∃ r', step cell r (.next dl tb) = .ok r' := by
  have hq := InterSlice.queued_slotIndication budgets pdschEnabled full hcfg hk hmin
  have hinv : RunInv cell (s.slotIndication cell budgets pdschEnabled full slotTx) r :=
    hr.invariant (RunInv.start hq) fun _ _ _ h ha hstep => h.step hq ha hstep
  refine ⟨hinv.bound, ⟨hinv.twice, hinv.length_returned_le⟩, ?_, ?_⟩
  · intro dl hd x hx
    have hnil := hinv.ended dl hd
    obtain hpos | ⟨y, hy, -⟩ := hinv.served dl x.key (mem_map_of_mem hx)
    · obtain ⟨y, hy, hkey⟩ := countP_pos_iff.mp hpos
      obtain ⟨h1, h2⟩ := of_decide_eq_true hkey
      exact ⟨y, hy, h1, h2, hinv.positive y hy⟩
    · rw [hnil] at hy
      cases hy
  · intro dl tb
    obtain ⟨r', h1, -⟩ := hinv.next dl tb
    exact ⟨r', h1⟩

lemma exampleRing_pos : 0 < 20 := by decide

def exampleCell : SliceCell where
  cellMaxRbs := 10
  ntnCsKoffset := 0
  k2 := [1, 2]
  validPuschTdListPerSlot := [[0], [1]]
  ringSize := 20
  nofSlots := 10240
  isDlEnabled _ := true
  avgUpdate avg _ := avg
  avgRound avg := avg
  ringSize_pos := exampleRing_pos
  ringSize_dvd := by decide
  k2_lt := by decide

def exampleSlice (minPrb maxPrb : ℕ) : RanSlice where
  cfg := { minPrb := minPrb, maxPrb := maxPrb, priority := 1 }
  active := true
  pdschRbCount := 0
  puschRbCountPerSlot _ := 0
  lastPdschAllocSlot := none
  lastPuschAllocSlot := none
  avgPdschRbsPerSlot := 0
  avgPuschRbsPerSlot := 0

def exampleSlices (slices : List RanSlice) : InterSlice where
  currentSlot := none
  slices := slices
  dlPrioQueue := []
  ulPrioQueue := []

def exampleSlot : InterSlice :=
  (exampleSlices [exampleSlice 2 4]).slotIndication exampleCell (fun _ => none) true (fun _ => false) 1

def firstIn : TieBreak SliceContext.prio := TieBreak.first SliceContext.prio

/-- The first slot of the example cell. -/
theorem slot_budgets_first_slot :
    ∃ r, Reach (step exampleCell) (Within exampleCell) (start exampleSlot) r ∧ r.ended = [false, true] ∧
      (∀ dl k, r.offers dl k ≤ 2) ∧
      ∀ dl ∈ r.ended, ∀ x ∈ exampleSlot.queue dl, ∃ y ∈ r.returned, y.1.dl = dl ∧ y.1.key = x.key ∧ 0 < y.2 := by
  obtain ⟨r, hr, hended⟩ : ∃ r, Reach (step exampleCell) (Within exampleCell) (start exampleSlot) r ∧
      r.ended = [false, true] :=
    Reach.exists_run [.next true firstIn, .grant 3, .next true firstIn, .next false firstIn, .grant 2,
      .next false firstIn] (by decide +kernel)
  have hcfg : ∀ r ∈ (exampleSlices [exampleSlice 2 4]).slices, r.cfg.Ordered := by
    intro r hr
    rw [mem_singleton.mp hr]
    show 2 ≤ 4
    decide
  obtain ⟨-, ⟨h1, -⟩, h2, -⟩ := slot_budgets exampleCell (exampleSlices [exampleSlice 2 4]) (fun _ => none) true
    (fun _ => false) 1 hcfg (by unfold InterSlice.DistinctDelays; decide)
    (by unfold InterSlice.NotAtMin; decide) r hr
  exact ⟨r, hr, hended, h1, h2⟩

/-- The next slot can schedule the same PUSCH slot. -/
def secondSlot (r : SliceRun) : InterSlice :=
  r.sched.slotIndication exampleCell (fun _ => none) false (fun _ => false) 2

/-- Three time-domain resources with the same delay. -/
def sameDelayCell : SliceCell :=
  { exampleCell with k2 := [1, 1, 1], validPuschTdListPerSlot := [[0, 1, 2]], k2_lt := by decide }

/-- A slice with 2 RBs left is queued, but the scheduler returns `nullopt`, and one queued for three resources is
returned three times. -/
theorem slot_budgets_starved :
    (∃ r r', run (step exampleCell) (fun r a => decide (Within exampleCell r a)) (start exampleSlot)
        [.next false firstIn, .grant 2, .next false firstIn] = some r ∧
      ((secondSlot r).queue false).map SliceContext.key = [(0, 3)] ∧
      (secondSlot r).rbCount exampleCell false 0 3 = 2 ∧
      run (step exampleCell) (fun r a => decide (Within exampleCell r a)) (start (secondSlot r))
        [.next false firstIn] = some r' ∧ r'.returned = [] ∧ r'.ended = [false]) ∧
      ∃ r, run (step sameDelayCell) (fun r a => decide (Within sameDelayCell r a))
        (start ((exampleSlices [exampleSlice 0 4]).slotIndication sameDelayCell (fun _ => none) false (fun _ => false) 1))
        [.next false firstIn, .next false firstIn, .next false firstIn] = some r ∧ r.offers false (0, 2) = 3 := by
  refine ⟨⟨_, _, rfl, ?_, ?_, rfl, ?_, ?_⟩, _, rfl, ?_⟩ <;> decide

end SliceRun

end SrsRan.Sched
