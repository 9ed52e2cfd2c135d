import SrsRan.Sched.InterSliceNext

/-!
# Slice budgets

Between two slot indications, whatever is granted within the remaining RBs of the candidates: no slice exceeds its maximum or
is offered more than twice for a PxSCH slot, and every queued slice is offered.
-/

namespace SrsRan.Sched

open Support Lib.Run Lib.PrioQueue List
open Prod (fst snd)
open SliceContext (prio)

namespace InterSlice

variable {cell : SliceCell} {s : InterSlice}

/-- The two slots share an RB counter. -/
def SameCounter (cell : SliceCell) (dl : Bool) (a b : ℕ) : Prop := dl = true ∨ a % cell.ringSize = b % cell.ringSize

instance (cell : SliceCell) (dl : Bool) (a b : ℕ) : Decidable (SameCounter cell dl a b) := by
  unfold SameCounter
  infer_instance

/-- Distinct entries, each a non-empty offer from the RB count of its slice. -/
structure Queued (cell : SliceCell) (s : InterSlice) : Prop where
  keys : ∀ dl, ((s.queue dl).map SliceContext.key).Nodup
  apart : ∀ dl, ∀ x ∈ s.queue dl, ∀ y ∈ s.queue dl, x.id = y.id → SameCounter cell dl x.slotTx y.slotTx →
    x.slotTx = y.slotTx
  entry : ∀ dl, ∀ x ∈ s.queue dl, EntryOk s x
  fresh : ∀ dl, ∀ x ∈ s.queue dl, x.rbLims.start = s.rbCount cell dl x.id x.slotTx ∧ x.rbLims.start < x.rbLims.stop

/-! ### Grants -/

theorem getElem?_storeGrant (s : InterSlice) (c : RanSliceCandidate) (n id : ℕ) :
    (s.storeGrant cell c n).slices[id]? =
      (s.slices[id]?).map fun r => if c.id = id then r.storeGrant cell c.dl n c.slotTx else r := by
  simp only [storeGrant, getElem?_modify]
  cases s.slices[id]? <;> simp

lemma rbCount_slice_storeGrant (r : RanSlice) (dl dl' : Bool) (n slot slot' : ℕ) :
    (r.storeGrant cell dl' n slot').rbCount cell dl slot =
      if dl' = dl ∧ SameCounter cell dl slot slot' then r.rbCount cell dl slot + n else r.rbCount cell dl slot := by
  cases dl <;> cases dl' <;> simp [RanSlice.storeGrant, RanSlice.rbCount, SameCounter, Function.update_apply]
  · split
    next h => rw [h]
    · rfl

lemma rbCount_storeGrant {c : RanSliceCandidate} {r : RanSlice} (hr : s.slices[c.id]? = some r) (n : ℕ) (dl : Bool)
    (id slot : ℕ) :
    (s.storeGrant cell c n).rbCount cell dl id slot =
      if c.id = id ∧ c.dl = dl ∧ SameCounter cell dl slot c.slotTx then s.rbCount cell dl id slot + n
      else s.rbCount cell dl id slot := by
  simp only [rbCount, getElem?_storeGrant]
  by_cases hid : c.id = id
  · subst hid
    simp [hr, rbCount_slice_storeGrant]
  · rw [if_neg (fun h => hid h.1)]
    cases s.slices[id]? with
    | none => rfl
    | some r' => simp [hid]

end InterSlice

def RanSlice.fixed (r : RanSlice) : SlicePolicy × Bool := (r.cfg, r.active)

lemma RanSlice.fixed_storeGrant (cell : SliceCell) (r : RanSlice) (dl : Bool) (n slot : ℕ) :
    (r.storeGrant cell dl n slot).fixed = r.fixed := by
  cases dl <;> rfl

lemma InterSlice.exists_storeGrant (cell : SliceCell) {s : InterSlice} {id : ℕ} {r : RanSlice}
    (hr : s.slices[id]? = some r) (c : RanSliceCandidate) (n : ℕ) :
    ∃ r', (s.storeGrant cell c n).slices[id]? = some r' ∧ r'.cfg = r.cfg ∧ r'.active = r.active := by
  rw [getElem?_storeGrant, hr]
  refine ⟨_, rfl, ?_⟩
  split
  · have h := r.fixed_storeGrant cell c.dl n c.slotTx
    exact ⟨congrArg fst h, congrArg snd h⟩
  · exact ⟨rfl, rfl⟩

open InterSlice (queue_setQueue slices_setQueue exists_storeGrant)

namespace SliceRun

variable {cell : SliceCell} {s : InterSlice} {r r' : SliceRun}

/-- How often a slice has been offered for a PxSCH slot. -/
def offers (r : SliceRun) (dl : Bool) (k : ℕ × ℕ) : ℕ := r.returned.countP fun x => x.1.dl = dl ∧ x.1.key = k

/-- **The invariant of a slot**, relative to its beginning `s`. -/
structure RunInv (cell : SliceCell) (s : InterSlice) (r : SliceRun) : Prop where
  frame : ∀ id : ℕ, (r.sched.slices[id]?).map RanSlice.fixed = (s.slices[id]?).map RanSlice.fixed
  bound : ∀ dl id slot x, r.sched.slices[id]? = some x →
    x.rbCount cell dl slot ≤ max (s.rbCount cell dl id slot) x.cfg.maxPrb
  keys : ∀ dl, ((r.sched.queue dl).map SliceContext.key).Nodup
  queued : ∀ dl, ∀ x ∈ r.sched.queue dl, x.key ∈ (s.queue dl).map SliceContext.key
  entry : ∀ dl, ∀ x ∈ r.sched.queue dl, ∃ sl, r.sched.slices[x.id]? = some sl ∧ sl.active = true ∧
    (x.rbLims.stop = sl.cfg.maxPrb ∧ r.offers dl x.key ≤ 1 ∨ InterSlice.FirstOffer sl x ∧ r.offers dl x.key = 0)
  twice : ∀ dl k, r.offers dl k ≤ 2
  served : ∀ dl, ∀ k ∈ (s.queue dl).map SliceContext.key, 0 < r.offers dl k ∨
    ∃ x ∈ r.sched.queue dl, x.key = k ∧ InterSlice.Fits cell r.sched dl x
  positive : ∀ x ∈ r.returned, 0 < x.2
  returned : ∀ x ∈ r.returned, x.1.key ∈ (s.queue x.1.dl).map SliceContext.key
  current : ∀ c, r.current = some c → (∃ m, (c, m) ∈ r.returned) ∧
    ∃ sl, r.sched.slices[c.id]? = some sl ∧ c.maxRbs ≤ sl.cfg.maxPrb
  ended : ∀ dl ∈ r.ended, r.sched.queue dl = []

lemma RunInv.entryOk (h : RunInv cell s r) {dl : Bool} {x : SliceContext} (hx : x ∈ r.sched.queue dl) :
    InterSlice.EntryOk r.sched x := by
  obtain ⟨sl, h1, h2, h3⟩ := h.entry dl x hx
  exact ⟨sl, h1, h2, h3.imp And.left And.left⟩

lemma RunInv.start (h : InterSlice.Queued cell s) : RunInv cell s (start s) where
  frame _ := rfl
  bound dl id slot x hx := by
    have heq : s.rbCount cell dl id slot = x.rbCount cell dl slot := by
      have hx' : s.slices[id]? = some x := hx
      rw [InterSlice.rbCount, hx']
    rw [heq]
    exact le_max_left _ _
  keys := h.keys
  queued dl x hx := mem_map_of_mem hx
  entry dl x hx := by
    obtain ⟨sl, h1, h2, h3⟩ := h.entry dl x hx
    exact ⟨sl, h1, h2, h3.imp (fun h => ⟨h, Nat.zero_le _⟩) fun h => ⟨h, rfl⟩⟩
  twice dl k := Nat.zero_le _
  served dl k hk := by
    obtain ⟨x, hx, rfl⟩ := mem_map.mp hk
    refine .inr ⟨x, hx, rfl, ?_⟩
    obtain ⟨h1, h2⟩ := h.fresh dl x hx
    rw [InterSlice.Fits, Interval.contains_iff]
    exact ⟨h1.le, h1 ▸ h2⟩
  positive _ hx := by cases hx
  returned _ hx := by cases hx
  current _ hc := by cases hc
  ended _ hd := by cases hd

lemma offers_append (r : SliceRun) (x : RanSliceCandidate × ℕ) (dl : Bool) (k : ℕ × ℕ) :
    (r.returned ++ [x]).countP (fun x => x.1.dl = dl ∧ x.1.key = k) =
      r.offers dl k + if x.1.dl = dl ∧ x.1.key = k then 1 else 0 := by
  rw [countP_append, countP_singleton, offers]
  simp

lemma offers_pos {x : RanSliceCandidate × ℕ} (hx : x ∈ r.returned) : 0 < r.offers x.1.dl x.1.key :=
  countP_pos_iff.mpr ⟨x, hx, by simp⟩

lemma RunInv.none (h : RunInv cell s r) {dl : Bool}
    (hskip : ∀ x ∈ r.sched.queue dl, ¬ InterSlice.Fits cell r.sched dl x) :
    RunInv cell s { r with sched := r.sched.setQueue dl [], current := none, ended := dl :: r.ended } := by
  have hmem : ∀ {dl' x}, x ∈ (r.sched.setQueue dl []).queue dl' → x ∈ r.sched.queue dl' := by
    intro dl' x hx
    rw [queue_setQueue] at hx
    split at hx
    · cases hx
    · exact hx
  refine ⟨?_, ?_, fun dl' => ?_, fun dl' x hx => ?_, fun dl' x hx => ?_, h.twice, fun dl' k hk => ?_, h.positive,
    h.returned, ?_, fun dl' hd => ?_⟩
  · intro id
    rw [slices_setQueue]
    exact h.frame id
  · intro dl' id slot x hx
    rw [slices_setQueue] at hx
    exact h.bound dl' id slot x hx
  · rw [queue_setQueue]
    split
    · exact nodup_nil
    · exact h.keys dl'
  · exact h.queued dl' x (hmem hx)
  · rw [slices_setQueue]
    exact h.entry dl' x (hmem hx)
  · obtain hpos | ⟨x, hx, hk, hfit⟩ := h.served dl' k hk
    · exact .inl hpos
    · right
      have hne : dl' ≠ dl := by
        rintro rfl
        exact hskip x hx hfit
      refine ⟨x, ?_, hk, (InterSlice.fits_setQueue ..).mpr hfit⟩
      rw [queue_setQueue, if_neg hne]
      exact hx
  · intro c hc
    cases hc
  · rw [queue_setQueue]
    split
    · rfl
    next hne =>
      obtain rfl | hd := mem_cons.mp hd
      · exact absurd rfl hne
      · exact h.ended dl' hd

/-! ### A candidate is returned -/

section Picked

variable {dl : Bool} {q rest : List SliceContext} {c : RanSliceCandidate} {top : SliceContext} {sl : RanSlice}
  (h : RunInv cell s r) (hp : InterSlice.Picked cell r.sched dl sl top rest q c)
include h hp

lemma RunInv.entry_of_picked : sl.active = true ∧
      (top.rbLims.stop = sl.cfg.maxPrb ∧ r.offers dl top.key ≤ 1 ∨
        InterSlice.FirstOffer sl top ∧ r.offers dl top.key = 0) := by
  obtain ⟨sl', hsl', h1⟩ := h.entry dl top hp.mem
  rw [hp.slice] at hsl'
  cases hsl'
  exact h1

lemma RunInv.limit_of_picked : c.maxRbs ≤ sl.cfg.maxPrb ∧ r.sched.rbCount cell dl top.id top.slotTx < c.maxRbs := by
  have hlt := (Interval.contains_iff.mp hp.fits).2
  obtain ⟨-, hstop⟩ := h.entry_of_picked hp
  obtain ⟨-, rfl⟩ | ⟨⟨hmin, -, hmax⟩, rfl, -⟩ := hp.offered
  · refine ⟨le_rfl, ?_⟩
    obtain ⟨hs, -⟩ | ⟨⟨hs, -, hl⟩, -⟩ := hstop <;> dsimp only <;> omega
  · constructor <;> dsimp only <;> omega

lemma RunInv.mem_of_picked {x : SliceContext} (hx : x ∈ q) :
    x ∈ rest ∨ x.key = top.key ∧ x.rbLims.stop = sl.cfg.maxPrb ∧ r.offers dl top.key = 0 := by
  obtain ⟨rfl, -⟩ | ⟨⟨hmin, -, hmax⟩, -, y, hy, hstop, rfl⟩ := hp.offered
  · exact .inl hx
  · obtain hx | hx := mem_append.mp hx
    · exact .inl hx
    · rw [mem_singleton.mp hx]
      refine .inr ⟨hy, hstop, ?_⟩
      obtain ⟨-, ⟨hm, -⟩ | ⟨-, h0⟩⟩ := h.entry_of_picked hp
      · omega
      · exact h0

lemma RunInv.some : RunInv cell s { r with
      sched := r.sched.setQueue dl q, current := some c
      returned := r.returned ++ [(c, (r.sched.setQueue dl q).remainingRbs cell c)] } := by
  obtain ⟨hcdl, hckey⟩ := hp.candidate
  obtain ⟨hcmax, hcpos⟩ := h.limit_of_picked hp
  have hid : c.id = top.id := congrArg fst hckey
  have hoffers : ∀ dl' k, (offers { r with
      sched := r.sched.setQueue dl q, current := .some c
      returned := r.returned ++ [(c, (r.sched.setQueue dl q).remainingRbs cell c)] } dl' k) =
        r.offers dl' k + if dl = dl' ∧ top.key = k then 1 else 0 := by
    intro dl' k
    rw [offers, offers_append]
    simp [hcdl, hckey]
  refine ⟨?_, ?_, fun dl' => ?_, fun dl' x hx => ?_, fun dl' x hx => ?_, fun dl' k => ?_, fun dl' k hk => ?_,
    fun x hx => ?_, fun x hx => ?_, fun c' hc' => ?_, fun dl' hd => ?_⟩
  · intro id
    rw [slices_setQueue]
    exact h.frame id
  · intro dl' id slot x hx
    rw [slices_setQueue] at hx
    exact h.bound dl' id slot x hx
  · rw [queue_setQueue]
    split
    · exact hp.keys (h.keys dl)
    · exact h.keys dl'
  · rw [queue_setQueue] at hx
    split at hx
    next heq =>
      subst heq
      obtain hx | ⟨hk, -⟩ := h.mem_of_picked hp hx
      · exact h.queued dl' x (hp.sublist.mem hx)
      · rw [hk]
        exact h.queued dl' top hp.mem
    · exact h.queued dl' x hx
  · rw [queue_setQueue] at hx
    rw [slices_setQueue]
    simp only [hoffers]
    split at hx
    next heq =>
      subst heq
      obtain hx | ⟨hk, hstop, h0⟩ := h.mem_of_picked hp hx
      · rw [if_neg (fun heq => hp.key_ne (h.keys dl') hx heq.2.symm)]
        exact h.entry dl' x (hp.sublist.mem hx)
      · have hxid : x.id = top.id := congrArg Prod.fst hk
        refine ⟨sl, hxid ▸ hp.slice, (h.entry_of_picked hp).1, .inl ⟨hstop, ?_⟩⟩
        rw [hk, h0]
        split <;> omega
    next hne =>
      rw [if_neg (fun h => hne h.1.symm)]
      exact h.entry dl' x hx
  · rw [hoffers]
    have h2 := h.twice dl' k
    split
    next heq =>
      obtain ⟨rfl, rfl⟩ := heq
      obtain ⟨-, ⟨-, h1⟩ | ⟨-, h1⟩⟩ := h.entry_of_picked hp <;> omega
    · exact h2
  · rw [hoffers]
    obtain hpos | ⟨x, hx, rfl, hf⟩ := h.served dl' k hk
    · left
      omega
    · by_cases heq : dl = dl' ∧ top.key = x.key
      · left
        rw [if_pos heq]
        omega
      · refine .inr ⟨x, ?_, rfl, (InterSlice.fits_setQueue ..).mpr hf⟩
        rw [queue_setQueue]
        split
        next hdl =>
          subst hdl
          obtain rfl | hx' | hn := hp.kept x hx
          · exact absurd ⟨rfl, rfl⟩ heq
          · exact hp.mem_queue hx'
          · exact absurd hf hn
        · exact hx
  · obtain hx | hx := mem_append.mp hx
    · exact h.positive x hx
    · rw [mem_singleton.mp hx]
      have hslot : c.slotTx = top.slotTx := congrArg Prod.snd hckey
      simp only [InterSlice.remainingRbs, InterSlice.rbCount, slices_setQueue, hid, hslot, hcdl] at hcpos ⊢
      omega
  · obtain hx | hx := mem_append.mp hx
    · exact h.returned x hx
    · rw [mem_singleton.mp hx]
      rw [hckey, hcdl]
      exact h.queued dl top hp.mem
  · cases hc'
    refine ⟨⟨_, mem_append_right _ (mem_singleton.mpr rfl)⟩, sl, ?_, hcmax⟩
    rw [slices_setQueue, hid]
    exact hp.slice
  · have hd' := h.ended dl' hd
    rw [queue_setQueue, if_neg]
    · exact hd'
    · rintro rfl
      have hmem := hp.mem
      rw [hd'] at hmem
      cases hmem

end Picked

lemma RunInv.next (h : RunInv cell s r) (dl : Bool) (tb : TieBreak prio) :
    ∃ r', step cell r (.next dl tb) = .ok r' ∧ RunInv cell s r' := by
  obtain ⟨h1, h2⟩ | ⟨q, c, top, sl, rest, h1, hp⟩ :=
    InterSlice.getNextCandidate_spec tb (fun x hx => h.entryOk hx) (h.keys dl)
  · exact ⟨_, by rw [step, h1]; rfl, h.none h2⟩
  · exact ⟨_, by rw [step, h1]; rfl, h.some hp⟩

/-! ### A grant -/

section Grant

variable {c : RanSliceCandidate} {n : ℕ}

lemma RunInv.bound_grant (h : RunInv cell s r) (hc : r.current = .some c) (hn : n ≤ r.sched.remainingRbs cell c)
    {dl : Bool} {id slot : ℕ} {x : RanSlice} (hx : (r.sched.storeGrant cell c n).slices[id]? = .some x) :
    x.rbCount cell dl slot ≤ max (s.rbCount cell dl id slot) x.cfg.maxPrb := by
  obtain ⟨-, sl, hsl, hmax⟩ := h.current c hc
  rw [InterSlice.getElem?_storeGrant] at hx
  obtain ⟨y, hy, rfl⟩ := Option.map_eq_some_iff.mp hx
  have hb := h.bound dl id slot y hy
  split
  next hid =>
    subst hid
    rw [hsl] at hy
    cases hy
    have hcfg : (sl.storeGrant cell c.dl n c.slotTx).cfg = sl.cfg := congrArg fst (sl.fixed_storeGrant cell c.dl n c.slotTx)
    rw [InterSlice.rbCount_slice_storeGrant, hcfg]
    split
    next hs =>
      obtain ⟨rfl, hs⟩ := hs
      have hsame : sl.rbCount cell c.dl slot = sl.rbCount cell c.dl c.slotTx := by
        obtain hd | hs := hs
        · simp [RanSlice.rbCount, hd]
        · simp [RanSlice.rbCount, hs]
      rw [InterSlice.remainingRbs, InterSlice.rbCount, hsl] at hn
      dsimp only at hn
      omega
    · exact hb
  · exact hb

lemma RunInv.rbCount_grant (hq : InterSlice.Queued cell s) (h : RunInv cell s r) (hc : r.current = .some c) (n : ℕ)
    {dl : Bool} {x : SliceContext} (hx : x ∈ r.sched.queue dl) (h0 : r.offers dl x.key = 0) :
    (r.sched.storeGrant cell c n).rbCount cell dl x.id x.slotTx = r.sched.rbCount cell dl x.id x.slotTx := by
  obtain ⟨⟨m, hm⟩, sl, hsl, -⟩ := h.current c hc
  rw [InterSlice.rbCount_storeGrant hsl, if_neg]
  rintro ⟨hid, rfl, hsame⟩
  obtain ⟨y, hy, hyk⟩ := mem_map.mp (h.queued c.dl x hx)
  obtain ⟨z, hz, hzk⟩ := mem_map.mp (h.returned _ hm)
  have e1 : y.id = x.id := congrArg fst hyk
  have e2 : y.slotTx = x.slotTx := congrArg snd hyk
  have e3 : z.id = c.id := congrArg fst hzk
  have e4 : z.slotTx = c.slotTx := congrArg snd hzk
  have heq := hq.apart c.dl y hy z hz (by omega) (by rw [e2, e4]; exact hsame)
  have hkey : x.key = c.key := Prod.ext (by show x.id = c.id; omega) (by show x.slotTx = c.slotTx; omega)
  have hpos := offers_pos hm
  rw [hkey] at h0
  dsimp only at hpos
  omega

lemma RunInv.grant (hq : InterSlice.Queued cell s) (h : RunInv cell s r) (hc : r.current = .some c)
    (hn : n ≤ r.sched.remainingRbs cell c) : RunInv cell s { r with sched := r.sched.storeGrant cell c n } := by
  have hqueue : ∀ dl, (r.sched.storeGrant cell c n).queue dl = r.sched.queue dl := by
    intro dl
    cases dl <;> rfl
  refine ⟨fun id => ?_, fun dl id slot x hx => h.bound_grant hc hn hx, fun dl => ?_, fun dl x hx => ?_, fun dl x hx => ?_,
    h.twice, fun dl k hk => ?_, h.positive, h.returned, fun c' hc' => ?_, fun dl hd => ?_⟩
  · rw [← h.frame id]
    cases hid : r.sched.slices[id]? with
    | none => simp [InterSlice.getElem?_storeGrant, hid]
    | some x =>
      obtain ⟨x', h1, h2, h3⟩ := exists_storeGrant cell hid c n
      simp [h1, RanSlice.fixed, h2, h3]
  · rw [hqueue]
    exact h.keys dl
  · rw [hqueue] at hx
    exact h.queued dl x hx
  · rw [hqueue] at hx
    obtain ⟨y, hy, ha, hor⟩ := h.entry dl x hx
    obtain ⟨y', h1, h2, h3⟩ := exists_storeGrant cell hy c n
    refine ⟨y', h1, h3.trans ha, ?_⟩
    simp only [InterSlice.FirstOffer, h2]
    exact hor
  · obtain hpos | ⟨x, hx, rfl, hf⟩ := h.served dl k hk
    · exact .inl hpos
    · by_cases h0 : r.offers dl x.key = 0
      · refine .inr ⟨x, by rw [hqueue]; exact hx, rfl, ?_⟩
        rw [InterSlice.Fits, h.rbCount_grant hq hc n hx h0]
        exact hf
      · exact .inl (Nat.pos_of_ne_zero h0)
  · obtain ⟨h1, sl', h2, h3⟩ := h.current c' hc'
    obtain ⟨sl'', h4, h5, -⟩ := exists_storeGrant cell h2 c n
    exact ⟨h1, sl'', h4, h5 ▸ h3⟩
  · rw [hqueue]
    exact h.ended dl hd

end Grant

lemma RunInv.step (hq : InterSlice.Queued cell s) (h : RunInv cell s r) {a : SliceAction} (ha : Within cell r a)
    (hstep : step cell r a = .ok r') : RunInv cell s r' := by
  cases a with
  | next dl tb =>
    obtain ⟨r'', h1, h2⟩ := h.next dl tb
    rw [h1] at hstep
    cases hstep
    exact h2
  | grant n =>
    unfold SliceRun.step at hstep
    simp only at hstep
    split at hstep
    next c hc =>
      cases hstep
      exact h.grant hq hc (ha c hc)
    · cases hstep

end SliceRun

end SrsRan.Sched
