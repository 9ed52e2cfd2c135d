import SrsRan.Sched.InterSlice

/-!
# The next candidate

What one call of `get_next_candidate` does (`getNextCandidate_spec`): entries whose limits do not contain the RB count of
their slice are dropped, and the first entry that fits is returned.
-/

namespace SrsRan.Sched

open Support Lib.Run Lib.PrioQueue List

def SliceContext.key (x : SliceContext) : ℕ × ℕ := (x.id, x.slotTx)

open SliceContext (key)

def RanSliceCandidate.key (c : RanSliceCandidate) : ℕ × ℕ := (c.id, c.slotTx)

namespace InterSlice

variable {cell : SliceCell} {s : InterSlice} {dl : Bool}

@[simp]
lemma queue_setQueue (s : InterSlice) (dl dl' : Bool) (q : List SliceContext) :
    (s.setQueue dl q).queue dl' = if dl' = dl then q else s.queue dl' := by
  cases dl <;> cases dl' <;> rfl

@[simp]
lemma slices_setQueue (s : InterSlice) (dl : Bool) (q : List SliceContext) : (s.setQueue dl q).slices = s.slices := by
  cases dl <;> rfl

lemma getPrio_ne_zero {r : RanSlice} (ha : r.active = true) {slot : ℕ}
    (hc : r.rbCount cell dl slot < r.cfg.maxPrb) (pdcch : ℕ) (resched : Bool) :
    r.getPrio cell dl pdcch slot resched ≠ 0 := by
  unfold RanSlice.getPrio
  simp only
  rw [if_neg]
  · omega
  · rintro (h | h)
    · simp [ha] at h
    · omega

lemma getPrio_eq_zero_of_inactive {r : RanSlice} (ha : r.active = false) (pdcch slot : ℕ) (resched : Bool) :
    r.getPrio cell dl pdcch slot resched = 0 := by
  unfold RanSlice.getPrio
  simp [ha]

/-- The entry offers the RBs up to the minimum. -/
def FirstOffer (r : RanSlice) (x : SliceContext) : Prop :=
  x.rbLims.stop = r.cfg.minPrb ∧ 0 < r.cfg.minPrb ∧ r.cfg.minPrb < r.cfg.maxPrb

/-- An active slice, with an offer up to its minimum or its maximum. -/
def EntryOk (s : InterSlice) (x : SliceContext) : Prop :=
  ∃ r, s.slices[x.id]? = some r ∧ r.active = true ∧ (x.rbLims.stop = r.cfg.maxPrb ∨ FirstOffer r x)

/-- The RB count of the slice is within the limits of the entry. -/
def Fits (cell : SliceCell) (s : InterSlice) (dl : Bool) (x : SliceContext) : Prop :=
  x.rbLims.contains (s.rbCount cell dl x.id x.slotTx) = true

@[simp]
lemma fits_setQueue (s : InterSlice) (dl dl' : Bool) (q : List SliceContext) (x : SliceContext) :
    Fits cell (s.setQueue dl q) dl' x ↔ Fits cell s dl' x := by
  simp only [Fits, rbCount, slices_setQueue]

/-- The candidate for an entry, and the rest of the queue. -/
def Offered (dl : Bool) (r : RanSlice) (top : SliceContext) (rest : List SliceContext) (q : List SliceContext)
    (c : RanSliceCandidate) : Prop :=
  (q = rest ∧ c = ⟨dl, top.id, top.slotTx, r.cfg.maxPrb⟩) ∨
    FirstOffer r top ∧ c = ⟨dl, top.id, top.slotTx, r.cfg.minPrb⟩ ∧
      ∃ x : SliceContext, x.key = top.key ∧ x.rbLims.stop = r.cfg.maxPrb ∧ q = rest ++ [x]

lemma candidate_eq {r : RanSlice} {id slot m : ℕ} (hm : 0 < m) : candidate dl r id slot m = ⟨dl, id, slot, m⟩ := by
  rw [candidate, if_neg (Nat.pos_iff_ne_zero.mp hm)]

/-- **The end of an iteration.** -/
theorem offer_spec (tb : TieBreak SliceContext.prio) {r : RanSlice} {top : SliceContext}
    (ha : r.active = true) (htop : top.rbLims.stop = r.cfg.maxPrb ∨ FirstOffer r top)
    (hfit : top.rbLims.contains (r.rbCount cell dl top.slotTx) = true) (hkey : top.key ∉ (s.queue dl).map key) :
    ∃ q c, offer cell tb dl s r top = .ok (s.setQueue dl q, some c) ∧ Offered dl r top (s.queue dl) q c := by
  have hcount := (Interval.contains_iff.mp hfit).2
  obtain hmax | ⟨hstop, hpos, hlt⟩ := htop
  · -- an offer up to the maximum
    refine ⟨s.queue dl, ⟨dl, top.id, top.slotTx, r.cfg.maxPrb⟩, ?_, .inl ⟨rfl, rfl⟩⟩
    have hself : s.setQueue dl (s.queue dl) = s := by cases dl <;> rfl
    unfold offer
    simp only
    rw [if_neg (fun h => h.2.2.2 hmax), hmax, candidate_eq (by omega), hself]
  · have hbelow : r.rbCount cell dl top.slotTx < r.cfg.maxPrb := by omega
    have hprio := getPrio_ne_zero ha hbelow (s.currentSlot.getD 0) true
    have hle : (if 0 < r.rbCount cell dl top.slotTx then r.rbCount cell dl top.slotTx else r.cfg.minPrb) ≤ r.cfg.maxPrb := by
      split <;> omega
    -- the offer up to the maximum
    let x : SliceContext :=
      { id := top.id
        prio := r.getPrio cell dl (s.currentSlot.getD 0) top.slotTx true
        rbLims := ⟨_, r.cfg.maxPrb, hle⟩
        slotTx := top.slotTx }
    have hpush : push (s.queue dl) x = s.queue dl ++ [x] := by rw [push, if_neg hprio]
    have hx : x ∉ s.queue dl := fun hm => hkey (mem_map.mpr ⟨x, hm, rfl⟩)
    obtain ⟨y, hy⟩ := tb.top_isSome (q := s.queue dl ++ [x]) (by simp)
    unfold offer
    simp only
    rw [if_pos ⟨hpos, by omega, by omega, by omega⟩, Interval.make?, dif_pos hle]
    simp only
    rw [show push (s.queue dl) { id := top.id, prio := _, rbLims := _, slotTx := top.slotTx } = _ from hpush]
    simp only [hy]
    split
    · -- the two offers are merged
      rename_i hsame
      have hyx : y = x := by
        obtain hm | hm := mem_append.mp (tb.top_mem hy)
        · exact absurd (mem_map.mpr ⟨y, hm, Prod.ext hsame.1 hsame.2.symm⟩) hkey
        · exact mem_singleton.mp hm
      subst hyx
      refine ⟨s.queue dl, ⟨dl, top.id, top.slotTx, r.cfg.maxPrb⟩, ?_, .inl ⟨rfl, rfl⟩⟩
      have hmax : max top.rbLims.stop x.rbLims.stop = r.cfg.maxPrb := by
        rw [hstop]
        exact max_eq_right (Nat.le_of_lt hlt)
      rw [erase_append_right _ hx, hmax, candidate_eq (by omega)]
      simp
    · refine ⟨s.queue dl ++ [x], ⟨dl, top.id, top.slotTx, r.cfg.minPrb⟩, ?_, .inr ⟨⟨hstop, hpos, hlt⟩, rfl, x, rfl, rfl, rfl⟩⟩
      rw [hstop, candidate_eq hpos]

/-- The candidate `c` is returned for the entry `top`, and `q` is the queue afterwards. -/
structure Picked (cell : SliceCell) (s : InterSlice) (dl : Bool) (r : RanSlice) (top : SliceContext)
    (rest q : List SliceContext) (c : RanSliceCandidate) : Prop where
  mem : top ∈ s.queue dl
  fits : Fits cell s dl top
  slice : s.slices[top.id]? = some r
  sub : rest.Sublist ((s.queue dl).erase top)
  kept : ∀ x ∈ s.queue dl, x = top ∨ x ∈ rest ∨ ¬ Fits cell s dl x
  offered : Offered dl r top rest q c

/-- The first entry that fits gives the candidate. -/
def NextSpec (cell : SliceCell) (s : InterSlice) (dl : Bool)
    (x : Except Abort (InterSlice × Option RanSliceCandidate)) : Prop :=
  (x = .ok (s.setQueue dl [], none) ∧ ∀ x ∈ s.queue dl, ¬ Fits cell s dl x) ∨
    ∃ q c top r rest, x = .ok (s.setQueue dl q, some c) ∧ Picked cell s dl r top rest q c

lemma eq_or_mem_erase (top : SliceContext) {x : SliceContext} {q : List SliceContext} (hx : x ∈ q) :
    x = top ∨ x ∈ q.erase top := by
  by_cases hxt : x = top
  · exact .inl hxt
  · exact .inr ((mem_erase_of_ne hxt).mpr hx)

lemma key_notMem_erase {top : SliceContext} {q : List SliceContext} (hkeys : (q.map key).Nodup)
    (hmem : top ∈ q) : top.key ∉ (q.erase top).map key := by
  intro hm
  obtain ⟨x, hx, heq⟩ := mem_map.mp hm
  have hxt : x = top := inj_on_of_nodup_map hkeys (mem_of_mem_erase hx) hmem heq
  exact absurd hx (hxt ▸ hkeys.of_map.not_mem_erase)

section Picked

variable {q rest : List SliceContext} {c : RanSliceCandidate} {top : SliceContext} {r : RanSlice}

section

variable (hp : Picked cell s dl r top rest q c)
include hp

lemma Picked.sublist : rest.Sublist (s.queue dl) := hp.sub.trans erase_sublist

lemma Picked.key_ne (hkeys : ((s.queue dl).map key).Nodup)
    {x : SliceContext} (hx : x ∈ rest) : x.key ≠ top.key := fun heq =>
  key_notMem_erase hkeys hp.mem (heq ▸ mem_map_of_mem (hp.sub.mem hx))

lemma Picked.keys (hkeys : ((s.queue dl).map key).Nodup) : (q.map key).Nodup := by
  have hrk : (rest.map key).Nodup := hkeys.sublist (hp.sublist.map _)
  obtain ⟨rfl, -⟩ | ⟨-, -, y, hy, -, rfl⟩ := hp.offered
  · exact hrk
  · rw [map_append, nodup_append]
    refine ⟨hrk, by simp, fun a ha b hb => ?_⟩
    obtain ⟨x, hx, rfl⟩ := mem_map.mp ha
    have hb' : b = y.key := by simpa using hb
    rw [hb', hy]
    exact hp.key_ne hkeys hx

lemma Picked.mem_queue {x : SliceContext} (hx : x ∈ rest) : x ∈ q := by
  obtain ⟨rfl, -⟩ | ⟨-, -, y, -, -, rfl⟩ := hp.offered
  · exact hx
  · exact mem_append_left _ hx

lemma Picked.candidate : c.dl = dl ∧ c.key = top.key := by
  obtain ⟨-, rfl⟩ | ⟨-, rfl, -⟩ := hp.offered <;> exact ⟨rfl, rfl⟩

end

end Picked

lemma NextSpec.nil (hnil : s.queue dl = []) : NextSpec cell s dl (.ok (s, none)) := by
  have hself : s.setQueue dl [] = s := by
    rw [← hnil]
    cases dl <;> rfl
  left
  rw [hself, hnil]
  exact ⟨rfl, nofun⟩

lemma NextSpec.drop {top : SliceContext} (hskip : ¬ Fits cell s dl top)
    {x : Except Abort (InterSlice × Option RanSliceCandidate)}
    (h : NextSpec cell (s.setQueue dl ((s.queue dl).erase top)) dl x) : NextSpec cell s dl x := by
  have hset : ∀ q, (s.setQueue dl ((s.queue dl).erase top)).setQueue dl q = s.setQueue dl q := by
    intro q
    cases dl <;> rfl
  rcases h with ⟨h1, h2⟩ | ⟨q, c, top', r, rest, h1, hp⟩
  · refine .inl ⟨by rw [h1, hset], fun x hx => ?_⟩
    rcases eq_or_mem_erase top hx with rfl | hx
    · exact hskip
    · simpa using h2 x (by simpa using hx)
  · have hmem := hp.mem
    have hsub := hp.sub
    simp only [queue_setQueue, if_true] at hmem hsub
    refine .inr ⟨q, c, top', r, rest, by rw [h1, hset], mem_of_mem_erase hmem, (fits_setQueue ..).mp hp.fits, ?_,
      hsub.trans (erase_sublist.erase top'), fun x hx => ?_, hp.offered⟩
    · rw [← hp.slice, slices_setQueue]
    · rcases eq_or_mem_erase top hx with rfl | hx
      · exact .inr (.inr hskip)
      · simpa using hp.kept x (by simpa using hx)

/-- **The loop.**  The call does not fail; it drops entries that do not fit, and returns the first one that does. -/
theorem getNextCandidateLoop_spec (tb : TieBreak SliceContext.prio) (n : ℕ) (hn : (s.queue dl).length ≤ n)
    (hentry : ∀ x ∈ s.queue dl, EntryOk s x) (hkeys : ((s.queue dl).map key).Nodup) :
    NextSpec cell s dl (getNextCandidateLoop cell tb dl n s) := by
  -- each iteration shortens the queue, and the slices stay
  induction n generalizing s with
  | zero => exact NextSpec.nil (length_eq_zero_iff.mp (by omega))
  | succ n ih =>
    unfold getNextCandidateLoop
    cases htop : tb.top (s.queue dl) with
    | none => exact NextSpec.nil (tb.top_none htop)
    | some top =>
      have hmem := tb.top_mem htop
      obtain ⟨r, hr, ha, hoffer⟩ := hentry top hmem
      have hkey := key_notMem_erase hkeys hmem
      have hcount : s.rbCount cell dl top.id top.slotTx = r.rbCount cell dl top.slotTx := by
        rw [rbCount, hr]
      simp only [hr]
      split
      · -- the entry is returned
        rename_i hfit
        obtain ⟨q, c, ho, hoff⟩ := offer_spec (s := s.setQueue dl ((s.queue dl).erase top)) tb ha hoffer hfit (by simpa using hkey)
        simp only [queue_setQueue, if_true] at hoff
        refine .inr ⟨q, c, top, r, (s.queue dl).erase top, ?_, hmem, ?_, hr, List.Sublist.refl _, fun x hx => ?_, hoff⟩
        · rw [ho]
          cases dl <;> rfl
        · rw [Fits, hcount]
          exact hfit
        · exact (eq_or_mem_erase top hx).imp id .inl
      · -- the entry is dropped
        rename_i hfit
        have hskip : ¬ Fits cell s dl top := by
          rw [Fits, hcount]
          exact hfit
        refine NextSpec.drop hskip (ih ?_ ?_ ?_)
        · simp only [queue_setQueue, if_true, length_erase_of_mem hmem]
          omega
        · intro x hx
          simp only [queue_setQueue, if_true] at hx
          simpa [EntryOk] using hentry x (mem_of_mem_erase hx)
        · simp only [queue_setQueue, if_true]
          exact hkeys.sublist (erase_sublist.map _)

/-- **One call.** -/
theorem getNextCandidate_spec (tb : TieBreak SliceContext.prio) (hentry : ∀ x ∈ s.queue dl, EntryOk s x)
    (hkeys : ((s.queue dl).map key).Nodup) : NextSpec cell s dl (getNextCandidate cell tb dl s) :=
  getNextCandidateLoop_spec tb _ le_rfl hentry hkeys

end InterSlice

end SrsRan.Sched
