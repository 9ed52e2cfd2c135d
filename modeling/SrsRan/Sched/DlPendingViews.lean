import SrsRan.Lib.Lists
import SrsRan.Sched.DlLogicalChannels

/-!
# The views of the pending DL data of a UE

The scheduler asks for the pending data of a UE in two ways, as a truth value and as a number of bytes, for the UE and for a
RAN slice.  `DlLcInv` is what all reachable states of the manager satisfy.
-/

namespace SrsRan.Sched

open Mac Support Lib.Lists Lib.Run List
open Function (update_self update_of_ne)
open ChannelContext (active reset)

namespace DlLogicalChannelManager

/-! ### Slices -/

/-- The slice of a channel is the one whose list holds it. -/
structure SliceInv (sliceOf : ℕ → Option ℕ) (lookup : List (List ℕ)) : Prop where
  mem_iff : ∀ lcid k, lcid ∈ lookup.getD k [] ↔ sliceOf lcid = some k
  nodup : ∀ k, (lookup.getD k []).Nodup
  le : ∀ lcid k, sliceOf lcid = some k → lcid ≤ lcidMaxDrb
  /-- SRB0 is never handled by a slice -/
  srb0 : sliceOf lcidSrb0 = none

namespace SliceInv

variable {sliceOf : ℕ → Option ℕ} {lookup : List (List ℕ)}

section

variable (h : SliceInv sliceOf lookup)
include h

lemma erase {lcid k : ℕ} (hk : sliceOf lcid = some k) :
    SliceInv (Function.update sliceOf lcid none) (lookup.modify k (·.erase lcid)) := by
  have hget : ∀ j, (lookup.modify k (·.erase lcid)).getD j [] =
      if j = k then (lookup.getD j []).erase lcid else lookup.getD j [] :=
    fun j => getD_modify lookup k j _ [] fun _ => rfl
  refine ⟨fun x j => ?_, fun j => ?_, fun x j hx => ?_, ?_⟩
  · rw [hget]
    by_cases hx : x = lcid
    · subst hx
      rw [update_self]
      split_ifs with hj
      · simpa using (h.nodup j).not_mem_erase
      · rw [h.mem_iff, hk]
        simpa using Ne.symm hj
    · rw [update_of_ne hx]
      split_ifs with hj
      · rw [mem_erase_of_ne hx, h.mem_iff]
      · exact h.mem_iff x j
  · rw [hget]
    split_ifs
    · exact (h.nodup j).erase lcid
    · exact h.nodup j
  · by_cases hxl : x = lcid
    · rw [hxl, update_self] at hx
      cases hx
    · rw [update_of_ne hxl] at hx
      exact h.le x j hx
  · by_cases hl : lcidSrb0 = lcid
    · rw [hl, update_self]
    · rw [update_of_ne hl, h.srb0]

lemma add {lcid k : ℕ} (hnone : sliceOf lcid = none) (hk : k < lookup.length)
    (hle : lcid ≤ lcidMaxDrb) (h0 : lcid ≠ lcidSrb0) :
    SliceInv (Function.update sliceOf lcid (some k)) (lookup.modify k (· ++ [lcid])) := by
  have hget : ∀ j, (lookup.modify k (· ++ [lcid])).getD j [] =
      if j = k then lookup.getD j [] ++ [lcid] else lookup.getD j [] :=
    fun j => getD_modify lookup k j _ [] fun hle => absurd hk (by omega)
  have hnot : ∀ j, lcid ∉ lookup.getD j [] := fun j hmem => by
    rw [h.mem_iff, hnone] at hmem
    cases hmem
  refine ⟨fun x j => ?_, fun j => ?_, fun x j hx => ?_, ?_⟩
  · rw [hget]
    by_cases hx : x = lcid
    · subst hx
      rw [update_self]
      split_ifs with hj
      · simp [hj]
      · refine iff_of_false (hnot j) fun heq => hj (Option.some.inj heq).symm
    · rw [update_of_ne hx]
      split_ifs with hj
      · rw [mem_append, h.mem_iff, mem_singleton, or_iff_left hx]
      · exact h.mem_iff x j
  · rw [hget]
    split_ifs
    · exact (h.nodup j).append (nodup_singleton lcid) (by simpa using hnot j)
    · exact h.nodup j
  · by_cases hxl : x = lcid
    · rwa [hxl]
    · rw [update_of_ne hxl] at hx
      exact h.le x j hx
  · rw [update_of_ne (Ne.symm h0), h.srb0]

lemma clear (k : ℕ) :
    SliceInv (fun lcid => if lcid ∈ lookup.getD k [] then none else sliceOf lcid) (lookup.modify k fun _ => []) := by
  have hget : ∀ j, (lookup.modify k fun _ => []).getD j [] = if j = k then [] else lookup.getD j [] :=
    fun j => getD_modify lookup k j _ [] fun _ => rfl
  refine ⟨fun x j => ?_, fun j => ?_, fun x j hx => ?_, ?_⟩
  · rw [hget]
    split_ifs with hj hx hx
    · simp
    · subst hj
      rw [h.mem_iff] at hx
      simpa using hx
    · rw [h.mem_iff] at hx ⊢
      rw [hx]
      simpa using Ne.symm hj
    · exact h.mem_iff x j
  · rw [hget]
    split_ifs
    · exact nodup_nil
    · exact h.nodup j
  · split_ifs at hx
    exact h.le x j hx
  · rw [h.srb0, ite_self]

lemma register (n : ℕ) : SliceInv sliceOf (lookup ++ replicate n []) := by
  have hget : ∀ j, (lookup ++ replicate n []).getD j [] = lookup.getD j [] := fun j => by
    rw [getD_eq_getElem?_getD, getD_eq_getElem?_getD, getElem?_append]
    split_ifs with hj
    · rfl
    · rw [getElem?_eq_none (by omega : lookup.length ≤ j), getElem?_replicate]
      split_ifs <;> rfl
  exact ⟨fun x j => by rw [hget]; exact h.mem_iff x j, fun j => by rw [hget]; exact h.nodup j, h.le, h.srb0⟩

end

end SliceInv

/-! ### The invariant -/

/-- What all reachable states of the manager satisfy. -/
structure DlLcInv (m : DlLogicalChannelManager) : Prop where
  active_iff : ∀ lcid, (m.channels lcid).active = true ↔ lcid ∈ m.sortedChannels
  nodup : m.sortedChannels.Nodup
  le : ∀ lcid ∈ m.sortedChannels, lcid ≤ lcidMaxDrb
  configured : ∀ lcid ∈ m.sortedChannels, lcid ∈ (m.channelConfigs.getD []).map (·.lcid)
  slices : SliceInv (fun lcid => (m.channels lcid).sliceId) m.sliceLcidListLookup
  ces : m.pendingCes.length ≤ maxPendingCes

variable {m m' : DlLogicalChannelManager}

lemma DlLcInv.init (b : Bool) : DlLcInv (init b) where
  active_iff _ := by simp [DlLogicalChannelManager.init]
  nodup := nodup_nil
  le _ h := by simp [DlLogicalChannelManager.init] at h
  configured _ h := by simp [DlLogicalChannelManager.init] at h
  slices := ⟨fun _ _ => by simp [DlLogicalChannelManager.init], fun _ => by simp [DlLogicalChannelManager.init],
    fun _ _ h => (nomatch h), rfl⟩
  ces := Nat.zero_le _

lemma DlLcInv.of_slices (h : DlLcInv m) (h1 : ∀ lcid, (m'.channels lcid).active = (m.channels lcid).active)
    (h3 : m'.sortedChannels = m.sortedChannels) (h4 : m'.channelConfigs = m.channelConfigs)
    (h5 : SliceInv (fun lcid => (m'.channels lcid).sliceId) m'.sliceLcidListLookup)
    (h6 : m'.pendingCes.length ≤ maxPendingCes) : DlLcInv m' where
  active_iff lcid := by rw [h1, h3]; exact h.active_iff lcid
  nodup := by rw [h3]; exact h.nodup
  ces := h6
  le := by rw [h3]; exact h.le
  configured := by rw [h3, h4]; exact h.configured
  slices := h5

lemma DlLcInv.congr (h : DlLcInv m) (h1 : ∀ lcid, (m'.channels lcid).active = (m.channels lcid).active)
    (h2 : ∀ lcid, (m'.channels lcid).sliceId = (m.channels lcid).sliceId)
    (h3 : m'.sortedChannels = m.sortedChannels) (h4 : m'.channelConfigs = m.channelConfigs)
    (h5 : m'.sliceLcidListLookup = m.sliceLcidListLookup) (h6 : m'.pendingCes.length ≤ maxPendingCes) : DlLcInv m' := by
  refine h.of_slices h1 h3 h4 ?_ h6
  rw [show (fun lcid => (m'.channels lcid).sliceId) = fun lcid => (m.channels lcid).sliceId from funext h2, h5]
  exact h.slices

lemma modifyChannel_congr {β : Type} (lcid x : ℕ) (f : ChannelContext → ChannelContext) (g : ChannelContext → β)
    (hf : ∀ c, g (f c) = g c) : g ((m.modifyChannel lcid f).channels x) = g (m.channels x) := by
  unfold modifyChannel
  by_cases hx : x = lcid
  · subst hx
    simp [hf]
  · simp [update_of_ne hx]

lemma DlLcInv.modifyChannel (h : DlLcInv m) (lcid : ℕ) {f : ChannelContext → ChannelContext}
    (h1 : ∀ c, (f c).active = c.active) (h2 : ∀ c, (f c).sliceId = c.sliceId) : DlLcInv (m.modifyChannel lcid f) :=
  h.congr (fun x => modifyChannel_congr lcid x f active h1)
    (fun x => modifyChannel_congr lcid x f ChannelContext.sliceId h2) rfl rfl rfl h.ces

lemma sliceId_update (lcid : ℕ) (v : Option ℕ) :
    (fun x => ((m.modifyChannel lcid fun c => { c with sliceId := v }).channels x).sliceId) =
      Function.update (fun x => (m.channels x).sliceId) lcid v := by
  funext x
  by_cases hx : x = lcid
  · subst hx
    simp [modifyChannel]
  · simp [modifyChannel, update_of_ne hx]

lemma active_setSlice (lcid x : ℕ) (v : Option ℕ) :
    ((m.modifyChannel lcid fun c => { c with sliceId := v }).channels x).active = (m.channels x).active :=
  modifyChannel_congr lcid x _ active fun _ => rfl

lemma resetLcidRanSlice_spec (h : SliceInv (fun lcid => (m.channels lcid).sliceId) m.sliceLcidListLookup)
    (lcid : ℕ) :
    (∀ x, ((m.resetLcidRanSlice lcid).channels x).active = (m.channels x).active) ∧
      (m.resetLcidRanSlice lcid).sortedChannels = m.sortedChannels ∧
      (m.resetLcidRanSlice lcid).channelConfigs = m.channelConfigs ∧
      (m.resetLcidRanSlice lcid).sliceLcidListLookup.length = m.sliceLcidListLookup.length ∧
      ((m.resetLcidRanSlice lcid).channels lcid).sliceId = none ∧
      SliceInv (fun x => ((m.resetLcidRanSlice lcid).channels x).sliceId)
        (m.resetLcidRanSlice lcid).sliceLcidListLookup ∧
      (m.resetLcidRanSlice lcid).pendingCes = m.pendingCes := by
  unfold resetLcidRanSlice
  split
  next hnone => exact ⟨fun _ => rfl, rfl, rfl, rfl, hnone, h, rfl⟩
  next k hk =>
    refine ⟨fun x => active_setSlice lcid x none, rfl, rfl, length_modify .., ?_, ?_, rfl⟩
    · simp [modifyChannel]
    · have := h.erase hk
      rwa [← sliceId_update] at this

lemma DlLcInv.resetLcidRanSlice (h : DlLcInv m) (lcid : ℕ) : DlLcInv (m.resetLcidRanSlice lcid) := by
  obtain ⟨h1, h2, h3, -, -, h4, h5⟩ := resetLcidRanSlice_spec h.slices lcid
  exact h.of_slices h1 h2 h3 h4 (h5 ▸ h.ces)

lemma DlLcInv.registerRanSlice (h : DlLcInv m) (k : ℕ) : DlLcInv (m.registerRanSlice k) := by
  unfold DlLogicalChannelManager.registerRanSlice
  split
  · exact h.of_slices (fun _ => rfl) rfl rfl (h.slices.register _) h.ces
  · exact h

lemma lt_length_registerRanSlice (m : DlLogicalChannelManager) (k : ℕ) :
    k < (m.registerRanSlice k).sliceLcidListLookup.length := by
  unfold registerRanSlice
  split
  · simp only [length_append, length_replicate]
    omega
  · omega

lemma DlLcInv.deregisterRanSlice (h : DlLcInv m) (k : ℕ) : DlLcInv (m.deregisterRanSlice k) := by
  unfold DlLogicalChannelManager.deregisterRanSlice
  split
  · exact h
  · refine h.of_slices (fun x => ?_) rfl rfl ?_ h.ces
    · simp only
      split <;> rfl
    · have := h.slices.clear k
      convert this using 1
      funext x
      change (if x ∈ m.sliceLcidListLookup.getD k [] then _ else m.channels x).sliceId = _
      split_ifs <;> rfl

lemma DlLcInv.addLogicalChannel (h : DlLcInv m) (lcid k : ℕ) (hle : lcid ≤ lcidMaxDrb) :
    ∃ m', m.addLogicalChannel lcid k = .ok m' ∧ DlLcInv m' := by
  unfold DlLogicalChannelManager.addLogicalChannel
  split
  · exact ⟨m, rfl, h⟩
  rename_i h0
  have h' := h.registerRanSlice k
  have hlt := lt_length_registerRanSlice m k
  unfold setLcidRanSlice
  rw [if_neg (not_not_intro hlt)]
  split
  · exact ⟨_, rfl, h'⟩
  obtain ⟨h1, h2, h3, h4, h5, h6, h7⟩ := resetLcidRanSlice_spec h'.slices lcid
  refine ⟨_, rfl, h'.of_slices (fun x => ?_) h2 h3 ?_ (h7 ▸ h'.ces)⟩
  · exact (active_setSlice lcid x (some k)).trans (h1 x)
  · have := h6.add h5 (by rw [h4]; exact hlt) hle h0
    rwa [← sliceId_update] at this

lemma DlLcInv.remLogicalChannel (h : DlLcInv m) (lcid k : ℕ) : DlLcInv (m.remLogicalChannel lcid k) := by
  unfold DlLogicalChannelManager.remLogicalChannel
  split
  · exact h
  · simp only
    split
    · exact (h.resetLcidRanSlice lcid).deregisterRanSlice k
    · exact h.resetLcidRanSlice lcid

lemma DlLcInv.deactivate (h : DlLcInv m) : DlLcInv m.deactivate where
  active_iff lcid := by
    simp only [DlLogicalChannelManager.deactivate, not_mem_nil, iff_false]
    split
    · simp
    · intro hact
      exact ‹¬ lcid ≤ lcidMaxDrb› (h.le lcid ((h.active_iff lcid).mp hact))
  nodup := nodup_nil
  ces := Nat.zero_le _
  le _ hmem := by cases hmem
  configured _ hmem := by cases hmem
  slices := by
    have : (fun lcid => (m.deactivate.channels lcid).sliceId) = fun lcid => (m.channels lcid).sliceId := by
      funext x
      simp only [DlLogicalChannelManager.deactivate]
      split <;> rfl
    rw [this]
    exact h.slices

lemma foldl_remove_spec (cs : List LogicalChannelConfig) (m : DlLogicalChannelManager)
    (h : SliceInv (fun lcid => (m.channels lcid).sliceId) m.sliceLcidListLookup) :
    (∀ x, ((cs.foldl (fun m c => (m.resetLcidRanSlice c.lcid).modifyChannel c.lcid reset)
        m).channels x).active = ((m.channels x).active && !(cs.map (·.lcid)).contains x)) ∧
      SliceInv (fun lcid => ((cs.foldl (fun m c => (m.resetLcidRanSlice c.lcid).modifyChannel c.lcid
        reset) m).channels lcid).sliceId)
        (cs.foldl (fun m c => (m.resetLcidRanSlice c.lcid).modifyChannel c.lcid reset)
          m).sliceLcidListLookup ∧
      (cs.foldl (fun m c => (m.resetLcidRanSlice c.lcid).modifyChannel c.lcid reset) m).pendingCes = m.pendingCes := by
  induction cs generalizing m with
  | nil => exact ⟨fun x => by simp, h, rfl⟩
  | cons c cs ih =>
    obtain ⟨h1, -, -, -, -, h6, h8⟩ := resetLcidRanSlice_spec h c.lcid
    have h7 : SliceInv (fun x => (((m.resetLcidRanSlice c.lcid).modifyChannel c.lcid
        reset).channels x).sliceId)
        ((m.resetLcidRanSlice c.lcid).modifyChannel c.lcid ChannelContext.reset).sliceLcidListLookup := by
      have := funext fun x => modifyChannel_congr (m := m.resetLcidRanSlice c.lcid) c.lcid x ChannelContext.reset
        ChannelContext.sliceId fun _ => rfl
      rw [this]
      exact h6
    obtain ⟨i1, i2, i3⟩ := ih _ h7
    refine ⟨fun x => ?_, i2, i3.trans h8⟩
    rw [foldl_cons, i1]
    by_cases hx : x = c.lcid
    · subst hx
      simp [DlLogicalChannelManager.modifyChannel, ChannelContext.reset]
    · have : (((m.resetLcidRanSlice c.lcid).modifyChannel c.lcid ChannelContext.reset).channels x).active =
          (m.channels x).active := by
        rw [← h1 x]
        simp [DlLogicalChannelManager.modifyChannel, update_of_ne hx]
      rw [this]
      simp [hx]

lemma DlLcInv.configure (h : DlLcInv m) {cfgs sorted : List LogicalChannelConfig}
    (hsorted : IsSorted cfgs sorted) (hnodup : (cfgs.map (·.lcid)).Nodup)
    (hle : ∀ c ∈ cfgs, c.lcid ≤ lcidMaxDrb) : DlLcInv (m.configure cfgs sorted) := by
  obtain ⟨h1, h2, h3⟩ := foldl_remove_spec ((m.channelConfigs.getD []).filter fun c =>
    !(cfgs.map (·.lcid)).contains c.lcid) m h.slices
  have hmem : ∀ x, x ∈ sorted.map (·.lcid) ↔ x ∈ cfgs.map (·.lcid) := fun x => (hsorted.1.map _).mem_iff
  refine ⟨fun x => ?_, (hsorted.1.map _).nodup_iff.mpr hnodup, fun x hx => ?_, fun x hx => ?_, ?_, h3 ▸ h.ces⟩
  · simp only [DlLogicalChannelManager.configure]
    rw [hmem]
    split
    next hx => simpa using hx
    next hx =>
      -- a channel that was active and is not configured any more has been removed
      refine iff_of_false (fun hact => ?_) hx
      rw [removeOldChannels, h1, Bool.and_eq_true] at hact
      obtain ⟨c, hc, rfl⟩ := mem_map.mp (h.configured x ((h.active_iff x).mp hact.1))
      have hnot := hact.2
      simp only [Bool.not_eq_true', contains_eq_mem, decide_eq_false_iff_not] at hnot
      exact hnot (mem_map_of_mem (mem_filter.mpr ⟨hc, by simpa using hx⟩))
  · obtain ⟨c, hc, rfl⟩ := mem_map.mp ((hmem x).mp hx)
    exact hle c hc
  · exact (hmem x).mp hx
  · have : (fun x => ((m.configure cfgs sorted).channels x).sliceId) =
        fun x => ((m.removeOldChannels cfgs).channels x).sliceId := by
      funext x
      simp only [DlLogicalChannelManager.configure]
      split <;> rfl
    rw [this]
    exact h2

/-- LCIDs of bearers, and an order that `std::sort` can leave. -/
def Admissible : DlLogicalChannelManager → DlLcAction → Prop
  | _, .configure cfgs sorted => IsSorted cfgs sorted ∧ (cfgs.map (·.lcid)).Nodup ∧ ∀ c ∈ cfgs, c.lcid ≤ lcidMaxDrb
  | _, .addLogicalChannel lcid _ => lcid ≤ lcidMaxDrb
  | _, .remLogicalChannel lcid _ => lcid ≤ lcidMaxDrb
  | _, .bufferStatus lcid _ => lcid ≤ lcidMaxDrb
  | _, .allocateMacSdu _ lcid => ∀ x ∈ lcid, x ≤ lcidMaxDrb
  | _, _ => True

lemma DlLcInv.allocateMacSduLcid (h : DlLcInv m) (lcid remBytes : ℕ) :
    DlLcInv (m.allocateMacSduLcid lcid remBytes).2 := by
  unfold DlLogicalChannelManager.allocateMacSduLcid
  simp only
  by_cases h0 : m.pendingBytesLcid lcid = 0 ∨ remBytes ≤ minMacSduSubheaderSize
  · rw [if_pos h0]
    exact h
  · rw [if_neg h0]
    dsimp only
    exact h.modifyChannel lcid (fun _ => rfl) fun _ => rfl

lemma DlLcInv.allocateMacSdu (h : DlLcInv m) (remBytes : ℕ) (lcid : Option ℕ) :
    DlLcInv (m.allocateMacSdu remBytes lcid).2 := by
  unfold DlLogicalChannelManager.allocateMacSdu
  split
  · exact h
  · exact h.allocateMacSduLcid _ remBytes

lemma length_replaceTaCmd {p : CePayload} {l l' : List MacCeInfo} (h : replaceTaCmd p l = some l') :
    l'.length = l.length := by
  induction l generalizing l' with
  | nil => cases h
  | cons ce rest ih =>
    unfold replaceTaCmd at h
    split at h
    · obtain rfl := Option.some.inj h
      rfl
    · obtain ⟨t, ht, rfl⟩ := Option.map_eq_some_iff.mp h
      simp [ih ht]

lemma DlLcInv.handleMacCeIndication (h : DlLcInv m) (ce : MacCeInfo) : DlLcInv (m.handleMacCeIndication ce).2 := by
  unfold DlLogicalChannelManager.handleMacCeIndication
  split
  · exact h.congr (fun _ => rfl) (fun _ => rfl) rfl rfl rfl h.ces
  split
  next ces hces =>
    split at hces
    · exact h.congr (fun _ => rfl) (fun _ => rfl) rfl rfl rfl ((length_replaceTaCmd hces).trans_le h.ces)
    · cases hces
  split
  · exact h
  · refine h.congr (fun _ => rfl) (fun _ => rfl) rfl rfl rfl ?_
    simp only [length_append, length_singleton]
    omega

lemma DlLcInv.allocateUeConResIdMacCe (h : DlLcInv m) (remBytes : ℕ) :
    DlLcInv (m.allocateUeConResIdMacCe remBytes).2 := by
  unfold DlLogicalChannelManager.allocateUeConResIdMacCe
  split
  · exact h
  split
  · exact h
  · exact h.congr (fun _ => rfl) (fun _ => rfl) rfl rfl rfl h.ces

lemma DlLcInv.allocateMacCe (h : DlLcInv m) (remBytes : ℕ) : DlLcInv (m.allocateMacCe remBytes).2 := by
  unfold DlLogicalChannelManager.allocateMacCe
  simp only
  split
  · exact h.allocateUeConResIdMacCe remBytes
  split
  · exact h
  rename_i ce rest hces
  split
  · exact h
  · refine h.congr (fun _ => rfl) (fun _ => rfl) rfl rfl rfl ?_
    have := h.ces
    rw [hces, length_cons] at this
    exact (Nat.le_succ _).trans this

lemma DlLcInv.step (h : DlLcInv m) {a : DlLcAction} (ha : Admissible m a) (hstep : m.step a = .ok m') : DlLcInv m' := by
  cases a with
  | configure cfgs sorted => cases hstep; exact h.configure ha.1 ha.2.1 ha.2.2
  | deactivate => cases hstep; exact h.deactivate
  | setFallbackState b => cases hstep; exact h.congr (fun _ => rfl) (fun _ => rfl) rfl rfl rfl h.ces
  | addLogicalChannel lcid k =>
    obtain ⟨m1, h1, h2⟩ := h.addLogicalChannel lcid k ha
    cases h1.symm.trans hstep
    exact h2
  | addUe k => cases hstep; exact h.registerRanSlice k
  | remLogicalChannel lcid k => cases hstep; exact h.remLogicalChannel lcid k
  | remUe k => cases hstep; exact h.deregisterRanSlice k
  | bufferStatus lcid bytes => cases hstep; exact h.modifyChannel lcid (fun _ => rfl) fun _ => rfl
  | macCe ce => cases hstep; exact h.handleMacCeIndication ce
  | allocateMacSdu remBytes lcid => cases hstep; exact h.allocateMacSdu remBytes lcid
  | allocateMacCe remBytes => cases hstep; exact h.allocateMacCe remBytes
  | allocateConRes remBytes => cases hstep; exact h.allocateUeConResIdMacCe remBytes

lemma DlLcInv.of_reach {b : Bool} (h : Reach DlLogicalChannelManager.step Admissible
    (DlLogicalChannelManager.init b) m) : DlLcInv m :=
  h.invariant (DlLcInv.init b) fun _ _ _ hi hc hs => hi.step hc hs

/-! ### The views -/

section Sums

lemma addUp_eq {init : ℕ} {xs : List ℕ} (h : init + xs.sum < 2 ^ 32) : addUp init xs = init + xs.sum := by
  induction xs generalizing init with
  | nil => rfl
  | cons x xs ih =>
    rw [sum_cons] at h
    rw [addUp, foldl_cons, wrap32, Nat.mod_eq_of_lt (by omega), ← addUp, ih (by omega), sum_cons]
    omega

lemma addUp_pos {init : ℕ} {xs : List ℕ} (h : init + xs.sum < 2 ^ 32) :
    0 < addUp init xs ↔ 0 < init ∨ ∃ x ∈ xs, 0 < x := by
  have hsum : 0 < xs.sum ↔ ∃ x ∈ xs, 0 < x := by
    rw [Nat.pos_iff_ne_zero, ne_eq, sum_eq_zero_iff]
    simp [Nat.pos_iff_ne_zero]
  rw [addUp_eq h, ← hsum]
  omega

lemma length_le_of_nodup {l : List ℕ} (h : l.Nodup) (hle : ∀ x ∈ l, x ≤ lcidMaxDrb) : l.length ≤ 33 := by
  have hsub : l ⊆ range 33 := fun x hx => by
    have := hle x hx
    rw [mem_range]
    unfold lcidMaxDrb at this
    omega
  simpa using (subperm_of_subset h hsub).length_le

end Sums

/-- The channel is active and has data. -/
def HasData (m : DlLogicalChannelManager) (lcid : ℕ) : Prop :=
  (m.channels lcid).active = true ∧ 0 < (m.channels lcid).bufSt

/-- Indications are capped at `2 ^ 24`; allocations add overhead. -/
def Bounded (m : DlLogicalChannelManager) : Prop := ∀ lcid, (m.channels lcid).bufSt ≤ 2 ^ 26

lemma hasPendingBytesLcid_iff (lcid : ℕ) : m.hasPendingBytesLcid lcid = true ↔ HasData m lcid := by
  simp [hasPendingBytesLcid, HasData]

lemma getMacSduSubheaderSize_le (payload : ℕ) : getMacSduSubheaderSize payload ≤ 3 := by
  unfold getMacSduSubheaderSize maxMacSduSubheaderSize minMacSduSubheaderSize
  split <;> (try split) <;> omega

section Bounded

variable (hb : Bounded m)

include hb

variable (lcid : ℕ)

lemma Bounded.requiredBytes_le : requiredBytes (m.channels lcid).bufSt ≤ 2 ^ 26 + 3 := by
  have := hb lcid
  have h3 := getMacSduSubheaderSize_le (m.channels lcid).bufSt
  unfold requiredBytes wrap32 getMacSduRequiredBytes
  omega

lemma Bounded.requiredBytes_pos : 0 < requiredBytes (m.channels lcid).bufSt ↔ 0 < (m.channels lcid).bufSt := by
  have := hb lcid
  have h3 := getMacSduSubheaderSize_le (m.channels lcid).bufSt
  have h0 : (m.channels lcid).bufSt = 0 → getMacSduSubheaderSize (m.channels lcid).bufSt = 0 := fun h => by
    rw [h]
    rfl
  unfold requiredBytes wrap32 getMacSduRequiredBytes
  omega

lemma Bounded.channelBytes_pos :
    0 < (if (m.channels lcid).active then requiredBytes (m.channels lcid).bufSt else 0) ↔ HasData m lcid := by
  unfold HasData
  split
  next ha => rw [hb.requiredBytes_pos, and_iff_right ha]
  next ha => simp [ha]

lemma Bounded.channelBytes_le :
    (if (m.channels lcid).active then requiredBytes (m.channels lcid).bufSt else 0) ≤ 2 ^ 26 + 3 := by
  split
  · exact hb.requiredBytes_le lcid
  · omega

lemma Bounded.pendingBytesLcid_le : m.pendingBytesLcid lcid ≤ 2 ^ 26 + 3 := by
  unfold pendingBytesLcid
  split
  · exact hb.requiredBytes_le lcid
  · omega

variable (h : DlLcInv m)

include h

lemma DlLcInv.pendingBytesLcid_pos : 0 < m.pendingBytesLcid lcid ↔ HasData m lcid := by
  rw [← hb.channelBytes_pos]
  unfold pendingBytesLcid isActive
  by_cases ha : (m.channels lcid).active = true
  · have hle := h.le lcid ((h.active_iff lcid).mp ha)
    simp [ha, hle]
  · simp [ha]

omit hb in
lemma DlLcInv.pendingCeBytes_spec : m.pendingCeBytes ≤ 5121 * 7 ∧ (0 < m.pendingCeBytes ↔ m.hasPendingCes = true) := by
  have hcon : m.pendingConResCeBytes ≤ 7 := by
    unfold pendingConResCeBytes
    split <;> decide
  have hce : ∀ ce, ceBytes ce ≤ 7 ∧ 0 < ceBytes ce := fun ce => by
    unfold ceBytes sizeofCe fixedSizedMacCeSubheaderSize
    split_ifs <;> omega
  have hsum : (m.pendingCes.map ceBytes).sum ≤ 5120 * 7 := sum_map_le (fun ce _ => (hce ce).1) h.ces
  have hlt : m.pendingConResCeBytes + (m.pendingCes.map ceBytes).sum < 2 ^ 32 := by omega
  refine ⟨?_, ?_⟩
  · rw [pendingCeBytes, addUp_eq hlt]
    omega
  · rw [pendingCeBytes, addUp_pos hlt, hasPendingCes, Bool.or_eq_true]
    refine or_congr ?_ ?_
    · unfold pendingConResCeBytes isConResIdPending
      cases m.pendingConResId <;> decide
    · cases hp : m.pendingCes with
      | nil => simp
      | cons ce rest => simpa using .inl (hce ce).2

lemma DlLcInv.sliceBearerBytes_spec (k : ℕ) :
    m.sliceBearerBytes k ≤ 33 * (2 ^ 26 + 3) ∧
      (0 < m.sliceBearerBytes k ↔ ∃ lcid ∈ m.sliceLcids k, HasData m lcid) := by
  have hlen : (m.sliceLcids k).length ≤ 33 :=
    length_le_of_nodup (h.slices.nodup k) fun x hx => h.slices.le x k ((h.slices.mem_iff x k).mp hx)
  have hsum := sum_map_le (fun x _ => hb.channelBytes_le x) hlen
  refine ⟨?_, ?_⟩
  · rw [sliceBearerBytes, addUp_eq (by omega)]
    omega
  · rw [sliceBearerBytes, addUp_pos (by omega)]
    simp [← hb.channelBytes_pos]

lemma DlLcInv.hasPendingBytes_iff : m.hasPendingBytes = true ↔ 0 < m.pendingBytes := by
  have hce := h.pendingCeBytes_spec
  have h0 := hb.pendingBytesLcid_le lcidSrb0
  have h1 := hb.pendingBytesLcid_le lcidSrb1
  unfold hasPendingBytes pendingBytes
  split
  · have hcon : m.pendingConResCeBytes ≤ 7 ∧ (0 < m.pendingConResCeBytes ↔ m.isConResIdPending = true) := by
      unfold pendingConResCeBytes isConResIdPending
      cases m.pendingConResId <;> decide
    rw [Bool.or_eq_true, Bool.or_eq_true, hasPendingBytesLcid_iff, hasPendingBytesLcid_iff, ← hcon.2,
      ← h.pendingBytesLcid_pos hb, ← h.pendingBytesLcid_pos hb]
    unfold wrap32
    omega
  · have hle : ∀ x ∈ m.sortedChannels, (if x ≠ lcidSrb0 then m.pendingBytesLcid x else 0) ≤ 2 ^ 26 + 3 :=
      fun x _ => by
        split
        · exact hb.pendingBytesLcid_le x
        · omega
    have hsum := sum_map_le hle (length_le_of_nodup h.nodup h.le)
    rw [addUp_pos (by omega), Bool.or_eq_true, ← hce.2]
    refine or_congr Iff.rfl ?_
    simp only [any_eq_true, mem_map, Bool.and_eq_true, decide_eq_true_eq]
    constructor
    · rintro ⟨x, hx, hx0, ha, hd⟩
      refine ⟨_, ⟨x, hx, rfl⟩, ?_⟩
      rw [if_pos hx0, h.pendingBytesLcid_pos hb]
      exact ⟨ha, hd⟩
    · rintro ⟨_, ⟨x, hx, rfl⟩, hpos⟩
      split at hpos
      next hx0 =>
        obtain ⟨ha, hd⟩ := (h.pendingBytesLcid_pos hb x).mp hpos
        exact ⟨x, hx, hx0, ha, hd⟩
      · omega

/-- Control elements are pending, and only SRB0 or SRB1 outside of the SRB slice have data. -/
def Exposed (m : DlLogicalChannelManager) : Prop :=
  m.fallbackState = false ∧ m.hasSlice srbRanSliceId = true ∧ m.hasPendingCes = true ∧ (∃ lcid, HasData m lcid) ∧
    ∀ lcid, HasData m lcid → lcid ≤ lcidSrb1 ∧ (m.channels lcid).sliceId ≠ some srbRanSliceId

omit hb in
lemma DlLcInv.hasPendingBytesSlice_iff (k : ℕ) :
    m.hasPendingBytesSlice k = true ↔ m.fallbackState = false ∧ m.hasSlice k = true ∧
      ((∃ lcid ∈ m.sliceLcids k, HasData m lcid) ∨
        k = srbRanSliceId ∧ m.hasPendingCes = true ∧ ∀ lcid, ¬ HasData m lcid) := by
  have hany : ((m.sliceLcids k).any fun lcid => (m.channels lcid).active && (m.channels lcid).bufSt > 0) = true ↔
      ∃ lcid ∈ m.sliceLcids k, HasData m lcid := by
    simp [HasData]
  unfold hasPendingBytesSlice
  by_cases hf : m.fallbackState = false ∧ m.hasSlice k = true
  · rw [if_neg (by simp [hf])]
    simp only [hf.1, hf.2, true_and]
    by_cases ha : ∃ lcid ∈ m.sliceLcids k, HasData m lcid
    · rw [if_pos (hany.mpr ha)]
      exact iff_of_true rfl (.inl ha)
    · rw [if_neg (mt hany.mp ha), or_iff_right ha]
      by_cases hk : k = srbRanSliceId ∧ m.hasPendingCes = true
      · rw [if_pos (by simp [hk])]
        simp only [hk, true_and, Bool.not_eq_true', any_eq_false, Bool.and_eq_true, decide_eq_true_eq,
          hasPendingBytesLcid_iff]
        refine ⟨fun hall lcid hd => ?_, fun hall lcid _ hd => hall lcid hd.2⟩
        -- a bearer with data is in the list of the sorted ones, and not in the SRB slice
        refine hall lcid ((h.active_iff lcid).mp hd.1) ⟨fun hs => ha ⟨lcid, ?_, hd⟩, hd⟩
        rw [hk.1]
        exact (h.slices.mem_iff lcid _).mpr hs
      · rw [if_neg (by simpa using hk)]
        refine iff_of_false (by simp) fun hc => hk ⟨hc.1, hc.2.1⟩
  · rw [if_pos (by cases hfb : m.fallbackState <;> cases hs : m.hasSlice k <;> simp_all)]
    refine iff_of_false (by simp) fun hc => hf ⟨hc.1, hc.2.1⟩

lemma DlLcInv.pendingBytesSlice_pos_iff (k : ℕ) :
    0 < m.pendingBytesSlice k ↔ m.fallbackState = false ∧ m.hasSlice k = true ∧
      ((∃ lcid ∈ m.sliceLcids k, HasData m lcid) ∨
        k = srbRanSliceId ∧ m.hasPendingCes = true ∧ ∀ lcid > lcidSrb1, ¬ HasData m lcid) := by
  obtain ⟨c1, c2⟩ := h.pendingCeBytes_spec
  obtain ⟨b1, b2⟩ := h.sliceBearerBytes_spec hb k
  unfold pendingBytesSlice
  by_cases hf : m.fallbackState = false ∧ m.hasSlice k = true
  · rw [if_neg (by simp [hf])]
    simp only [hf.1, hf.2, true_and]
    rw [← b2, ← c2]
    by_cases hc : 0 < m.pendingCeBytes
    · rw [if_pos hc]
      by_cases ht : 0 < m.sliceBearerBytes k
      · rw [if_pos ht]
        unfold wrap32
        omega
      · rw [if_neg ht]
        have hsome : (m.sortedChannels.any fun lcid => lcid > lcidSrb1 && m.pendingBytesLcid lcid > 0) = true ↔
            ¬ ∀ lcid > lcidSrb1, ¬ HasData m lcid := by
          simp only [any_eq_true, Bool.and_eq_true, decide_eq_true_eq, gt_iff_lt, h.pendingBytesLcid_pos hb]
          push Not
          exact ⟨fun ⟨x, _, hx⟩ => ⟨x, hx⟩, fun ⟨x, hx⟩ => ⟨x, (h.active_iff x).mp hx.2.1, hx⟩⟩
        by_cases hk : k = srbRanSliceId
        · rw [if_pos hk]
          by_cases hall : ∀ lcid > lcidSrb1, ¬ HasData m lcid
          · rw [if_neg (fun hs => hsome.mp hs hall)]
            exact iff_of_true hc (.inr ⟨hk, hc, hall⟩)
          · rw [if_pos (hsome.mpr hall)]
            refine iff_of_false (by simp) ?_
            rintro (hpos | ⟨-, -, h2⟩)
            · exact ht hpos
            · exact hall h2
        · rw [if_neg hk]
          simp [hk]
    · rw [if_neg hc, or_iff_left fun hr => hc hr.2.1]
  · rw [if_pos (by cases hfb : m.fallbackState <;> cases hs : m.hasSlice k <;> simp_all)]
    refine iff_of_false (by simp) fun hc => hf ⟨hc.1, hc.2.1⟩

lemma DlLcInv.slices_agree_iff : (∀ k, m.hasPendingBytesSlice k = true ↔ 0 < m.pendingBytesSlice k) ↔ ¬ Exposed m := by
  constructor
  · rintro hag ⟨hf, hs, hc, ⟨x, hx⟩, hall⟩
    have h1 : 0 < m.pendingBytesSlice srbRanSliceId := by
      rw [h.pendingBytesSlice_pos_iff hb]
      exact ⟨hf, hs, .inr ⟨rfl, hc, fun lcid hlt hd => absurd (hall lcid hd).1 (by omega)⟩⟩
    rw [← hag, h.hasPendingBytesSlice_iff] at h1
    obtain ⟨-, -, ⟨lcid, hmem, hd⟩ | ⟨-, -, hno⟩⟩ := h1
    · exact (hall lcid hd).2 ((h.slices.mem_iff lcid _).mp hmem)
    · exact hno x hx
  · intro hex k
    rw [h.hasPendingBytesSlice_iff, h.pendingBytesSlice_pos_iff hb]
    refine and_congr_right fun hf => and_congr_right fun hs => ?_
    by_cases ha : ∃ lcid ∈ m.sliceLcids k, HasData m lcid
    · exact iff_of_true (.inl ha) (.inl ha)
    rw [or_iff_right ha, or_iff_right ha]
    refine and_congr_right fun hk => and_congr_right fun hc => ⟨fun hall x _ => hall x, fun hall x hx => ?_⟩
    subst hk
    refine hex ⟨hf, hs, hc, ⟨x, hx⟩, fun y hy => ⟨?_, fun hys => ha ⟨y, (h.slices.mem_iff y _).mpr hys, hy⟩⟩⟩
    by_contra hlt
    exact hall y (by omega) hy

end Bounded

/-- Every active channel but SRB0 has a slice, and SRB1 the slice of the SRBs. -/
def Assigned (m : DlLogicalChannelManager) : Prop :=
  (∀ lcid, lcid ≠ lcidSrb0 → (m.channels lcid).active = true → ∃ k, (m.channels lcid).sliceId = some k) ∧
    (m.channels lcidSrb1).sliceId = some srbRanSliceId

/-- All views say that nothing is pending. -/
def NothingPending (m : DlLogicalChannelManager) : Prop :=
  m.hasPendingBytes = false ∧ m.pendingBytes = 0 ∧ m.hasPendingCes = false ∧ m.pendingCeBytes = 0 ∧
    m.totalPendingBytes = 0 ∧ (∀ k, m.hasPendingBytesSlice k = false ∧ m.pendingBytesSlice k = 0) ∧
    ∀ lcid, m.hasPendingBytesLcid lcid = false ∧ m.pendingBytesLcid lcid = 0

lemma DlLcInv.hasSlice_of_sliceId (h : DlLcInv m) {lcid k : ℕ} (hk : (m.channels lcid).sliceId = some k) :
    lcid ∈ m.sliceLcids k ∧ m.hasSlice k = true := by
  have hmem : lcid ∈ m.sliceLcids k := (h.slices.mem_iff lcid k).mpr hk
  refine ⟨hmem, ?_⟩
  unfold hasSlice
  cases hl : m.sliceLcids k with
  | nil => rw [hl] at hmem; cases hmem
  | cons x xs => rfl

lemma DlLcInv.reported_iff (h : DlLcInv m) (hb : Bounded m) (hf : m.fallbackState = false) (ha : Assigned m)
    (hd : m.hasPendingCes = true ∨ ∃ lcid, lcid ≠ lcidSrb0 ∧ HasData m lcid) :
    (∃ k, 0 < m.pendingBytesSlice k) ∧ ((∃ k, m.hasPendingBytesSlice k = true) ↔ ¬ Exposed m) := by
  obtain ⟨hmem1, hs1⟩ := h.hasSlice_of_sliceId ha.2
  by_cases hx : ∃ lcid, lcid ≠ lcidSrb0 ∧ HasData m lcid
  · obtain ⟨x, hx0, hxd⟩ := hx
    obtain ⟨k, hk⟩ := ha.1 x hx0 hxd.1
    obtain ⟨hmem, hs⟩ := h.hasSlice_of_sliceId hk
    refine ⟨⟨k, (h.pendingBytesSlice_pos_iff hb k).mpr ⟨hf, hs, .inl ⟨x, hmem, hxd⟩⟩⟩, iff_of_true
      ⟨k, (h.hasPendingBytesSlice_iff k).mpr ⟨hf, hs, .inl ⟨x, hmem, hxd⟩⟩⟩ ?_⟩
    rintro ⟨-, -, -, -, hall⟩
    obtain ⟨hle, hne⟩ := hall x hxd
    -- the bearer is SRB1, which is in the SRB slice
    have : x = lcidSrb1 := by
      unfold lcidSrb0 lcidSrb1 at *
      omega
    exact hne (this ▸ ha.2)
  · have hc : m.hasPendingCes = true := hd.resolve_right hx
    have hsrb0 : ∀ x, HasData m x → x = lcidSrb0 := fun x hxd => by
      by_contra hne
      exact hx ⟨x, hne, hxd⟩
    have hno : ∀ k, ¬ ∃ lcid ∈ m.sliceLcids k, HasData m lcid := by
      rintro k ⟨x, hmem, hxd⟩
      have := (h.slices.mem_iff x k).mp hmem
      rw [hsrb0 x hxd, h.slices.srb0] at this
      cases this
    refine ⟨⟨srbRanSliceId, (h.pendingBytesSlice_pos_iff hb _).mpr ⟨hf, hs1, .inr ⟨rfl, hc, fun x hlt hxd => ?_⟩⟩⟩,
      ?_, fun hex => ?_⟩
    · rw [hsrb0 x hxd] at hlt
      exact absurd hlt (by decide)
    · rintro ⟨k, hk⟩ ⟨-, -, -, ⟨x, hxd⟩, -⟩
      obtain ⟨-, -, h1 | ⟨-, -, h1⟩⟩ := (h.hasPendingBytesSlice_iff k).mp hk
      · exact hno k h1
      · exact h1 x hxd
    · refine ⟨srbRanSliceId, (h.hasPendingBytesSlice_iff _).mpr ⟨hf, hs1, .inr ⟨rfl, hc, fun x hxd => ?_⟩⟩⟩
      refine hex ⟨hf, hs1, hc, ⟨x, hxd⟩, fun y hyd => ?_⟩
      have hy := hsrb0 y hyd
      subst hy
      refine ⟨by decide, ?_⟩
      have hnone : (m.channels lcidSrb0).sliceId = none := h.slices.srb0
      rw [hnone]
      simp

lemma DlLcInv.deactivate_nothingPending_iff (h : DlLcInv m) :
    NothingPending m.deactivate ↔ m.pendingConResId = false := by
  have hd := h.deactivate
  have hch : ∀ x, (m.deactivate.channels x).active = false := fun x => by
    cases hx : (m.deactivate.channels x).active with
    | false => rfl
    | true => exact absurd ((hd.active_iff x).mp hx) not_mem_nil
  have hcon : m.deactivate.pendingConResId = m.pendingConResId := rfl
  have hces : m.deactivate.pendingCes = [] := rfl
  have hsorted : m.deactivate.sortedChannels = [] := rfl
  constructor
  · rintro ⟨-, -, h3, -⟩
    rw [hasPendingCes, hcon, Bool.or_eq_false_iff] at h3
    exact h3.1
  · intro hno
    rw [← hcon] at hno
    have hce : m.deactivate.pendingCeBytes = 0 := by
      simp [pendingCeBytes, pendingConResCeBytes, isConResIdPending, hno, hces, addUp]
    have hlcid : ∀ x, m.deactivate.hasPendingBytesLcid x = false ∧ m.deactivate.pendingBytesLcid x = 0 := fun x => by
      simp [hasPendingBytesLcid, pendingBytesLcid, isActive, hch]
    have hces' : m.deactivate.hasPendingCes = false := by simp [hasPendingCes, hno, hces]
    have hzero : ∀ n, addUp 0 (replicate n 0) = 0 := fun n => by
      induction n with
      | zero => rfl
      | succ n ih => exact ih
    refine ⟨?_, ?_, hces', hce, ?_, fun k => ⟨?_, ?_⟩, hlcid⟩
    · simp [hasPendingBytes, isConResIdPending, hno, hlcid, hces', hsorted]
    · simp [pendingBytes, pendingConResCeBytes, isConResIdPending, hno, hlcid, hce, hsorted, addUp, wrap32]
    · simp [totalPendingBytes, hce, hsorted, addUp]
    · simp [hasPendingBytesSlice, hch, hces']
    · simp [pendingBytesSlice, sliceBearerBytes, hce, hch, hzero]

/-- **The views of the pending data** agree iff the state is not exposed, and `deactivate` leaves nothing pending iff no
contention resolution identity was. -/
theorem pendingViews_iff {b : Bool}
    (hr : Reach DlLogicalChannelManager.step Admissible (DlLogicalChannelManager.init b) m) (hb : Bounded m) :
    ((∀ k, m.hasPendingBytesSlice k = true ↔ 0 < m.pendingBytesSlice k) ↔ ¬ Exposed m) ∧
      (m.hasPendingBytes = true ↔ 0 < m.pendingBytes) ∧
      (m.fallbackState = false → Assigned m → (m.hasPendingCes = true ∨ ∃ lcid, lcid ≠ lcidSrb0 ∧ HasData m lcid) →
        (∃ k, 0 < m.pendingBytesSlice k) ∧ ((∃ k, m.hasPendingBytesSlice k = true) ↔ ¬ Exposed m)) ∧
      (NothingPending m.deactivate ↔ m.pendingConResId = false) := by
  have h := DlLcInv.of_reach hr
  exact ⟨h.slices_agree_iff hb, h.hasPendingBytes_iff hb, fun hf ha hd => h.reported_iff hb hf ha hd,
    h.deactivate_nothingPending_iff⟩

def srbCfgs : List LogicalChannelConfig := [⟨0, none⟩, ⟨1, none⟩]

def srbActions : List DlLcAction :=
  [.configure srbCfgs srbCfgs, .addLogicalChannel 1 0, .macCe ⟨lcidTaCmd, .taCmd ⟨0, 33⟩⟩]

def admissibleCheck (_ : DlLogicalChannelManager) : DlLcAction → Bool
  | .configure cfgs sorted =>
    decide (IsSorted cfgs sorted ∧ (cfgs.map (·.lcid)).Nodup ∧ ∀ c ∈ cfgs, c.lcid ≤ lcidMaxDrb)
  | .addLogicalChannel lcid _ => lcid ≤ lcidMaxDrb
  | .bufferStatus lcid _ => lcid ≤ lcidMaxDrb
  | .macCe _ => true
  | _ => false

lemma admissible_of_check (m : DlLogicalChannelManager) (a : DlLcAction) (h : admissibleCheck m a = true) :
    Admissible m a := by
  cases a <;> simp_all [admissibleCheck, Admissible]

/-- A timing advance command is pending, and SRB1 has 100 bytes. -/
theorem pendingViews_iff_srb1 :
    ∃ m, Reach DlLogicalChannelManager.step Admissible (DlLogicalChannelManager.init false) m ∧
      m.hasPendingBytesSlice 0 = true ∧ m.pendingBytesSlice 0 = 104 ∧
      ((∀ k, m.hasPendingBytesSlice k = true ↔ 0 < m.pendingBytesSlice k) ↔ ¬ Exposed m) := by
  obtain ⟨m, hm⟩ : ∃ m, run step admissibleCheck (init false)
      (srbActions ++ [.bufferStatus 1 100]) = some m := ⟨_, rfl⟩
  have hr := Reach.of_run admissible_of_check .init hm
  obtain rfl := Option.some.inj hm
  refine ⟨_, hr, by decide, by decide, (pendingViews_iff hr fun lcid => ?_).1⟩
  match lcid with
  | 0 => decide
  | 1 => decide
  | lcid + 2 => exact Nat.zero_le _

/-- SRB0 has data: the SRB slice counts two bytes of a command and says that nothing is pending. -/
theorem pendingViews_disagree :
    (∃ m, Reach DlLogicalChannelManager.step Admissible (DlLogicalChannelManager.init false) m ∧
      m.hasPendingBytesSlice 0 = false ∧ m.pendingBytesSlice 0 = 2) ∧
    ∃ m, Reach DlLogicalChannelManager.step Admissible (DlLogicalChannelManager.init false) m ∧
      m.deactivate.hasPendingBytes = true ∧ m.deactivate.pendingBytes = 7 := by
  constructor
  · obtain ⟨m, hm⟩ : ∃ m, run step admissibleCheck (init false)
        (srbActions ++ [.bufferStatus 0 10]) = some m := ⟨_, rfl⟩
    have hr := Reach.of_run admissible_of_check .init hm
    obtain rfl := Option.some.inj hm
    exact ⟨_, hr, by decide, by decide⟩
  · obtain ⟨m, hm⟩ : ∃ m, run step admissibleCheck (init false)
        [.macCe ⟨lcidUeConResId, .dummy⟩] = some m := ⟨_, rfl⟩
    have hr := Reach.of_run admissible_of_check .init hm
    obtain rfl := Option.some.inj hm
    exact ⟨_, hr, by decide, by decide⟩

end DlLogicalChannelManager

end SrsRan.Sched
