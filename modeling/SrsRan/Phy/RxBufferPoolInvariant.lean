import SrsRan.Phy.RxBufferPool

/-!
# The invariant of the receive buffers

`Resting` describes a buffer that the thread of the pool does not change, and `Target` the one that it changes.
`Inv.of_local` is the frame rule for a step that changes one buffer, with a form for each kind of thread.
-/

namespace SrsRan.Phy

open Lib Lib.Run Support List
open Function (update update_self update_of_ne)

namespace RxBufferPool

variable (cfg : RxBufferPoolConfig) (s : RxBufferPool)

/-! ### The invariant -/

/-- A buffer that the thread of the pool does not change. -/
structure Resting (i : ℕ) : Prop where
  available : (s.buffers i).currentState = .available → (s.buffers i).codeblockIds = [] ∧ (s.buffers i).freed = 0
  releasing : (s.buffers i).releasing = true → (s.buffers i).currentState = .locked
  entry : (s.buffers i).currentState ≠ .available → ∃ id, s.identifiers i = some id
  content : ∀ id, s.identifiers i = some id → (s.buffers i).currentState ≠ .available →
    (s.buffers i).releasing = false →
      (s.buffers i).freed = 0 ∧ (s.buffers i).codeblockIds.length = (s.buffers i).crc.length ∧
        s.Decoded (s.buffers i) id
  left : ∀ id, s.identifiers i = some id → (s.buffers i).currentState = .reserved →
    s.left id = some ((s.buffers i).codeblockIds, (s.buffers i).crc)

/-- The buffer `i` is being filled for the request. -/
structure Reserving (r : RxReserve) (i : ℕ) (before : Option RxContent) : Prop where
  freed : (s.buffers i).freed = 0
  entry : ∀ id, s.identifiers i = some id → id = r.id
  other : ∀ j < cfg.nofBuffers, s.identifiers j = some r.id → j = i
  retransmission : r.newData = false → before = some ((s.buffers i).codeblockIds, (s.buffers i).crc) ∧
    (s.buffers i).codeblockIds.length = r.nofCodeblocks ∧ (s.buffers i).crc.length = r.nofCodeblocks ∧
      s.identifiers i = some r.id ∧ s.Decoded (s.buffers i) r.id

/-- The buffer that the pool works on is not locked. -/
def Target : Prop :=
  (∀ i, s.phase.target = some i →
    i < cfg.nofBuffers ∧ (s.buffers i).currentState ≠ .locked ∧ (s.buffers i).releasing = false) ∧
  match s.phase with
  | .reserving r i before => s.Reserving cfg r i before
  | .expiring _ i => (s.buffers i).currentState = .available
  | _ => True

/-- What all reachable states satisfy. -/
structure Inv : Prop where
  ledger : Ledger (Multiset.range cfg.nofCodeblocks) cfg.nofBuffers s.freeList fun i => (s.buffers i).owned
  oneEntry : ∀ i j id, i < cfg.nofBuffers → j < cfg.nofBuffers → s.identifiers i = some id → s.identifiers j = some id →
    i = j
  nodup : s.holders.Nodup
  mem_holders : ∀ i, i ∈ s.holders ↔ i < cfg.nofBuffers ∧ (s.buffers i).currentState = .locked
  resting : ∀ i < cfg.nofBuffers, s.phase.target ≠ some i → s.Resting i
  target : s.Target cfg
  unchanged : ∀ i, s.Usable i → (s.buffers i).codeblockIds = s.granted i
  retransmission : ∀ g ∈ s.grants, g.request.newData = false → g.before = some g.content

/-- The step changes the buffer `i` only. -/
structure Local (s s' : RxBufferPool) (i : ℕ) : Prop where
  buffers : ∀ j, j ≠ i → s'.buffers j = s.buffers j
  identifiers : ∀ j, j ≠ i → s'.identifiers j = s.identifiers j
  target : ∀ j, j ≠ i → (s'.phase.target = some j ↔ s.phase.target = some j)
  holders : ∀ j, j ≠ i → (j ∈ s'.holders ↔ j ∈ s.holders)
  granted : ∀ j, j ≠ i → s'.granted j = s.granted j
  data : ∀ cbId, cbId ∉ (s.buffers i).owned → s'.data cbId = s.data cbId
  history : ∀ id j, j < cfg.nofBuffers → j ≠ i → s.identifiers j = some id →
    s'.generation id = s.generation id ∧ s'.left id = s.left id
  entry : ∀ id j, j < cfg.nofBuffers → j ≠ i → s'.identifiers i = some id → s.identifiers j ≠ some id
  ledger : (s'.freeList ++ (s'.buffers i).owned).Perm (s.freeList ++ (s.buffers i).owned)

variable {cfg} {s} {s' : RxBufferPool}

variable {b : RxBuffer} {id : BufferId} {i j cbId slot : ℕ} {phase : RxPoolPhase} {r : RxReserve}
   {before : Option RxContent}

lemma Decoded.congr (h : s.Decoded b id) (hfreed : b.freed = 0)
    (hdata : ∀ cbId ∈ b.owned, s'.data cbId = s.data cbId) (hgen : s'.generation id = s.generation id) :
    s'.Decoded b id := by
  intro j hj
  obtain ⟨cbId, hcb, hbits⟩ := h j hj
  refine ⟨cbId, hcb, ?_⟩
  rw [hdata cbId ?_, hbits, hgen]
  rw [RxBuffer.owned, hfreed, drop_zero]
  exact mem_of_getElem? hcb

section

variable (h : s.Inv cfg)
include h

lemma Inv.not_mem_owned (hi : i < cfg.nofBuffers) (hj : j < cfg.nofBuffers) (hne : j ≠ i)
    (hmem : cbId ∈ (s.buffers j).owned) : cbId ∉ (s.buffers i).owned := fun hmem' =>
  hne (h.ledger.owner_unique (Multiset.nodup_range _) hj hi hmem hmem')

lemma Inv.resting_of_local (hi : i < cfg.nofBuffers) (hl : Local cfg s s' i)
    (hj : j < cfg.nofBuffers) (hne : j ≠ i) (htarget : s'.phase.target ≠ some j) : s'.Resting j := by
  have hr := h.resting j hj (fun ht => htarget ((hl.target j hne).mpr ht))
  have hb := hl.buffers j hne
  have hid := hl.identifiers j hne
  refine ⟨?_, ?_, ?_, ?_, ?_⟩
  · rw [hb]
    exact hr.available
  · rw [hb]
    exact hr.releasing
  · rw [hb, hid]
    exact hr.entry
  · rw [hb, hid]
    intro id hident hstate hrel
    obtain ⟨hfreed, hlen, hdec⟩ := hr.content id hident hstate hrel
    exact ⟨hfreed, hlen, hdec.congr hfreed (fun cbId hmem => hl.data cbId (h.not_mem_owned hi hj hne hmem))
      (hl.history id j hj hne hident).1⟩
  · rw [hb, hid]
    intro id hident hstate
    rw [(hl.history id j hj hne hident).2]
    exact hr.left id hident hstate

/-- **Frame rule.**  What is left to show for a step that changes one buffer. -/
theorem Inv.of_local (hi : i < cfg.nofBuffers) (hl : Local cfg s s' i)
    (hnodup : s'.holders.Nodup) (hholder : i ∈ s'.holders ↔ (s'.buffers i).currentState = .locked)
    (hresting : s'.phase.target ≠ some i → s'.Resting i) (htarget : s'.Target cfg)
    (hunchanged : s'.Usable i → (s'.buffers i).codeblockIds = s'.granted i)
    (hgrants : ∀ g ∈ s'.grants, g.request.newData = false → g.before = some g.content) : s'.Inv cfg where
  ledger := h.ledger.update hi (fun j hj => by rw [hl.buffers j hj]) hl.ledger
  oneEntry j k id hj hk hident hident' := by
    by_cases hji : j = i
    · by_cases hki : k = i
      · rw [hji, hki]
      · rw [hl.identifiers k hki] at hident'
        rw [hji] at hident
        exact absurd hident' (hl.entry id k hk hki hident)
    · rw [hl.identifiers j hji] at hident
      by_cases hki : k = i
      · rw [hki] at hident'
        exact absurd hident (hl.entry id j hj hji hident')
      · rw [hl.identifiers k hki] at hident'
        exact h.oneEntry j k id hj hk hident hident'
  nodup := hnodup
  mem_holders j := by
    by_cases hji : j = i
    · rw [hji, hholder]
      exact ⟨fun hs => ⟨hi, hs⟩, fun hs => hs.2⟩
    · rw [hl.holders j hji, hl.buffers j hji]
      exact h.mem_holders j
  resting j hj ht := by
    by_cases hji : j = i
    · rw [hji] at ht ⊢
      exact hresting ht
    · exact h.resting_of_local hi hl hj hji ht
  target := htarget
  unchanged j hu := by
    by_cases hji : j = i
    · rw [hji] at hu ⊢
      exact hunchanged hu
    · rw [hl.buffers j hji, hl.granted j hji]
      refine h.unchanged j ⟨(hl.holders j hji).mp hu.1, ?_⟩
      rw [← hl.buffers j hji]
      exact hu.2
  retransmission := hgrants

lemma Inv.target_ne (hi : i ∈ s.holders) : s.phase.target ≠ some i := fun ht =>
  (h.target.1 i ht).2.1 ((h.mem_holders i).mp hi).2

lemma Inv.target_of_holder (hi : i ∈ s.holders) (hl : Local cfg s s' i)
    (hphase : s'.phase = s.phase) (hident : s'.identifiers = s.identifiers) (hgen : s'.generation = s.generation) :
    s'.Target cfg := by
  have hne := h.target_ne hi
  have hlt := ((h.mem_holders i).mp hi).1
  have hother : ∀ j, s.phase.target = some j → j ≠ i := fun j hj heq => hne (heq ▸ hj)
  refine ⟨fun j hj => ?_, ?_⟩
  · rw [hphase] at hj
    rw [hl.buffers j (hother j hj)]
    exact h.target.1 j hj
  · have hphase' := h.target.2
    have hlt' := h.target.1
    rw [hphase]
    cases hs : s.phase with
    | idle => trivial
    | failing j => trivial
    | running slot j => trivial
    | expiring slot j =>
      rw [hs] at hphase' hother
      show (s'.buffers j).currentState = .available
      rw [hl.buffers j (hother j rfl)]
      exact hphase'
    | reserving r j before =>
      rw [hs] at hphase' hother hlt'
      have hb := hl.buffers j (hother j rfl)
      have hr : s.Reserving cfg r j before := hphase'
      refine ⟨by rw [hb]; exact hr.freed, by rw [hident]; exact hr.entry, by rw [hident]; exact hr.other, fun hnew => ?_⟩
      obtain ⟨hbefore, hids, hcrc, hid, hdec⟩ := hr.retransmission hnew
      rw [hb, hident]
      exact ⟨hbefore, hids, hcrc, hid, hdec.congr hr.freed
        (fun cbId hmem => hl.data cbId (h.not_mem_owned hlt (hlt' j rfl).1 (hother j rfl) hmem)) (by rw [hgen])⟩

/-! ### Steps of the holders -/

lemma Inv.locked (hi : i ∈ s.holders) : (s.buffers i).currentState = .locked := ((h.mem_holders i).mp hi).2

lemma Inv.usable (hu : s.Usable i) : ∃ id, s.identifiers i = some id ∧ (s.buffers i).freed = 0 ∧
      (s.buffers i).codeblockIds.length = (s.buffers i).crc.length ∧ s.Decoded (s.buffers i) id := by
  have hr := h.resting i ((h.mem_holders i).mp hu.1).1 (h.target_ne hu.1)
  have hstate : (s.buffers i).currentState ≠ .available := by rw [h.locked hu.1]; decide
  obtain ⟨id, hid⟩ := hr.entry hstate
  exact ⟨id, hid, hr.content id hid hstate hu.2⟩

lemma Inv.identifier_ne (hi : i < cfg.nofBuffers) (hj : j < cfg.nofBuffers) (hne : j ≠ i)
    (hid : s.identifiers j = some id) : s.identifiers i ≠ some id := fun hid' =>
  hne (h.oneEntry j i id hj hi hid hid')

/-- **Frame rule for a holder.** -/
theorem Inv.holderStep (hi : i ∈ s.holders) {freeList : List ℕ}
    {data : ℕ → Option (BufferId × ℕ)} {left : BufferId → Option RxContent} {holders : List ℕ}
    (hs' : s' = { s.setBuffer i b with freeList, data, left, holders })
    (hholders : holders = if b.currentState = .locked then s.holders else s.holders.erase i)
    (hdata : ∀ cbId, cbId ∉ (s.buffers i).owned → data cbId = s.data cbId)
    (hleft : ∀ id, s.identifiers i ≠ some id → left id = s.left id)
    (hledger : (freeList ++ b.owned).Perm (s.freeList ++ (s.buffers i).owned)) (hresting : s'.Resting i)
    (hunchanged : b.currentState = .locked → b.releasing = false → b.codeblockIds = s.granted i) : s'.Inv cfg := by
  have hlt := ((h.mem_holders i).mp hi).1
  have hb : s'.buffers i = b := by rw [hs']; exact update_self ..
  have hmem : ∀ j, j ≠ i → (j ∈ holders ↔ j ∈ s.holders) := by
    intro j hj
    rw [hholders]
    split
    · exact Iff.rfl
    · exact mem_erase_of_ne hj
  have hlocal : Local cfg s s' i := by
    refine ⟨?_, ?_, ?_, ?_, ?_, ?_, ?_, ?_, ?_⟩
    · intro j hj
      rw [hs']
      exact update_of_ne hj ..
    · intro j _
      rw [hs']
      rfl
    · intro j _
      rw [hs']
      exact Iff.rfl
    · rw [hs']
      exact hmem
    · intro j _
      rw [hs']
      rfl
    · rw [hs']
      exact hdata
    · intro id j hj hne hid
      rw [hs']
      exact ⟨rfl, hleft id (h.identifier_ne hlt hj hne hid)⟩
    · intro id j hj hne hid hid'
      rw [hs'] at hid
      exact h.identifier_ne hlt hj hne hid' hid
    · rw [hb, hs']
      exact hledger
  refine h.of_local hlt hlocal ?_ ?_ (fun _ => hresting) (h.target_of_holder hi hlocal ?_ ?_ ?_) ?_ ?_
  · rw [hs']
    rw [hholders]
    split
    · exact h.nodup
    · exact h.nodup.erase i
  · rw [hb, hs']
    rw [hholders]
    split
    · exact ⟨fun _ => by assumption, fun _ => hi⟩
    · exact ⟨fun hmem' => absurd hmem' (h.nodup.not_mem_erase), fun hstate => absurd hstate (by assumption)⟩
  · rw [hs']; rfl
  · rw [hs']; rfl
  · rw [hs']; rfl
  · rintro ⟨hmem', hrel⟩
    rw [hb] at hrel ⊢
    have hstate : b.currentState = .locked := by
      by_contra hstate
      rw [hs'] at hmem'
      have : i ∈ holders := hmem'
      rw [hholders, if_neg hstate] at this
      exact h.nodup.not_mem_erase this
    rw [hunchanged hstate hrel, hs']
    rfl
  · rw [hs']
    exact h.retransmission

end

lemma resting_of_locked (hb : s.buffers i = b) (hstate : b.currentState = .locked) (hid : s.identifiers i = some id)
    (hcontent : b.releasing = false → b.freed = 0 ∧ b.codeblockIds.length = b.crc.length ∧ s.Decoded b id) :
    s.Resting i := by
  subst hb
  refine ⟨fun h => ?_, fun _ => hstate, fun _ => ⟨id, hid⟩, fun id' hid' _ hrel => ?_, fun id' hid' h => ?_⟩
  · rw [hstate] at h
    cases h
  · cases hid.symm.trans hid'
    exact hcontent hrel
  · rw [hstate] at h
    cases h

lemma resting_of_reserved (hb : s.buffers i = b)
    (hstate : b.currentState = .reserved) (hrel : b.releasing = false) (hid : s.identifiers i = some id)
    (hcontent : b.freed = 0 ∧ b.codeblockIds.length = b.crc.length ∧ s.Decoded b id)
    (hleft : s.left id = some (b.codeblockIds, b.crc)) : s.Resting i := by
  subst hb
  refine ⟨fun h => ?_, fun h => ?_, fun _ => ⟨id, hid⟩, fun id' hid' _ _ => ?_, fun id' hid' h => ?_⟩
  · rw [hstate] at h
    cases h
  · rw [hrel] at h
    cases h
  · cases hid.symm.trans hid'
    exact hcontent
  · cases hid.symm.trans hid'
    exact hleft

lemma Resting.not_releasing (h : s.Resting i) (hunl : (s.buffers i).currentState ≠ .locked) :
    (s.buffers i).releasing = false :=
  Bool.eq_false_iff.mpr fun hrel => hunl (h.releasing hrel)

lemma resting_of_available (hb : s.buffers i = b) (hstate : b.currentState = .available)
    (hrel : b.releasing = false) (hids : b.codeblockIds = []) (hfreed : b.freed = 0) : s.Resting i := by
  subst hb
  refine ⟨fun _ => ⟨hids, hfreed⟩, fun h => ?_, fun h => absurd hstate h, fun _ _ h => absurd hstate h, fun _ _ h => ?_⟩
  · rw [hrel] at h
    cases h
  · rw [hstate] at h
    cases h

lemma Decoded.set (h : s.Decoded b id) (hnodup : b.codeblockIds.Nodup)
    (hcb : b.codeblockIds[j]? = some cbId) (ok : Bool) (hgen : s'.generation = s.generation)
    (hdata : s'.data = update s.data cbId (some (id, s.generation id))) :
    s'.Decoded { b with crc := b.crc.set j ok } id := by
  intro k hk
  have hk' : (b.crc.set j ok)[k]? = some true := hk
  rw [hgen, hdata]
  by_cases hkj : k = j
  · rw [hkj]
    exact ⟨cbId, hcb, update_self ..⟩
  · rw [List.getElem?_set_ne (Ne.symm hkj)] at hk'
    obtain ⟨cbId', hcb', hbits⟩ := h k hk'
    refine ⟨cbId', hcb', ?_⟩
    rw [update_of_ne ?_, hbits]
    rintro rfl
    obtain ⟨hlt, -⟩ := List.getElem?_eq_some_iff.mp hcb'
    exact hkj ((List.getElem?_inj hlt hnodup).mp (hcb'.trans hcb.symm))

lemma Inv.decode (h : s.Inv cfg) (i j : ℕ) (ok : Bool) : Post (· = .capacity) (Inv cfg) (s.decode i j ok) := by
  rw [RxBufferPool.decode]
  split
  case isFalse => exact h
  case isTrue hc =>
    obtain ⟨hu, hj⟩ := hc
    obtain ⟨id, hid, hfreed, hlen, hdec⟩ := h.usable hu
    have hlocked := h.locked hu.1
    have howned : (s.buffers i).owned = (s.buffers i).codeblockIds := by
      rw [RxBuffer.owned, hfreed, drop_zero]
    obtain ⟨cbId, hcb⟩ : ∃ cbId, (s.buffers i).codeblockIds[j]? = some cbId := ⟨_, getElem?_eq_getElem (by omega)⟩
    rw [hcb]
    dsimp only
    split
    · exact h
    · have hnodup := h.ledger.nodup_owned (Multiset.nodup_range _) ((h.mem_holders i).mp hu.1).1
      rw [howned] at hnodup
      refine h.holderStep hu.1 rfl (if_pos hlocked).symm (fun c hc => ?_) (fun _ _ => rfl) (Perm.refl _) ?_
        (fun _ _ => h.unchanged i hu)
      · refine update_of_ne ?_ ..
        rintro rfl
        rw [howned] at hc
        exact hc (mem_of_getElem? hcb)
      · refine resting_of_locked (update_self ..) hlocked hid fun _ => ⟨hfreed, ?_, ?_⟩
        · rw [length_set, hlen]
        · refine hdec.set hnodup hcb ok rfl ?_
          rw [hid]
          rfl

lemma Inv.resetCodeblocksCrc (h : s.Inv cfg) (i : ℕ) : (s.resetCodeblocksCrc i).Inv cfg := by
  rw [RxBufferPool.resetCodeblocksCrc]
  split
  case isFalse => exact h
  case isTrue hu =>
    obtain ⟨id, hid, hfreed, hlen, -⟩ := h.usable hu
    have hlocked := h.locked hu.1
    refine h.holderStep hu.1 rfl (if_pos hlocked).symm (fun _ _ => rfl) (fun _ _ => rfl) (Perm.refl _) ?_
      (fun _ _ => h.unchanged i hu)
    refine resting_of_locked (update_self ..) hlocked hid fun _ => ⟨hfreed, ?_, fun j hj => ?_⟩
    · rw [length_replicate, hlen]
    · have hj' : (replicate (s.buffers i).crc.length false)[j]? = some true := hj
      rw [getElem?_replicate] at hj'
      split at hj' <;> cases hj'

lemma leave_of_ne (content : Option RxContent) (h : s.identifiers i ≠ some id) : s.leave i content id = s.left id := by
  rw [leave]
  cases hid : s.identifiers i with
  | none => rfl
  | some id' =>
    refine update_of_ne ?_ ..
    rintro rfl
    exact h hid

lemma Inv.unlock (h : s.Inv cfg) (i : ℕ) : Post (· = .capacity) (Inv cfg) (s.unlock i) := by
  rw [RxBufferPool.unlock]
  split
  case isFalse => exact h
  case isTrue hu =>
    obtain ⟨id, hid, hcontent⟩ := h.usable hu
    have hlocked := h.locked hu.1
    rw [if_neg (not_not_intro hlocked)]
    refine h.holderStep hu.1 rfl (if_neg nofun).symm (fun _ _ => rfl) (fun _ => s.leave_of_ne _)
      (Perm.refl _) ?_ nofun
    refine resting_of_reserved (update_self ..) rfl hu.2 hid hcontent ?_
    rw [leave, hid]
    exact update_self ..

lemma Inv.release (h : s.Inv cfg) (i : ℕ) : (s.release i).Inv cfg := by
  rw [RxBufferPool.release]
  split
  case isFalse => exact h
  case isTrue hu =>
    obtain ⟨id, hid, -⟩ := h.usable hu
    have hlocked := h.locked hu.1
    exact h.holderStep hu.1 rfl (if_pos hlocked).symm (fun _ _ => rfl) (fun _ => s.leave_of_ne _) (Perm.refl _)
      (resting_of_locked (update_self ..) hlocked hid nofun) nofun

lemma perm_freeStep (freeList : List ℕ) (hlt : b.freed < b.codeblockIds.length) :
    (freeList ++ [b.codeblockIds.getD b.freed 0] ++ { b with freed := b.freed + 1 }.owned).Perm (freeList ++ b.owned) := by
  have hdrop : b.owned = b.codeblockIds.getD b.freed 0 :: b.codeblockIds.drop (b.freed + 1) := by
    rw [RxBuffer.owned, drop_eq_getElem_cons hlt, getD_eq_getElem?_getD, getElem?_eq_getElem hlt]
    rfl
  rw [hdrop, append_assoc]
  exact Perm.refl _

lemma Inv.releaseStep (h : s.Inv cfg) (i : ℕ) : Post (· = .capacity) (Inv cfg) (s.releaseStep i) := by
  rw [RxBufferPool.releaseStep]
  split
  case isFalse => exact h
  case isTrue hc =>
    obtain ⟨hi, hrel⟩ := hc
    have hlocked := h.locked hi
    have hr := h.resting i ((h.mem_holders i).mp hi).1 (h.target_ne hi)
    obtain ⟨id, hid⟩ := hr.entry (by rw [hlocked]; decide)
    split
    next hlt =>
      refine h.holderStep hi rfl (if_pos hlocked).symm (fun _ _ => rfl) (fun _ _ => rfl) (perm_freeStep _ hlt) ?_ ?_
      · refine resting_of_locked (update_self ..) hlocked hid fun hrel' => ?_
        cases hrel.symm.trans hrel'
      · intro _ hrel'
        cases hrel.symm.trans hrel'
    next hge =>
      rw [if_neg (not_not_intro hlocked)]
      refine h.holderStep hi rfl (if_neg nofun).symm (fun _ _ => rfl) (fun _ _ => rfl) ?_
        (resting_of_available (update_self ..) rfl rfl rfl rfl) nofun
      rw [show (s.buffers i).owned = [] from drop_eq_nil_of_le (by omega)]
      exact Perm.refl _

/-! ### Steps of the thread of the pool -/

/-- **Frame rule for the thread of the pool.** -/
theorem Inv.poolUpdate (h : s.Inv cfg) (hi : i < cfg.nofBuffers)
    (hunl : (s.buffers i).currentState ≠ .locked) (ht : ∀ j, s.phase.target = some j → j = i)
    (ht' : ∀ j, s'.phase.target = some j → j = i) (hbuffers : ∀ j, j ≠ i → s'.buffers j = s.buffers j)
    (hidentifiers : ∀ j, j ≠ i → s'.identifiers j = s.identifiers j) (hdata : s'.data = s.data)
    (hholders : s'.holders = if (s'.buffers i).currentState = .locked then i :: s.holders else s.holders)
    (hgranted : ∀ j, j ≠ i → s'.granted j = s.granted j)
    (hhistory : ∀ id, (∀ j < cfg.nofBuffers, s.identifiers j = some id → j = i) ∨
      (s'.generation id = s.generation id ∧ s'.left id = s.left id))
    (hentry : ∀ id, s'.identifiers i = some id → ∀ j < cfg.nofBuffers, s.identifiers j = some id → j = i)
    (hledger : (s'.freeList ++ (s'.buffers i).owned).Perm (s.freeList ++ (s.buffers i).owned))
    (hresting : s'.phase.target ≠ some i → s'.Resting i) (htarget : s'.Target cfg)
    (hunchanged : (s'.buffers i).currentState = .locked → (s'.buffers i).codeblockIds = s'.granted i)
    (hgrants : ∀ g ∈ s'.grants, g.request.newData = false → g.before = some g.content) : s'.Inv cfg := by
  have hnot : i ∉ s.holders := fun hmem => hunl (h.locked hmem)
  have hlocal : Local cfg s s' i := by
    refine ⟨hbuffers, hidentifiers, fun j hj => ?_, fun j hj => ?_, hgranted, fun c _ => by rw [hdata], ?_, ?_, hledger⟩
    · exact ⟨fun hs => absurd (ht' j hs) hj, fun hs => absurd (ht j hs) hj⟩
    · rw [hholders]
      split
      · exact ⟨fun hmem => (mem_cons.mp hmem).resolve_left hj, mem_cons_of_mem i⟩
      · exact Iff.rfl
    · intro id j hj hne hid
      exact (hhistory id).resolve_left fun hall => hne (hall j hj hid)
    · exact fun id j hj hne hid hid' => hne (hentry id hid j hj hid')
  refine h.of_local hi hlocal ?_ ?_ hresting htarget ?_ hgrants
  · rw [hholders]
    split
    · exact nodup_cons.mpr ⟨hnot, h.nodup⟩
    · exact h.nodup
  · rw [hholders]
    split
    · exact ⟨fun _ => by assumption, fun _ => mem_cons_self⟩
    · exact ⟨fun hmem => absurd hmem hnot, fun hstate => absurd hstate (by assumption)⟩
  · rintro ⟨hmem, -⟩
    refine hunchanged ?_
    by_contra hstate
    rw [hholders, if_neg hstate] at hmem
    exact hnot hmem

lemma Inv.rest (h : s.Inv cfg) (ht : s.phase.target = none) (ht' : phase.target = none)
    (expirations : ℕ → Option ℕ) : ({ s with phase, expirations } : RxBufferPool).Inv cfg where
  ledger := h.ledger
  oneEntry := h.oneEntry
  nodup := h.nodup
  mem_holders := h.mem_holders
  resting i hi _ := by
    have hr := h.resting i hi (by rw [ht]; exact Option.some_ne_none i |>.symm)
    exact { hr with }
  target := by
    refine ⟨fun i hi => ?_, ?_⟩
    · rw [show ({ s with phase, expirations } : RxBufferPool).phase.target = phase.target from rfl, ht'] at hi
      cases hi
    · cases phase with
      | idle => trivial
      | failing i => trivial
      | running slot i => trivial
      | reserving r i before => cases ht'
      | expiring slot i => cases ht'
  unchanged := h.unchanged
  retransmission := h.retransmission

lemma findIdentifier_eq {id : Option BufferId} (h : s.findIdentifier cfg id = some i) :
    i < cfg.nofBuffers ∧ s.identifiers i = id := by
  have hfound := find?_some h
  exact ⟨mem_range.mp (mem_of_find?_eq_some h), of_decide_eq_true hfound⟩

lemma findIdentifier_eq_none {id : Option BufferId} (h : s.findIdentifier cfg id = none)
    (hi : i < cfg.nofBuffers) : s.identifiers i ≠ id := fun hid =>
  find?_eq_none.mp h i (mem_range.mpr hi) (decide_eq_true hid)

lemma Inv.startReserve (h : s.Inv cfg) (hidle : s.phase = .idle) (hi : i < cfg.nofBuffers)
    (hentry : ∀ id, s.identifiers i = some id → id = r.id)
    (hother : ∀ j < cfg.nofBuffers, s.identifiers j = some r.id → j = i)
    (hcond : r.newData = false → s.identifiers i = some r.id ∧ (s.buffers i).currentState ≠ .available) :
    (s.startReserve r i).Inv cfg := by
  rw [RxBufferPool.startReserve]
  split
  · exact h
  split
  · exact h
  rename_i hlen hunl
  have hr := h.resting i hi (by rw [hidle]; exact nofun)
  have hrel := hr.not_releasing hunl
  have hfreed : (s.buffers i).freed = 0 := by
    by_cases hstate : (s.buffers i).currentState = .available
    · exact (hr.available hstate).2
    · obtain ⟨id, hid⟩ := hr.entry hstate
      exact (hr.content id hid hstate hrel).1
  refine h.poolUpdate hi hunl (fun j hj => ?_) (fun j hj => ?_) (fun _ _ => rfl) (fun _ _ => rfl) rfl
    (if_neg hunl).symm (fun _ _ => rfl) (fun id => ?_) (fun id hid j hj hid' => h.oneEntry j i id hj hi hid' hid)
    (Perm.refl _) (fun hne => absurd rfl hne) ⟨fun j hj => ?_, hfreed, hentry, hother, fun hnew => ?_⟩
    (fun hstate => absurd hstate hunl) h.retransmission
  · rw [hidle] at hj
    cases hj
  · cases hj
    rfl
  · by_cases hid : id = r.id
    · left
      rw [hid]
      exact hother
    · right
      refine ⟨rfl, ?_⟩
      split
      · exact update_of_ne hid ..
      · rfl
  · cases hj
    exact ⟨hi, hunl, hrel⟩
  · obtain ⟨hid, hstate⟩ := hcond hnew
    obtain ⟨-, hids, hdec⟩ := hr.content r.id hid hstate hrel
    have hcrc : r.nofCodeblocks = (s.buffers i).crc.length := by
      simpa [hnew] using hlen
    have hreserved : (s.buffers i).currentState = .reserved := by
      cases hs : (s.buffers i).currentState with
      | available => exact absurd hs hstate
      | reserved => rfl
      | locked => exact absurd hs hunl
    exact ⟨hr.left r.id hid hreserved, hids.trans hcrc.symm, hcrc.symm, hid, hdec⟩

lemma Inv.reserve (h : s.Inv cfg) (hcond : s.Cond cfg (.reserve r)) : (s.reserve cfg r).Inv cfg := by
  rw [RxBufferPool.reserve]
  split
  · exact h
  rename_i hidle
  rw [not_not] at hidle
  split
  · exact h
  split
  next i hfound =>
    obtain ⟨hi, hid⟩ := findIdentifier_eq hfound
    refine h.startReserve hidle hi (fun id hid' => ?_) (fun j hj hid' => h.oneEntry j i r.id hj hi hid' hid) fun hnew => ?_
    · exact Option.some.inj (hid'.symm.trans hid)
    · exact ⟨hid, hcond hnew i hfound⟩
  next hnone =>
    split
    next hnew =>
      split
      next i hfound =>
        obtain ⟨hi, hid⟩ := findIdentifier_eq hfound
        refine h.startReserve hidle hi (fun id hid' => ?_) (fun j hj hid' => ?_) fun hold => ?_
        · cases hid.symm.trans hid'
        · exact absurd hid' (findIdentifier_eq_none hnone hj)
        · cases hnew.symm.trans hold
      · exact h
    · exact h

lemma Inv.reserving (h : s.Inv cfg) (hphase : s.phase = .reserving r i before) :
    i < cfg.nofBuffers ∧ (s.buffers i).currentState ≠ .locked ∧ (s.buffers i).releasing = false ∧
      s.Reserving cfg r i before := by
  have htarget := h.target
  rw [Target, hphase] at htarget
  obtain ⟨hi, hunl, hrel⟩ := htarget.1 i rfl
  exact ⟨hi, hunl, hrel, htarget.2⟩

lemma target_unique (h : phase.target = some i) (hj : phase.target = some j) :
    j = i := Option.some.inj (hj.symm.trans h)

lemma Inv.changeCodeblocks (h : s.Inv cfg) (hphase : s.phase = .reserving r i before)
    (hne : (s.buffers i).codeblockIds.length ≠ r.nofCodeblocks)
    {ids freeList : List ℕ} (hledger : (freeList ++ ids).Perm (s.freeList ++ (s.buffers i).codeblockIds)) :
    ({ s.setBuffer i { s.buffers i with codeblockIds := ids } with freeList } : RxBufferPool).Inv cfg := by
  obtain ⟨hi, hunl, hrel, hr⟩ := h.reserving hphase
  have ht : s.phase.target = some i := by rw [hphase]; rfl
  have hb : (update s.buffers i { s.buffers i with codeblockIds := ids }) i =
      { s.buffers i with codeblockIds := ids } := update_self ..
  refine h.poolUpdate hi hunl (fun j => target_unique ht) (fun j => target_unique ht)
    (fun j hj => update_of_ne hj ..) (fun _ _ => rfl) rfl ?_ (fun _ _ => rfl) (fun id => .inr ⟨rfl, rfl⟩)
    (fun id hid j hj hid' => h.oneEntry j i id hj hi hid' hid) ?_ (fun hne => absurd ht hne)
    ⟨fun j hj => ?_, ?_⟩ (fun hstate => ?_) h.retransmission
  · refine (if_neg ?_).symm
    show ¬ ((update s.buffers i _) i).currentState = _
    rw [hb]
    exact hunl
  · show (freeList ++ ((update s.buffers i _) i).owned).Perm _
    rw [hb, RxBuffer.owned, RxBuffer.owned, hr.freed]
    exact hledger
  · cases target_unique ht hj
    show _ ∧ ((update s.buffers i _) i).currentState ≠ _ ∧ ((update s.buffers i _) i).releasing = _
    rw [hb]
    exact ⟨hi, hunl, hrel⟩
  · show match s.phase with
      | .reserving r i before => _
      | .expiring _ i => _
      | _ => True
    rw [hphase]
    refine ⟨?_, hr.entry, hr.other, fun hnew => absurd (hr.retransmission hnew).2.1 hne⟩
    show ((update s.buffers i _) i).freed = 0
    rw [hb]
    exact hr.freed
  · have hstate' : ((update s.buffers i _) i).currentState = .locked := hstate
    rw [hb] at hstate'
    exact absurd hstate' hunl

lemma Inv.failReserve (h : s.Inv cfg) (hphase : s.phase = .reserving r i before) :
    ({ s with phase := .failing i, left := update s.left r.id none } : RxBufferPool).Inv cfg := by
  obtain ⟨hi, hunl, hrel, hr⟩ := h.reserving hphase
  refine h.poolUpdate hi hunl (fun j => target_unique (by rw [hphase]; rfl)) (fun j => target_unique rfl)
    (fun _ _ => rfl) (fun _ _ => rfl) rfl (if_neg hunl).symm (fun _ _ => rfl) (fun id => ?_)
    (fun id hid j hj hid' => h.oneEntry j i id hj hi hid' hid) (Perm.refl _) (fun hne => absurd rfl hne)
    ⟨fun j hj => ?_, trivial⟩ (fun hstate => absurd hstate hunl) h.retransmission
  · by_cases hid : id = r.id
    · left
      rw [hid]
      exact hr.other
    · exact .inr ⟨rfl, update_of_ne hid ..⟩
  · cases hj
    exact ⟨hi, hunl, hrel⟩

lemma Reserving.decoded (hr : s.Reserving cfg r i before)
    (hlen : (s.buffers i).codeblockIds.length = r.nofCodeblocks) {crc : List Bool}
    (hcrc : crc = if r.newData then replicate r.nofCodeblocks false else resize (s.buffers i).crc r.nofCodeblocks)
    (hdata : s'.data = s.data) (hgen : r.newData = false → s'.generation = s.generation) :
    (s.buffers i).codeblockIds.length = crc.length ∧ s'.Decoded { s.buffers i with crc } r.id ∧
      (r.newData = false → crc = (s.buffers i).crc) := by
  cases hnew : r.newData with
  | true =>
    rw [hnew, if_pos rfl] at hcrc
    refine ⟨by rw [hcrc, length_replicate, hlen], fun j hj => ?_, nofun⟩
    have hj' : crc[j]? = some true := hj
    rw [hcrc, getElem?_replicate] at hj'
    split at hj' <;> cases hj'
  | false =>
    obtain ⟨-, hids, hlength, -, hdec⟩ := hr.retransmission hnew
    rw [hnew, if_neg (by decide), resize, ← hlength, take_length, Nat.sub_self, replicate_zero, append_nil] at hcrc
    subst hcrc
    exact ⟨hids.trans hlength.symm, hdec.congr hr.freed (fun c _ => by rw [hdata]) (by rw [hgen hnew]), fun _ => rfl⟩

lemma Inv.finishReserve (h : s.Inv cfg) (hphase : s.phase = .reserving r i before)
    (hlen : (s.buffers i).codeblockIds.length = r.nofCodeblocks)
    (weak : Bool) : (s.finishReserve cfg r i before weak).Inv cfg := by
  obtain ⟨hi, hunl, hrel, hr⟩ := h.reserving hphase
  have hb : (s.finishReserve cfg r i before weak).buffers i = { s.buffers i with
      crc := if r.newData then replicate r.nofCodeblocks false else resize (s.buffers i).crc r.nofCodeblocks
      currentState := if weak then .reserved else .locked } := update_self ..
  have hid : (s.finishReserve cfg r i before weak).identifiers i = some r.id := update_self ..
  obtain ⟨hlength, hdecoded, hsame⟩ := hr.decoded hlen rfl
    (show (s.finishReserve cfg r i before weak).data = s.data from rfl)
    (fun hnew => show (if r.newData then _ else s.generation) = s.generation by rw [hnew]; rfl)
  have hlocked : ((s.finishReserve cfg r i before weak).buffers i).currentState = .locked ↔ weak = false := by
    rw [hb]
    show (if weak then RxBufferState.reserved else .locked) = .locked ↔ weak = false
    cases weak <;> decide
  refine h.poolUpdate hi hunl (fun j => target_unique (by rw [hphase]; rfl)) nofun
    (fun j hj => update_of_ne hj ..) (fun j hj => update_of_ne hj ..) rfl ?_ (fun j hj => ?_)
    (fun id => ?_) (fun id hid' j hj hid'' => ?_) ?_ (fun _ => ?_) ⟨nofun, trivial⟩
    (fun hstate => ?_) ?_
  · rw [if_congr hlocked rfl rfl]
    cases weak <;> rfl
  · show (if weak then s.granted else update s.granted i _) j = s.granted j
    split
    · rfl
    · exact update_of_ne hj ..
  · by_cases hne : id = r.id
    · left
      rw [hne]
      exact hr.other
    · right
      constructor
      · show (if r.newData then update s.generation r.id _ else s.generation) id = s.generation id
        split
        · exact update_of_ne hne ..
        · rfl
      · show (if weak then update s.left r.id _ else s.left) id = s.left id
        split
        · exact update_of_ne hne ..
        · rfl
  · cases hid.symm.trans hid'
    exact hr.other j hj hid''
  · rw [hb]
    exact Perm.refl _
  · cases weak with
    | true =>
      refine resting_of_reserved hb rfl hrel hid ⟨hr.freed, hlength, hdecoded⟩ ?_
      exact update_self ..
    | false => exact resting_of_locked hb rfl hid fun _ => ⟨hr.freed, hlength, hdecoded⟩
  · rw [hb]
    rw [hlocked] at hstate
    subst hstate
    show (s.buffers i).codeblockIds = (update s.granted i (s.buffers i).codeblockIds) i
    rw [update_self]
  · intro g hg hnew
    have hg' : g ∈ if weak then s.grants else s.grants ++ [⟨r, before, (s.buffers i).codeblockIds, _⟩] := hg
    cases weak with
    | true => exact h.retransmission g hg' hnew
    | false =>
      rcases mem_append.mp hg' with hg' | hg'
      · exact h.retransmission g hg' hnew
      · cases mem_singleton.mp hg'
        show before = some (_, if r.newData then _ else _)
        rw [(hr.retransmission hnew).1, hsame hnew]

lemma tryPop_eq {weak : Bool} {rest : List ℕ} (h : s.tryPop weak = some (cbId, rest)) : s.freeList = cbId :: rest := by
  rw [tryPop] at h
  split at h
  · cases h
  · split at h
    · cases h
    next hfree =>
      cases h
      exact hfree

section

variable (h : s.Inv cfg)
include h

lemma Inv.reserveStep (hphase : s.phase = .reserving r i before) (weak : Bool) :
    Post (· = .capacity) (Inv cfg) (s.reserveStep cfg r i before weak) := by
  rw [RxBufferPool.reserveStep]
  split
  next hgt =>
    refine h.changeCodeblocks hphase (by omega) ?_
    have hne : (s.buffers i).codeblockIds ≠ [] := ne_nil_of_length_pos (by omega)
    have hlast : (s.buffers i).codeblockIds.dropLast ++ [(s.buffers i).codeblockIds.getLastD 0] =
        (s.buffers i).codeblockIds := by
      rw [getLastD_eq_getLast?, getLast?_eq_some_getLast hne]
      exact dropLast_append_getLast hne
    rw [append_assoc]
    refine List.Perm.append_left _ ?_
    nth_rewrite 3 [← hlast]
    exact perm_append_comm
  split
  next hlt =>
    split
    next cbId rest hpop =>
      have hfree := tryPop_eq hpop
      split
      · exact rfl
      · refine h.changeCodeblocks hphase (by omega) ?_
        rw [hfree, ← append_assoc]
        exact perm_append_singleton cbId _
    · exact h.failReserve hphase
  · exact h.finishReserve hphase (by omega) weak

lemma Inv.freeStep (hphase : s.phase = .failing i ∨ ∃ slot, s.phase = .expiring slot i)
    (hlt : (s.buffers i).freed < (s.buffers i).codeblockIds.length) : (s.freeStep i).Inv cfg := by
  have ht : s.phase.target = some i := by
    rcases hphase with hphase | ⟨slot, hphase⟩ <;> rw [hphase] <;> rfl
  obtain ⟨hi, hunl, hrel⟩ := h.target.1 i ht
  have hb : (s.freeStep i).buffers i = { s.buffers i with freed := (s.buffers i).freed + 1 } := update_self ..
  refine h.poolUpdate hi hunl (fun j => target_unique ht) (fun j => target_unique ht)
    (fun j hj => update_of_ne hj ..) (fun _ _ => rfl) rfl (if_neg (by rw [hb]; exact hunl)).symm
    (fun _ _ => rfl) (fun _ => .inr ⟨rfl, rfl⟩) (fun id hid j hj hid' => h.oneEntry j i id hj hi hid' hid) ?_
    (fun hne => absurd ht hne) ⟨fun j hj => ?_, ?_⟩ (fun hstate => ?_) h.retransmission
  · rw [hb]
    exact perm_freeStep _ hlt
  · cases target_unique ht hj
    rw [hb]
    exact ⟨hi, hunl, hrel⟩
  · have htarget := h.target.2
    show match s.phase with
      | .reserving r i before => _
      | .expiring _ i => _
      | _ => True
    rcases hphase with hphase | ⟨slot, hphase⟩
    · rw [hphase]
      trivial
    · rw [hphase] at htarget ⊢
      show ((s.freeStep i).buffers i).currentState = .available
      rw [hb]
      exact htarget
  · rw [hb] at hstate
    exact absurd hstate hunl

lemma Inv.finishFailing (hphase : s.phase = .failing i)
    (hge : (s.buffers i).codeblockIds.length ≤ (s.buffers i).freed) : (s.finishFailing i).Inv cfg := by
  have ht : s.phase.target = some i := by rw [hphase]; rfl
  obtain ⟨hi, hunl, hrel⟩ := h.target.1 i ht
  have hb : (s.finishFailing i).buffers i =
      { s.buffers i with codeblockIds := [], freed := 0, currentState := .available } := update_self ..
  refine h.poolUpdate hi hunl (fun j => target_unique ht) nofun
    (fun j hj => update_of_ne hj ..) (fun _ _ => rfl) rfl (if_neg (by rw [hb]; exact nofun)).symm
    (fun _ _ => rfl) (fun _ => .inr ⟨rfl, rfl⟩) (fun id hid j hj hid' => h.oneEntry j i id hj hi hid' hid) ?_
    (fun _ => resting_of_available hb rfl hrel rfl rfl) ⟨nofun, trivial⟩ (fun hstate => ?_)
    h.retransmission
  · rw [hb, show (s.buffers i).owned = [] from drop_eq_nil_of_le hge]
    exact Perm.refl _
  · rw [hb] at hstate
    cases hstate

lemma Inv.finishExpiring (hphase : s.phase = .expiring slot i)
    (hge : (s.buffers i).codeblockIds.length ≤ (s.buffers i).freed) : (s.finishExpiring slot i).Inv cfg := by
  have htarget := h.target
  have ht : s.phase.target = some i := by rw [hphase]; rfl
  obtain ⟨hi, hunl, hrel⟩ := h.target.1 i ht
  rw [Target, hphase] at htarget
  have hstate : (s.buffers i).currentState = .available := htarget.2
  have hb : (s.finishExpiring slot i).buffers i = { s.buffers i with codeblockIds := [], freed := 0 } := update_self ..
  have hid : (s.finishExpiring slot i).identifiers i = none := update_self ..
  refine h.poolUpdate hi hunl (fun j => target_unique ht) nofun
    (fun j hj => update_of_ne hj ..) (fun j hj => update_of_ne hj ..) rfl
    (if_neg (by rw [hb]; exact hunl)).symm (fun _ _ => rfl) (fun _ => .inr ⟨rfl, rfl⟩)
    (fun id hid' => by cases hid.symm.trans hid') ?_
    (fun _ => resting_of_available hb hstate hrel rfl rfl) ⟨nofun, trivial⟩ (fun hlocked => ?_)
    h.retransmission
  · rw [hb, show (s.buffers i).owned = [] from drop_eq_nil_of_le hge]
    exact Perm.refl _
  · rw [hb] at hlocked
    exact absurd hlocked hunl

lemma Inv.startExpiring (ht : s.phase.target = none)
    (hi : i < cfg.nofBuffers) (hid : s.identifiers i = some id) (hstate : (s.buffers i).currentState = .reserved) :
    ({ s.setBuffer i { s.buffers i with currentState := .available } with
        phase := .expiring slot i, left := update s.left id none } : RxBufferPool).Inv cfg := by
  have hr := h.resting i hi (by rw [ht]; exact nofun)
  have hunl : (s.buffers i).currentState ≠ .locked := by rw [hstate]; decide
  have hrel := hr.not_releasing hunl
  have hb : (update s.buffers i { s.buffers i with currentState := .available }) i =
      { s.buffers i with currentState := .available } := update_self ..
  refine h.poolUpdate hi hunl (fun j hj => by rw [ht] at hj; cases hj) (fun j => target_unique rfl)
    (fun j hj => update_of_ne hj ..) (fun _ _ => rfl) rfl ?_ (fun _ _ => rfl) (fun id' => ?_)
    (fun id hid j hj hid' => h.oneEntry j i id hj hi hid' hid) ?_ (fun hne => absurd rfl hne) ⟨fun j hj => ?_, ?_⟩
    (fun hlocked => ?_) h.retransmission
  · refine (if_neg ?_).symm
    show ¬ ((update s.buffers i _) i).currentState = _
    rw [hb]
    exact nofun
  · by_cases hne : id' = id
    · left
      intro j hj hid'
      rw [hne] at hid'
      exact h.oneEntry j i id hj hi hid' hid
    · exact .inr ⟨rfl, update_of_ne hne ..⟩
  · show (s.freeList ++ ((update s.buffers i _) i).owned).Perm _
    rw [hb]
    exact Perm.refl _
  · cases hj
    show _ ∧ ((update s.buffers i _) i).currentState ≠ _ ∧ ((update s.buffers i _) i).releasing = _
    rw [hb]
    exact ⟨hi, nofun, hrel⟩
  · show ((update s.buffers i _) i).currentState = _
    rw [hb]
  · have hlocked' : ((update s.buffers i _) i).currentState = .locked := hlocked
    rw [hb] at hlocked'
    cases hlocked'

lemma Inv.clearIdentifier {expirations : ℕ → Option ℕ}
    (ht : s.phase.target = none) (ht' : phase.target = none)
    (hi : i < cfg.nofBuffers) (hstate : (s.buffers i).currentState = .available) :
    ({ s with phase, expirations, identifiers := update s.identifiers i none } : RxBufferPool).Inv cfg := by
  have hr := h.resting i hi (by rw [ht]; exact nofun)
  have hunl : (s.buffers i).currentState ≠ .locked := by rw [hstate]; decide
  have hrel := hr.not_releasing hunl
  have hid : (update s.identifiers i none) i = none := update_self ..
  refine h.poolUpdate hi hunl (fun j hj => by rw [ht] at hj; cases hj)
    (fun j hj => by cases ht'.symm.trans hj) (fun _ _ => rfl) (fun j hj => update_of_ne hj ..) rfl
    (if_neg hunl).symm (fun _ _ => rfl) (fun _ => .inr ⟨rfl, rfl⟩) (fun id hid' => by cases hid.symm.trans hid')
    (Perm.refl _) (fun _ => resting_of_available rfl hstate hrel (hr.available hstate).1 (hr.available hstate).2)
    ⟨fun j hj => (by cases ht'.symm.trans hj), ?_⟩ (fun hlocked => absurd hlocked hunl) h.retransmission
  cases phase with
  | idle => trivial
  | failing i => trivial
  | running slot i => trivial
  | reserving r i before => cases ht'
  | expiring slot i => cases ht'

lemma Inv.runStep (hphase : s.phase = .running slot i) (weak : Bool) : (s.runStep cfg slot i weak).Inv cfg := by
  have ht : s.phase.target = none := by rw [hphase]; rfl
  have hnext : ({ s with phase := .running slot (i + 1) } : RxBufferPool).Inv cfg := h.rest ht rfl s.expirations
  rw [RxBufferPool.runStep]
  split
  · exact h.rest ht rfl s.expirations
  rename_i hi
  split
  · exact hnext
  rename_i id hid
  split
  · exact h.rest ht rfl _
  split
  · split
    next hstate =>
      rw [Bool.and_eq_true, decide_eq_true_eq] at hstate
      exact h.startExpiring ht (by omega) hid hstate.1
    · exact hnext
  split
  next hstate => exact h.clearIdentifier ht rfl (by omega) hstate
  · exact hnext

lemma Inv.poolStep (weak : Bool) : Post (· = .capacity) (Inv cfg) (s.poolStep cfg weak) := by
  rw [RxBufferPool.poolStep]
  split
  · exact h
  next r i before hphase => exact h.reserveStep hphase weak
  next i hphase =>
    split
    next hlt => exact h.freeStep (.inl hphase) hlt
    · exact h.finishFailing hphase (by omega)
  next slot i hphase => exact h.runStep hphase weak
  next slot i hphase =>
    split
    next hlt => exact h.freeStep (.inr ⟨slot, hphase⟩) hlt
    · exact h.finishExpiring hphase (by omega)

lemma Inv.stop : ({ s with stopped := true } : RxBufferPool).Inv cfg where
  ledger := h.ledger
  oneEntry := h.oneEntry
  nodup := h.nodup
  mem_holders := h.mem_holders
  resting i hi ht := by
    have hr := h.resting i hi ht
    exact { hr with }
  target := by
    refine ⟨h.target.1, ?_⟩
    have htarget := h.target.2
    cases hphase : s.phase with
    | idle => trivial
    | failing i => trivial
    | running slot i => trivial
    | reserving r i before =>
      rw [hphase] at htarget
      exact { htarget with }
    | expiring slot i =>
      rw [hphase] at htarget
      exact htarget
  unchanged := h.unchanged
  retransmission := h.retransmission

end

/-! ### Runs -/

lemma Inv.init : (init cfg).Inv cfg where
  ledger := by
    show (range cfg.nofCodeblocks : Multiset ℕ) + ∑ i ∈ Finset.range cfg.nofBuffers, (([] : List ℕ) : Multiset ℕ) = _
    rw [Multiset.coe_nil, Finset.sum_const_zero, add_zero]
    rfl
  oneEntry i j id _ _ hid _ := by cases hid
  nodup := nodup_nil
  mem_holders i := ⟨nofun, fun h => (by cases h.2)⟩
  resting i _ _ := resting_of_available rfl rfl rfl rfl rfl
  target := ⟨nofun, trivial⟩
  unchanged i h := by cases h.1
  retransmission g h := by cases h

lemma Inv.step (h : s.Inv cfg) {a : RxPoolAction} (hcond : s.Cond cfg a) :
    Post (· = .capacity) (Inv cfg) (s.step cfg a) := by
  cases a with
  | reserve r => exact h.reserve hcond
  | runSlot slot =>
    show Inv cfg (if s.phase = .idle then _ else _)
    split
    next hphase => exact h.rest (by rw [hphase]; rfl) rfl s.expirations
    · exact h
  | poolStep weak => exact h.poolStep weak
  | stop => exact h.stop
  | decode i j ok => exact h.decode i j ok
  | resetCodeblocksCrc i => exact h.resetCodeblocksCrc i
  | unlock i => exact h.unlock i
  | release i => exact h.release i
  | releaseStep i => exact h.releaseStep i

lemma Inv.identity (h : s.Inv cfg) : s.Identity cfg where
  codeblocks cbId hlt := by
    rw [h.ledger.count_add_sum cbId]
    exact Multiset.count_eq_one_of_mem (Multiset.nodup_range _) (Multiset.mem_range.mpr hlt)
  oneEntry := h.oneEntry
  oneHolder := ⟨h.nodup, h.mem_holders⟩
  notLocked i ht := (h.target.1 i ht).2.1
  unchanged := h.unchanged
  retransmission := h.retransmission
  decoded i hu := by
    obtain ⟨id, hid, -, -, hdec⟩ := h.usable hu
    exact ⟨id, hid, hdec⟩
  asserted a f herror := by
    -- a call of `reserve` does not fail an assertion, and the other actions have no condition
    by_cases hreserve : ∃ r, a = .reserve r
    · obtain ⟨r, rfl⟩ := hreserve
      cases herror
    · have hcond : s.Cond cfg a := by
        cases a with
        | reserve r => exact absurd ⟨r, rfl⟩ hreserve
        | _ => trivial
      exact (h.step hcond).of_error herror

/-- **Soft buffers keep their identity** in every run in which no retransmission meets a buffer that was given back and
still has the identifier. -/
theorem uplinkBuffers_keep_identity (h : Reach (step cfg) (Cond cfg) (init cfg) s) : s.Identity cfg :=
  (h.invariant Inv.init fun _ _ _ hs ha hstep => (hs.step ha).of_ok hstep).identity

instance (s : RxBufferPool) : (a : RxPoolAction) → Decidable (s.Cond cfg a)
  | .reserve r => inferInstanceAs (Decidable (r.newData = false → ∀ i ∈ s.findIdentifier cfg (some r.id),
      (s.buffers i).currentState ≠ .available))
  | .runSlot _ | .poolStep _ | .stop | .decode _ _ _ | .resetCodeblocksCrc _ | .unlock _ | .release _ | .releaseStep _ =>
    inferInstanceAs (Decidable True)

def smallConfig : RxBufferPoolConfig := ⟨1, 2, 10, 10240⟩

theorem uplinkBuffers_of_retransmission :
    ∃ s : RxBufferPool, s.Identity smallConfig ∧ s.grants.map (·.content) = [([0], [false]), ([0], [true])] := by
  obtain ⟨s, hreach, hgrants⟩ : ∃ s, Reach (step smallConfig) (Cond smallConfig) (init smallConfig) s ∧
      s.grants.map (·.content) = [([0], [false]), ([0], [true])] :=
    Reach.exists_run [.reserve ⟨0, ⟨1, 0⟩, 1, true⟩, .poolStep false, .poolStep false, .decode 0 0 true, .unlock 0,
      .reserve ⟨4, ⟨1, 0⟩, 1, false⟩, .poolStep false] (by decide +kernel)
  exact ⟨s, uplinkBuffers_keep_identity hreach, hgrants⟩

/-- A retransmission right after the release gets another codeblock, which is flagged and was never decoded. -/
theorem uplinkBuffers_after_release :
    ∃ s, Reach (step smallConfig) (fun _ _ => True) (init smallConfig) s ∧
      s.grants.map (fun g => (g.request.newData, g.before, g.content)) =
        [(true, none, [0], [false]), (false, none, [1], [true])] ∧ s.data 1 = none := by
  have hrun : (run (step smallConfig) (fun _ _ => true) (init smallConfig)
      [.reserve ⟨0, ⟨1, 0⟩, 1, true⟩, .poolStep false, .poolStep false, .decode 0 0 true, .release 0, .releaseStep 0,
        .releaseStep 0, .reserve ⟨4, ⟨1, 0⟩, 1, false⟩, .poolStep false, .poolStep false]).any
      (fun s => decide (s.grants.map (fun g => (g.request.newData, g.before, g.content)) =
        [(true, none, [0], [false]), (false, none, [1], [true])] ∧ s.data 1 = none)) = true := by decide +kernel
  obtain ⟨s, hreach, hgrants⟩ := Reach.exists_of_run (fun _ _ _ => trivial) hrun
  exact ⟨s, hreach, of_decide_eq_true hgrants⟩

end RxBufferPool

end SrsRan.Phy
