import SrsRan.Lib.Run
import Mathlib.Data.Finset.Card

/-!
# `ue_manager` of the CU-CP

The UEs of the CU-CP by index, with the lookup of a UE by its PCI and C-RNTI.

`ueManager_iff`: the lookup is exact along a run iff no UE is added with the pair of an existing one and no UE that has a
pair gets another one.
-/

namespace SrsRan.CuCp

open Lib.Run Function

def maxNofCuUes : ℕ := 4294967295

def invalidDuIndex : ℕ := 65535

def invalidGnbDuId : ℕ := 68719476736

def invalidPci : ℕ := 1008

def invalidRnti : ℕ := 0x0

def invalidDuCellIndex : ℕ := 32

/-- The arguments of `add_ue`. -/
structure AddUe where
  duIndex : ℕ
  plmn : ℕ
  duId : Option ℕ
  pci : Option ℕ
  rnti : Option ℕ
  pcellIndex : Option ℕ

/-- The arguments that `add_ue` rejects. -/
def AddUe.Invalid (args : AddUe) : Prop :=
  args.duIndex = invalidDuIndex ∨ args.duId = some invalidGnbDuId ∨ args.pci = some invalidPci ∨
    args.rnti = some invalidRnti ∨ args.pcellIndex = some invalidDuCellIndex

def AddUe.key (args : AddUe) : ℕ × ℕ := (args.pci.getD invalidPci, args.rnti.getD invalidRnti)

instance : DecidablePred AddUe.Invalid := fun _ => inferInstanceAs (Decidable (_ ∨ _))

structure UeManager where
  maxNofUes : ℕ
  maxNofUes_le : maxNofUes ≤ maxNofCuUes
  blockedPlmns : List ℕ
  /-- the indices of the existing UEs -/
  ues : Finset ℕ
  /-- the PCI and the C-RNTI of a UE -/
  pair : ℕ → ℕ × ℕ
  nextUeIndex : ℕ
  pciRntiToUeIndex : ℕ × ℕ → Option ℕ

/-- The calls that change the indexes. -/
inductive UeAction
  | addUe (args : AddUe)
  | setUeDuContext (ueIndex pci rnti pcellIndex : ℕ)
  | removeUe (ueIndex : ℕ)

/-- A PCI and a C-RNTI that are both valid. -/
def IsPair (pair : ℕ × ℕ) : Prop := pair.1 ≠ invalidPci ∧ pair.2 ≠ invalidRnti

instance : DecidablePred IsPair := fun _ => inferInstanceAs (Decidable (_ ∧ _))

namespace UeManager

def init (maxNofUes : {n // n ≤ maxNofCuUes}) (blockedPlmns : List ℕ) : UeManager where
  maxNofUes := maxNofUes
  maxNofUes_le := maxNofUes.2
  blockedPlmns := blockedPlmns
  ues := ∅
  pair _ := (invalidPci, invalidRnti)
  nextUeIndex := 0
  pciRntiToUeIndex _ := none

def increaseNextUeIndex (next : ℕ) : ℕ := if next = maxNofCuUes - 1 then 0 else next + 1

/-- The search for a free index, with the next index to try after it. -/
def findFree (ues : Finset ℕ) : ℕ → ℕ → Option (ℕ × ℕ)
  | 0, _ => none
  | fuel + 1, next =>
    if next ∉ ues then some (next, increaseNextUeIndex next) else findFree ues fuel (increaseNextUeIndex next)

variable (s : UeManager)

/-- `allocate_ue_index`; the loop ends after at most one step for each UE (`findFree_isSome`). -/
def allocateUeIndex : Option (ℕ × ℕ) :=
  if s.ues.card = s.maxNofUes then none else findFree s.ues (s.ues.card + 1) s.nextUeIndex

/-- `emplace` keeps an entry that is there. -/
def emplace (key : ℕ × ℕ) (ueIndex : ℕ) : ℕ × ℕ → Option ℕ :=
  if s.pciRntiToUeIndex key = none then update s.pciRntiToUeIndex key (some ueIndex) else s.pciRntiToUeIndex

def addUe (args : AddUe) : UeManager × Option ℕ :=
  if args.plmn ∈ s.blockedPlmns ∨ args.Invalid ∨ s.ues.card = s.maxNofUes then (s, none)
  else
    match s.allocateUeIndex with
    | none => (s, none)
    | some (ueIndex, next) =>
      ({ s with
        ues := insert ueIndex s.ues
        pair := update s.pair ueIndex args.key
        nextUeIndex := next
        pciRntiToUeIndex := if args.pci.isSome ∧ args.rnti.isSome then s.emplace args.key ueIndex
          else s.pciRntiToUeIndex }, some ueIndex)

def removeUe (ueIndex : ℕ) : UeManager :=
  if ueIndex = maxNofCuUes ∨ ueIndex ∉ s.ues then s
  else { s with
    ues := s.ues.erase ueIndex
    pciRntiToUeIndex := if IsPair (s.pair ueIndex) then update s.pciRntiToUeIndex (s.pair ueIndex) none
      else s.pciRntiToUeIndex }

def setUeDuContext (ueIndex pci rnti : ℕ) : UeManager :=
  if ueIndex ∉ s.ues ∨ s.pciRntiToUeIndex (pci, rnti) ≠ none then s
  else { s with
    pair := update s.pair ueIndex (pci, rnti)
    pciRntiToUeIndex := s.emplace (pci, rnti) ueIndex }

/-- An action fails with an assertion of `set_ue_du_context` about its arguments. -/
def step : UeAction → Except Unit UeManager
  | .addUe args => .ok (s.addUe args).1
  | .setUeDuContext ueIndex pci rnti pcellIndex =>
    if ueIndex = maxNofCuUes ∨ ¬ IsPair (pci, rnti) ∨ pcellIndex = invalidDuCellIndex then .error ()
    else .ok (s.setUeDuContext ueIndex pci rnti)
  | .removeUe ueIndex => .ok (s.removeUe ueIndex)

/-- A pair is found iff a UE has it, and it is found with the index of this UE. -/
def Exact : Prop :=
  ∀ key ueIndex, s.pciRntiToUeIndex key = some ueIndex ↔ ueIndex ∈ s.ues ∧ s.pair ueIndex = key ∧ IsPair key

/-- The checks of `add_ue` that refuse a UE. -/
def Refuses (args : AddUe) : Prop := args.plmn ∈ s.blockedPlmns ∨ args.Invalid ∨ s.ues.card = s.maxNofUes

/-- What `add_ue` returns: a new index, or nothing for one of the reasons. -/
def Answers (args : AddUe) : Prop :=
  match (s.addUe args).2 with
  | some ueIndex => ueIndex ∉ s.ues
  | none => s.Refuses args

/-- What is expected of a step. -/
def Directory (a : UeAction) (s' : UeManager) : Prop := (∀ args, a = .addUe args → s.Answers args) ∧ s'.Exact

/-- No UE is added with the pair of another one, and no UE gets a second pair. -/
def FreshPair (a : UeAction) (_ : UeManager) : Prop :=
  match a with
  | .addUe args => ¬ s.Refuses args → IsPair args.key → ∀ u ∈ s.ues, s.pair u ≠ args.key
  | .setUeDuContext u pci rnti _ => u ∈ s.ues → s.pciRntiToUeIndex (pci, rnti) = none → ¬ IsPair (s.pair u)
  | .removeUe _ => True

/-- What all reachable states satisfy. -/
structure Inv : Prop where
  lt : ∀ u ∈ s.ues, u < maxNofCuUes
  next : s.nextUeIndex < maxNofCuUes
  card : s.ues.card ≤ s.maxNofUes
  exact : s.Exact

variable {s} {s' : UeManager} {ues : Finset ℕ} {args : AddUe} {u v next fuel : ℕ} {key : ℕ × ℕ}

lemma increaseNextUeIndex_eq (h : next < maxNofCuUes) : increaseNextUeIndex next = (next + 1) % maxNofCuUes := by
  rw [increaseNextUeIndex, maxNofCuUes] at *
  split <;> omega

lemma findFree_spec (hnext : next < maxNofCuUes) (h : findFree ues fuel next = some (u, v)) :
    u ∉ ues ∧ u < maxNofCuUes ∧ v < maxNofCuUes := by
  induction fuel generalizing next with
  | zero => cases h
  | succ fuel ih =>
    have hlt : increaseNextUeIndex next < maxNofCuUes := by
      rw [increaseNextUeIndex_eq hnext]
      exact Nat.mod_lt _ (by decide)
    rw [findFree] at h
    split at h
    next hfree =>
      cases h
      exact ⟨hfree, hnext, hlt⟩
    · exact ih hlt h

lemma mem_of_findFree_eq_none (hnext : next < maxNofCuUes) (h : findFree ues fuel next = none) {i : ℕ} (hi : i < fuel) :
    (next + i) % maxNofCuUes ∈ ues := by
  induction fuel generalizing next i with
  | zero => cases hi
  | succ fuel ih =>
    rw [findFree] at h
    split at h
    · cases h
    next hmem =>
      cases i with
      | zero =>
        rw [Nat.add_zero, Nat.mod_eq_of_lt hnext]
        exact not_not.mp hmem
      | succ i =>
        rw [increaseNextUeIndex_eq hnext] at h
        have := ih (Nat.mod_lt _ (by decide)) h (Nat.lt_of_succ_lt_succ hi)
        rwa [Nat.mod_add_mod, Nat.add_right_comm] at this

/-- Fewer UEs than indices leave a free one within one step for each UE. -/
lemma findFree_isSome (hnext : next < maxNofCuUes) (hcard : ues.card < maxNofCuUes) :
    findFree ues (ues.card + 1) next ≠ none := by
  intro h
  have hle : (Finset.range (ues.card + 1)).card ≤ ues.card := by
    refine Finset.card_le_card_of_injOn (fun i => (next + i) % maxNofCuUes) (fun i hi => ?_) fun i hi j hj hij => ?_
    · exact mem_of_findFree_eq_none hnext h (Finset.mem_range.mp hi)
    · have hi' := Finset.mem_range.mp hi
      have hj' := Finset.mem_range.mp hj
      simp only [maxNofCuUes] at *
      omega
  rw [Finset.card_range] at hle
  omega

lemma Exact.eq_none_iff (h : s.Exact) (hkey : IsPair key) :
    s.pciRntiToUeIndex key = none ↔ ∀ u ∈ s.ues, s.pair u ≠ key := by
  refine ⟨fun hnone u hu hpair => ?_, fun hall => ?_⟩
  · cases hnone.symm.trans ((h key u).mpr ⟨hu, hpair, hkey⟩)
  · by_contra hne
    obtain ⟨u, hu⟩ := Option.ne_none_iff_exists'.mp hne
    obtain ⟨hmem, hpair, -⟩ := (h key u).mp hu
    exact hall u hmem hpair

/-- A UE gets a pair: the lookup stays exact iff no other UE has it and the UE had none. -/
lemma Exact.put_iff (h : s.Exact) (s' : UeManager) (hu : u ∈ s.ues → IsPair key ∧ s.pciRntiToUeIndex key = none)
    (hues : s'.ues = insert u s.ues) (hpair : s'.pair = update s.pair u key)
    (hmap : s'.pciRntiToUeIndex = if IsPair key then s.emplace key u else s.pciRntiToUeIndex) :
    s'.Exact ↔ (IsPair key → s.pciRntiToUeIndex key = none) ∧ (u ∈ s.ues → ¬ IsPair (s.pair u)) := by
  constructor
  · intro h'
    refine ⟨fun hkey => ?_, fun hmem hold => ?_⟩
    · by_contra hne
      obtain ⟨v, hv⟩ := Option.ne_none_iff_exists'.mp hne
      have hself := (h' key u).mpr ⟨by rw [hues]; exact Finset.mem_insert_self .., by rw [hpair, update_self], hkey⟩
      rw [hmap, if_pos hkey, emplace, if_neg hne, hv] at hself
      cases hself
      exact hne (hu ((h key u).mp hv).1).2
    · obtain ⟨hkey, hnone⟩ := hu hmem
      have hentry := (h (s.pair u) u).mpr ⟨hmem, rfl, hold⟩
      have hne : s.pair u ≠ key := fun heq => by cases hnone.symm.trans (heq ▸ hentry)
      have hstale : s'.pciRntiToUeIndex (s.pair u) = some u := by
        rw [hmap, if_pos hkey, emplace, if_pos hnone, update_of_ne hne, hentry]
      have hnew := ((h' _ u).mp hstale).2.1
      rw [hpair, update_self] at hnew
      exact hne hnew.symm
  · rintro ⟨hfree, hfirst⟩ k v
    have hlookup : s'.pciRntiToUeIndex k = if IsPair key ∧ k = key then some u else s.pciRntiToUeIndex k := by
      rw [hmap]
      by_cases hkey : IsPair key
      · simp [hkey, emplace, hfree hkey, update_apply]
      · simp [hkey]
    have hk := h k v
    have hv := h key v
    rw [hlookup, hues, hpair, Finset.mem_insert]
    grind [update_apply]

lemma Exact.removeUe (h : s.Exact) (u : ℕ) : (s.removeUe u).Exact := by
  rw [UeManager.removeUe]
  split
  · exact h
  next hc =>
    intro k v
    have hv := h k v
    have hu := h k u
    show (if IsPair (s.pair u) then _ else _ : ℕ × ℕ → Option ℕ) k = some v ↔ v ∈ s.ues.erase u ∧ s.pair v = k ∧ IsPair k
    rw [Finset.mem_erase]
    grind [update_apply]

lemma isPair_key_iff (h : ¬ args.Invalid) : args.pci.isSome ∧ args.rnti.isSome ↔ IsPair args.key := by
  obtain ⟨_, _, _, pci, rnti, _⟩ := args
  simp only [AddUe.Invalid, not_or] at h
  cases pci <;> cases rnti <;> simp_all [IsPair, AddUe.key]

lemma Inv.addUe_cases (h : s.Inv) (args : AddUe) :
    (s.addUe args = (s, none) ∧ s.Refuses args) ∨
    ¬ s.Refuses args ∧ ∃ u next, u ∉ s.ues ∧ u < maxNofCuUes ∧ next < maxNofCuUes ∧ s.ues.card < s.maxNofUes ∧ s.addUe args = ({ s with
      ues := insert u s.ues
      pair := update s.pair u args.key
      nextUeIndex := next
      pciRntiToUeIndex := if IsPair args.key then s.emplace args.key u else s.pciRntiToUeIndex }, some u) := by
  by_cases hc : s.Refuses args
  · exact .inl ⟨if_pos hc, hc⟩
  · have hlt : s.ues.card < s.maxNofUes := lt_of_le_of_ne h.card fun heq => hc (.inr (.inr heq))
    have hsome := findFree_isSome h.next (hlt.trans_le s.maxNofUes_le)
    obtain ⟨⟨u, next⟩, hfree⟩ := Option.ne_none_iff_exists'.mp hsome
    obtain ⟨hu, hu', hnext⟩ := findFree_spec h.next hfree
    refine .inr ⟨hc, u, next, hu, hu', hnext, hlt, ?_⟩
    rw [addUe, if_neg (show ¬ (_ ∨ _ ∨ _) from hc), allocateUeIndex, if_neg hlt.ne, hfree]
    simp only [isPair_key_iff fun hinv => hc (.inr (.inl hinv))]

lemma Inv.step_iff (h : s.Inv) {a : UeAction} (hs : s.step a = .ok s') :
    (s.Directory a s' ↔ s.FreshPair a s') ∧ (s.FreshPair a s' → s'.Inv) := by
  cases a with
  | addUe args =>
    cases hs
    have hdir : s.Directory (.addUe args) (s.addUe args).1 ↔ s.Answers args ∧ (s.addUe args).1.Exact :=
      and_congr_left' ⟨fun hall => hall args rfl, fun hans args' heq => by cases heq; exact hans⟩
    rw [hdir, Answers, FreshPair]
    obtain ⟨heq, hreason⟩ | ⟨hnot, u, next, hu, hlt, hnext, hcard, heq⟩ := h.addUe_cases args
    · rw [heq]
      exact ⟨iff_of_true ⟨hreason, h.exact⟩ fun hnot => absurd hreason hnot, fun _ => h⟩
    · rw [heq]
      have hput := h.exact.put_iff _ (fun hmem => absurd hmem hu) (congrArg (·.1.ues) heq) (congrArg (·.1.pair) heq)
        (congrArg (·.1.pciRntiToUeIndex) heq)
      rw [heq] at hput
      have hfresh : (IsPair args.key → s.pciRntiToUeIndex args.key = none) ↔
          (IsPair args.key → ∀ v ∈ s.ues, s.pair v ≠ args.key) := forall_congr' h.exact.eq_none_iff
      refine ⟨?_, fun hf => ⟨?_, hnext, ?_, hput.mpr ⟨hfresh.mpr (hf hnot), fun hmem => absurd hmem hu⟩⟩⟩
      · rw [hput, hfresh]
        exact ⟨fun hd _ => hd.2.1, fun hf => ⟨hu, hf hnot, fun hmem => absurd hmem hu⟩⟩
      · intro v hv
        obtain rfl | hv := Finset.mem_insert.mp hv
        · exact hlt
        · exact h.lt v hv
      · rw [Finset.card_insert_of_notMem hu]
        exact hcard
  | setUeDuContext u pci rnti pcellIndex =>
    rw [step] at hs
    split at hs
    · cases hs
    next hvalid =>
      cases hs
      have hkey : IsPair (pci, rnti) := by
        by_contra hkey
        exact hvalid (.inr (.inl hkey))
      rw [Directory, FreshPair, setUeDuContext]
      split
      next hc =>
        refine ⟨iff_of_true ⟨nofun, h.exact⟩ fun hu hnone => ?_, fun _ => h⟩
        exact absurd hnone (hc.resolve_left (not_not.mpr hu))
      next hc =>
        rw [not_or, not_not, not_not] at hc
        have hput := h.exact.put_iff { s with
          pair := update s.pair u (pci, rnti)
          pciRntiToUeIndex := s.emplace (pci, rnti) u } (fun _ => ⟨hkey, hc.2⟩) (Finset.insert_eq_of_mem hc.1).symm rfl
          (if_pos hkey).symm
        rw [hput]
        refine ⟨⟨fun hd hu _ => hd.2.2 hu, fun hf => ⟨nofun, fun _ => hc.2, fun hu => hf hu hc.2⟩⟩, fun hf => ?_⟩
        exact ⟨h.lt, h.next, h.card, hput.mpr ⟨fun _ => hc.2, fun hu => hf hu hc.2⟩⟩
  | removeUe u =>
    cases hs
    refine ⟨iff_of_true ⟨nofun, h.exact.removeUe u⟩ trivial, fun _ => ?_⟩
    have hexact := h.exact.removeUe u
    rw [removeUe] at hexact ⊢
    split
    · exact h
    next hc =>
      rw [if_neg hc] at hexact
      exact ⟨fun v hv => h.lt v (Finset.mem_of_mem_erase hv), h.next, Finset.card_erase_le.trans h.card, hexact⟩

/-- **The directory is exact along a run iff every pair of the run is fresh.** -/
theorem ueManager_iff (maxNofUes : {n // n ≤ maxNofCuUes}) (blockedPlmns : List ℕ) (as : List UeAction) :
    Along step Directory (init maxNofUes blockedPlmns) as ↔ Along step FreshPair (init maxNofUes blockedPlmns) as := by
  refine Along.iff (I := Inv) (fun s a s' h hs => (h.step_iff hs).1) (fun s a s' h hs => (h.step_iff hs).2) ?_ as
  refine ⟨nofun, Nat.succ_pos _, Nat.zero_le _, fun key u => iff_of_false nofun fun h => ?_⟩
  exact absurd h.1 (Finset.notMem_empty u)

/-- A UE that gets a second pair is still found by the first one. -/
theorem ueManager_stale : ¬ Along step Directory (init ⟨8, by decide⟩ [])
    [.addUe ⟨0, 1, some 0, some 1, some 0x4601, some 0⟩, .setUeDuContext 0 2 0x4602 0] := by
  intro h
  have hexact := ((h _ rfl).2 _ rfl).1.2
  have hstale := ((hexact (1, 0x4601) 0).mp (by decide)).2.1
  exact absurd hstale (by decide)

end UeManager

end SrsRan.CuCp
