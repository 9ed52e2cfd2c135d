import SrsRan.Lib.Occupied
import SrsRan.Lib.SeqNum

/-!
# `circular_map` and `sdu_window`

The SDUs of a sliding window are kept in a `circular_map` whose capacity is a power of two: a key is stored in the slot `key
% capacity`, next to the object.  `CircularMap` carries the facts about its storage as fields, and a failed `srsran_assert`
is an `Abort`.
-/

namespace SrsRan.Support

open Lib.SeqNum
open Function (update update_self update_of_ne)

/-- The assertions whose failure terminates the process. -/
inductive Abort where
  /-- `circular_map::operator[]`: "Accessing non-existent ID={}" -/
  | nonExistentId (id : ℕ)
  /-- `sdu_window::add_sn`: "sn={} already present in window." -/
  | alreadyPresent (sn : ℕ)
  /-- `sdu_window::remove_sn`: "Cannot remove sn={} because not contained in the window." -/
  | notContained (sn : ℕ)
  | assertion (text : String)
deriving DecidableEq

/-- `circular_map_impl` over a `std::vector`, with the key type `uint32_t`. -/
structure CircularMap (V : Type) where
  capacity : ℕ
  data : ℕ → Option (ℕ × V)
  count : ℕ
  capacity_pos : 0 < capacity
  idx_of_data : ∀ i k v, data i = some (k, v) → k % capacity = i
  /-- `count` counts the occupied slots -/
  count_eq : count = ((Finset.range capacity).filter fun i => (data i).isSome).card

namespace CircularMap

variable {V : Type}

def empty (size : ℕ) (h : 0 < size) : CircularMap V where
  capacity := size
  data := fun _ => none
  count := 0
  capacity_pos := h
  idx_of_data := by simp
  count_eq := by simp

variable (m : CircularMap V)

def getCircularIdx (key : ℕ) : ℕ := key % m.capacity

def get? (key : ℕ) : Option V :=
  match m.data (m.getCircularIdx key) with
  | some (k, v) => if k = key then some v else none
  | none => none

def contains (key : ℕ) : Bool := (m.get? key).isSome

def hasSpace (key : ℕ) : Bool := (m.data (m.getCircularIdx key)).isNone

def full : Bool := m.count == m.capacity

def isEmpty : Bool := m.count == 0

lemma getCircularIdx_lt (key : ℕ) : m.getCircularIdx key < m.capacity := Nat.mod_lt _ m.capacity_pos

variable {m : CircularMap V} {key i : ℕ}

lemma get?_eq_some {v : V} : m.get? key = some v ↔ m.data (m.getCircularIdx key) = some (key, v) := by
  unfold get?
  cases h : m.data (m.getCircularIdx key) with
  | none => simp
  | some kv =>
    obtain ⟨k, w⟩ := kv
    by_cases hk : k = key <;> simp [hk]

lemma get?_of_data {k : ℕ} {v : V} (h : m.data i = some (k, v)) : m.get? k = some v := by
  rw [get?_eq_some, getCircularIdx, m.idx_of_data i k v h, h]

lemma hasSpace_of_forall (h : ∀ k v, m.get? k = some v → k % m.capacity ≠ key % m.capacity) :
    m.hasSpace key = true := by
  unfold hasSpace
  cases hd : m.data (m.getCircularIdx key) with
  | none => rfl
  | some kv =>
    obtain ⟨k, v⟩ := kv
    exact absurd (m.idx_of_data _ k v hd) (h k v (get?_of_data hd))

lemma hasSpace_of_window {A x q : ℕ} (hd : m.capacity ∣ q)
    (hmem : ∀ k, (m.get? k).isSome → ∃ a, A ≤ a ∧ a < A + m.capacity ∧ a % q = k)
    (h1 : A ≤ x) (h2 : x < A + m.capacity) (hx : m.get? (x % q) = none) : m.hasSpace (x % q) = true := by
  refine hasSpace_of_forall fun k v hk heq => ?_
  obtain ⟨a, ha1, ha2, rfl⟩ := hmem k (by rw [hk]; rfl)
  rw [Nat.mod_mod_of_dvd _ hd, Nat.mod_mod_of_dvd _ hd] at heq
  obtain rfl := eq_of_mod_eq heq ha1 ha2 h1 h2
  rw [hx] at hk
  cases hk

lemma count_le_capacity (m : CircularMap V) : m.count ≤ m.capacity := by
  rw [m.count_eq]
  exact (Finset.card_filter_le _ _).trans (by simp)

lemma card_filter_update_some {n : ℕ} (hi : i < n) {d : ℕ → Option (ℕ × V)} (hd : d i = none) (kv : ℕ × V) :
    ((Finset.range n).filter fun j => (update d i (some kv) j).isSome).card =
      ((Finset.range n).filter fun j => (d j).isSome).card + 1 := by
  rw [Lib.filter_update_pos (p := fun o : Option (ℕ × V) => o.isSome) (Finset.mem_range.mpr hi) rfl]
  exact Finset.card_insert_of_notMem (by simp [hd])

lemma card_filter_update_none {n : ℕ} (hi : i < n) {d : ℕ → Option (ℕ × V)} (hd : (d i).isSome) :
    ((Finset.range n).filter fun j => (update d i none j).isSome).card =
      ((Finset.range n).filter fun j => (d j).isSome).card - 1 := by
  rw [Lib.filter_update_neg (p := fun o : Option (ℕ × V) => o.isSome) (v := none) nofun]
  exact Finset.card_erase_of_mem (by simp [hi, hd])

/-- `insert`: fails when the slot of `key` is occupied. -/
def insert (m : CircularMap V) (key : ℕ) (obj : V) : CircularMap V :=
  if h : m.data (m.getCircularIdx key) = none then
    { m with
      data := update m.data (m.getCircularIdx key) (some (key, obj))
      count := m.count + 1
      idx_of_data := by
        intro i k v hi
        by_cases hne : i = m.getCircularIdx key
        · subst hne
          simp only [update_self, Option.some.injEq, Prod.mk.injEq] at hi
          rw [← hi.1, getCircularIdx]
        · rw [update_of_ne hne] at hi
          exact m.idx_of_data i k v hi
      count_eq := by rw [card_filter_update_some (m.getCircularIdx_lt key) h, m.count_eq] }
  else m

def erase (m : CircularMap V) (key : ℕ) : CircularMap V :=
  if h : m.contains key then
    { m with
      data := update m.data (m.getCircularIdx key) none
      count := m.count - 1
      idx_of_data := by
        intro i k v hi
        by_cases hne : i = m.getCircularIdx key
        · subst hne; simp at hi
        · rw [update_of_ne hne] at hi
          exact m.idx_of_data i k v hi
      count_eq := by
        have hs : (m.data (m.getCircularIdx key)).isSome := by
          obtain ⟨v, hv⟩ := Option.isSome_iff_exists.mp h
          simp [get?_eq_some.mp hv]
        rw [card_filter_update_none (m.getCircularIdx_lt key) hs, m.count_eq] }
  else m

/-- `overwrite`: whatever occupies the slot of `key` is erased first. -/
def overwrite (m : CircularMap V) (key : ℕ) (obj : V) : CircularMap V :=
  match m.data (m.getCircularIdx key) with
  | some (k, _) => (m.erase k).insert key obj
  | none => m.insert key obj

def modify (m : CircularMap V) (key : ℕ) (f : V → V) : CircularMap V :=
  { m with
    data := fun i => (m.data i).map fun kv => if kv.1 = key then (kv.1, f kv.2) else kv
    idx_of_data := by
      intro i k v hi
      obtain ⟨⟨k', v'⟩, hd, he⟩ := Option.map_eq_some_iff.mp hi
      have hk : k' = k := by
        by_cases hkey : k' = key <;> simp [hkey] at he <;> simp [he.1, hkey]
      exact m.idx_of_data i k v' (hk ▸ hd)
    count_eq := by simp [m.count_eq] }

/-! ### What the operations do to the stored keys -/

@[simp] lemma capacity_insert (m : CircularMap V) (key : ℕ) (obj : V) : (m.insert key obj).capacity = m.capacity := by
  unfold insert; split <;> rfl

@[simp] lemma capacity_erase (m : CircularMap V) (key : ℕ) : (m.erase key).capacity = m.capacity := by
  unfold erase; split <;> rfl

@[simp] lemma capacity_overwrite (m : CircularMap V) (key : ℕ) (obj : V) :
    (m.overwrite key obj).capacity = m.capacity := by
  unfold overwrite; split <;> simp

@[simp] lemma capacity_modify (m : CircularMap V) (key : ℕ) (f : V → V) : (m.modify key f).capacity = m.capacity := rfl

@[simp] lemma get?_empty (size : ℕ) (h : 0 < size) (key : ℕ) : (empty size h : CircularMap V).get? key = none := rfl

lemma get?_insert (h : m.hasSpace key = true) (obj : V) (k : ℕ) :
    (m.insert key obj).get? k = if k = key then some obj else m.get? k := by
  have hn : m.data (m.getCircularIdx key) = none := by simpa [hasSpace] using h
  rw [insert, dif_pos hn]
  simp only [get?, getCircularIdx] at hn ⊢
  by_cases hk : k = key
  · subst hk; simp
  · by_cases hi : k % m.capacity = key % m.capacity
    · simp [hi, hn, Ne.symm hk, hk]
    · simp [update_of_ne hi, hk]

lemma count_insert (h : m.hasSpace key = true) (obj : V) : (m.insert key obj).count = m.count + 1 := by
  have hn : m.data (m.getCircularIdx key) = none := by simpa [hasSpace] using h
  simp only [insert, hn, dif_pos]

lemma get?_erase (m : CircularMap V) (key k : ℕ) : (m.erase key).get? k = if k = key then none else m.get? k := by
  unfold erase
  split
  next hc =>
    obtain ⟨v, hv⟩ := Option.isSome_iff_exists.mp hc
    have hd := get?_eq_some.mp hv
    simp only [get?, getCircularIdx] at hd ⊢
    by_cases hk : k = key
    · subst hk; simp
    · by_cases hi : k % m.capacity = key % m.capacity
      · simp [hi, hk, hd, Ne.symm hk]
      · simp [update_of_ne hi, hk]
  next hc =>
    by_cases hk : k = key
    · subst hk
      simpa [contains] using hc
    · simp [hk]

lemma count_erase (h : (m.get? key).isSome) : (m.erase key).count = m.count - 1 := by
  unfold erase
  rw [dif_pos (show m.contains key = true from h)]

lemma get?_modify (m : CircularMap V) (key : ℕ) (f : V → V) (k : ℕ) :
    (m.modify key f).get? k = if k = key then (m.get? key).map f else m.get? k := by
  simp only [modify, get?, getCircularIdx]
  by_cases hk : k = key
  · subst hk
    cases m.data (k % m.capacity) with
    | none => simp
    | some kv => by_cases h : kv.1 = k <;> simp [h]
  · cases m.data (k % m.capacity) with
    | none => simp [hk]
    | some kv =>
      by_cases h : kv.1 = key
      · simp [h, hk, Ne.symm hk]
      · simp [h, hk]

lemma hasSpace_erase {v : V} {k : ℕ} (h : m.data (m.getCircularIdx key) = some (k, v)) :
    (m.erase k).hasSpace key = true := by
  have hidx : k % m.capacity = key % m.capacity := m.idx_of_data _ _ _ h
  have hk : m.contains k = true := by rw [contains, get?_of_data h]; rfl
  rw [erase, dif_pos hk]
  simp [hasSpace, getCircularIdx, hidx]

lemma get?_overwrite_cases {obj v : V} {k : ℕ} (h : (m.overwrite key obj).get? k = some v) :
    v = obj ∨ m.get? k = some v := by
  unfold overwrite at h
  split at h
  next k' v' hd =>
    rw [get?_insert (hasSpace_erase hd)] at h
    split at h
    · exact .inl (Option.some.inj h).symm
    · rw [get?_erase] at h
      split at h
      · cases h
      · exact .inr h
  next hd =>
    rw [get?_insert (by rw [hasSpace, hd]; rfl)] at h
    split at h
    · exact .inl (Option.some.inj h).symm
    · exact .inr h

lemma overwrite_eq_insert (h : m.hasSpace key = true) (obj : V) : m.overwrite key obj = m.insert key obj := by
  have hn : m.data (m.getCircularIdx key) = none := by simpa [hasSpace] using h
  simp [overwrite, hn]

end CircularMap

/-! ### `sdu_window` -/

/-- `sdu_window`: a circular map addressed by sequence number. -/
abbrev SduWindow (T : Type) := CircularMap T

namespace SduWindow

variable {T : Type}

variable (w : SduWindow T)

variable (sn : ℕ)

def hasSn : Bool := w.contains sn

/-- `add_sn`, with the value that the caller then writes into the new entry. -/
def addSn (v : T) : Except Abort (SduWindow T) :=
  if SduWindow.hasSn w sn then .error (.alreadyPresent sn) else .ok (w.overwrite sn v)

def removeSn : Except Abort (SduWindow T) :=
  if SduWindow.hasSn w sn then .ok (w.erase sn) else .error (.notContained sn)

def access : Except Abort T :=
  match w.get? sn with
  | some v => .ok v
  | none => .error (.nonExistentId sn)

lemma hasSn_eq : SduWindow.hasSn w sn = (w.get? sn).isSome := rfl

variable {w : SduWindow T} {sn : ℕ}

lemma access_of_get? {v : T} (h : w.get? sn = some v) : SduWindow.access w sn = .ok v := by
  simp [SduWindow.access, h]

lemma access_of_get?_none (h : w.get? sn = none) : SduWindow.access w sn = .error (.nonExistentId sn) := by
  simp [SduWindow.access, h]

lemma addSn_eq_ok {w' : SduWindow T} {v : T} (h : SduWindow.addSn w sn v = .ok w') :
    w.get? sn = none ∧ w' = w.overwrite sn v := by
  unfold SduWindow.addSn at h
  split at h
  · cases h
  next hn =>
    simp only [Except.ok.injEq] at h
    exact ⟨by simpa [SduWindow.hasSn, CircularMap.contains] using hn, h.symm⟩

end SduWindow

end SrsRan.Support
