import Mathlib.Algebra.BigOperators.Field
import SrsRan.Edgeric.Control

/-!
# The weights held by EdgeRIC

`get_weights_from_er` in exact arithmetic.  The weights of a message are stored over those that are held, and then every
weight that is held is divided by the total of the message.  `EdgeRic.weightsLoop` is the same loop on `float`s; it stores
the same weights (`weightsLoop_floats`) and rounds only the total.
-/

namespace SrsRan.Edgeric.Weights

open List

abbrev Rnti := Fin (2 ^ 16)

/-- `weights_recved` -/
abbrev WeightMap := Rnti → Option ℚ

/-- The loop over a message: the weights are stored and added up. -/
def weightsLoop : List (Rnti × ℚ) → WeightMap → ℚ → WeightMap × ℚ
  | [], recved, total => (recved, total)
  | (rnti, weight) :: rest, recved, total => weightsLoop rest (Function.update recved rnti (some weight)) (total + weight)

/-- `get_weights_from_er`, for a message that was received -/
def getWeightsFromEr (recved : WeightMap) (msg : List (Rnti × ℚ)) : WeightMap :=
  let (recved, total) := weightsLoop msg recved 0
  if 0 < total then fun rnti => (recved rnti).map (· / total) else recved

/-- What is held after a sequence of messages -/
def recvedAfter (msgs : List (List (Rnti × ℚ))) : WeightMap := msgs.foldl getWeightsFromEr fun _ => none

/-- The weight held for an RNTI; one that is not in the map has no weight. -/
def weightOf (recved : WeightMap) (rnti : Rnti) : ℚ := (recved rnti).getD 0

def rntis (msg : List (Rnti × ℚ)) : List Rnti := msg.map Prod.fst

def totalWeight (msg : List (Rnti × ℚ)) : ℚ := (msg.map Prod.snd).sum

/-- The weight listed last for an RNTI, 0 if none is -/
def lastWeight (msgs : List (List (Rnti × ℚ))) (rnti : Rnti) : ℚ :=
  ((msgs.flatten.reverse.find? fun p => p.1 = rnti).map Prod.snd).getD 0

/-- The weights of a message that a later entry for the same RNTI overwrites. -/
def overwritten : List (Rnti × ℚ) → ℚ
  | [] => 0
  | p :: rest => (if p.1 ∈ rntis rest then p.2 else 0) + overwritten rest

/-- The map holds the weights of the message, scaled to the sum 1, and no others. -/
structure Normalised (msg : List (Rnti × ℚ)) (recved : WeightMap) : Prop where
  sum_eq : ∑ rnti, weightOf recved rnti = 1
  proportional : ∃ c > 0, ∀ p ∈ msg, (rntis msg).count p.1 = 1 → weightOf recved p.1 = c * p.2
  absent : ∀ rnti ∉ rntis msg, weightOf recved rnti = 0

/-- The sum of the weights held for RNTIs that the message does not list. -/
def stale (msg : List (Rnti × ℚ)) (recved : WeightMap) : ℚ :=
  ∑ rnti, if rnti ∈ rntis msg then 0 else weightOf recved rnti

/-! ### What the loop leaves -/

lemma totalWeight_cons (p : Rnti × ℚ) (rest : List (Rnti × ℚ)) : totalWeight (p :: rest) = p.2 + totalWeight rest := rfl

lemma weightsLoop_snd (msg : List (Rnti × ℚ)) (recved : WeightMap) (total : ℚ) :
    (weightsLoop msg recved total).2 = total + totalWeight msg := by
  induction msg generalizing recved total with
  | nil => simp [weightsLoop, totalWeight]
  | cons p rest ih => rw [weightsLoop, ih, totalWeight_cons, add_assoc]

/-- The loop leaves the weight that the message lists last, or what was held. -/
lemma weightsLoop_fst (msg : List (Rnti × ℚ)) (recved : WeightMap) (total : ℚ) (rnti : Rnti) :
    (weightsLoop msg recved total).1 rnti =
      ((msg.reverse.find? fun p => p.1 = rnti).map Prod.snd).or (recved rnti) := by
  induction msg generalizing recved total with
  | nil => rfl
  | cons p rest ih =>
    rw [weightsLoop, ih, reverse_cons, find?_append]
    by_cases hp : p.1 = rnti
    · subst hp
      cases rest.reverse.find? fun q => q.1 = p.1 <;> simp
    · cases rest.reverse.find? fun q => q.1 = rnti <;> simp [hp, Function.update_of_ne (Ne.symm hp)]

lemma weightsLoop_of_notMem {msg : List (Rnti × ℚ)} {rnti : Rnti} (h : rnti ∉ rntis msg) (recved : WeightMap)
    (total : ℚ) : (weightsLoop msg recved total).1 rnti = recved rnti := by
  have hnone : (msg.reverse.find? fun p => p.1 = rnti) = none := by
    refine find?_eq_none.mpr fun p hp heq => h ?_
    exact mem_map.mpr ⟨p, mem_reverse.mp hp, of_decide_eq_true heq⟩
  rw [weightsLoop_fst, hnone]
  rfl

lemma weightsLoop_of_count {msg : List (Rnti × ℚ)} {p : Rnti × ℚ} (hp : p ∈ msg) (h : (rntis msg).count p.1 = 1)
    (recved : WeightMap) (total : ℚ) : (weightsLoop msg recved total).1 p.1 = some p.2 := by
  induction msg generalizing recved total with
  | nil => cases hp
  | cons q rest ih =>
    rw [rntis, map_cons, count_cons] at h
    rw [weightsLoop]
    rcases mem_cons.mp hp with rfl | hrest
    · have hout : p.1 ∉ rntis rest := count_eq_zero.mp (by simpa [rntis] using h)
      rw [weightsLoop_of_notMem hout, Function.update_self]
    · have hin : 0 < (rest.map Prod.fst).count p.1 := count_pos_iff.mpr (mem_map_of_mem hrest)
      exact ih hrest (by rw [rntis]; split at h <;> omega) _ _

lemma stale_update (p : Rnti × ℚ) (rest : List (Rnti × ℚ)) (recved : WeightMap) :
    stale rest (Function.update recved p.1 (some p.2)) =
      stale (p :: rest) recved + if p.1 ∈ rntis rest then 0 else p.2 := by
  have hothers : ∀ rnti ∈ Finset.univ.erase p.1,
      (if rnti ∈ rntis rest then 0 else weightOf (Function.update recved p.1 (some p.2)) rnti) =
        if rnti ∈ rntis (p :: rest) then 0 else weightOf recved rnti := by
    intro rnti hr
    have hne : rnti ≠ p.1 := Finset.ne_of_mem_erase hr
    simp only [rntis, map_cons, mem_cons, hne, false_or, weightOf, Function.update_of_ne hne]
  rw [stale, stale, ← Finset.add_sum_erase _ _ (Finset.mem_univ p.1), ← Finset.add_sum_erase _ _ (Finset.mem_univ p.1),
    if_pos (show p.1 ∈ rntis (p :: rest) from mem_cons_self), zero_add, Finset.sum_congr rfl hothers, weightOf,
    Function.update_self, Option.getD_some, add_comm]

/-- **The account of the loop.** What is held and what was overwritten make up what was held for other RNTIs and the
total. -/
lemma sum_weightsLoop (msg : List (Rnti × ℚ)) (recved : WeightMap) (total : ℚ) :
    ∑ rnti, weightOf (weightsLoop msg recved total).1 rnti + overwritten msg = stale msg recved + totalWeight msg := by
  induction msg generalizing recved total with
  | nil => simp [weightsLoop, overwritten, stale, totalWeight, rntis]
  | cons p rest ih =>
    have h := ih (Function.update recved p.1 (some p.2)) (total + p.2)
    rw [stale_update] at h
    rw [weightsLoop, overwritten, totalWeight_cons]
    split at h <;> split <;> first | contradiction | linarith

lemma weightOf_getWeightsFromEr {msg : List (Rnti × ℚ)} (h : 0 < totalWeight msg) (recved : WeightMap) (rnti : Rnti) :
    weightOf (getWeightsFromEr recved msg) rnti = weightOf (weightsLoop msg recved 0).1 rnti / totalWeight msg := by
  have htotal : (weightsLoop msg recved 0).2 = totalWeight msg := by rw [weightsLoop_snd, zero_add]
  rw [getWeightsFromEr]
  simp only [htotal, if_pos h, weightOf]
  cases (weightsLoop msg recved 0).1 rnti <;> simp

lemma normalised_getWeightsFromEr {msg : List (Rnti × ℚ)} (h : 0 < totalWeight msg) (recved : WeightMap) :
    Normalised msg (getWeightsFromEr recved msg) ↔
      (∀ rnti ∉ rntis msg, weightOf recved rnti = 0) ∧ overwritten msg = 0 := by
  have hsum := sum_weightsLoop msg recved 0
  have hscaled : ∑ rnti, weightOf (getWeightsFromEr recved msg) rnti =
      (∑ rnti, weightOf (weightsLoop msg recved 0).1 rnti) / totalWeight msg := by
    rw [Finset.sum_div]
    exact Finset.sum_congr rfl fun rnti _ => weightOf_getWeightsFromEr h recved rnti
  have habsent : ∀ rnti ∉ rntis msg,
      weightOf (getWeightsFromEr recved msg) rnti = weightOf recved rnti / totalWeight msg := by
    intro rnti hr
    rw [weightOf_getWeightsFromEr h, weightOf, weightsLoop_of_notMem hr, weightOf]
  have hstale : (∀ rnti ∉ rntis msg, weightOf recved rnti = 0) → stale msg recved = 0 := by
    intro hzero
    refine Finset.sum_eq_zero fun rnti _ => ?_
    split
    · rfl
    · exact hzero rnti ‹_›
  constructor
  · intro hn
    have hzero : ∀ rnti ∉ rntis msg, weightOf recved rnti = 0 := by
      intro rnti hr
      have := hn.absent rnti hr
      rwa [habsent rnti hr, div_eq_zero_iff, or_iff_left h.ne'] at this
    have hone := hn.sum_eq
    rw [hscaled, div_eq_one_iff_eq h.ne'] at hone
    exact ⟨hzero, by linarith [hstale hzero]⟩
  · rintro ⟨hzero, hover⟩
    refine ⟨?_, ⟨(totalWeight msg)⁻¹, inv_pos.mpr h, fun p hp hcount => ?_⟩, fun rnti hr => ?_⟩
    · rw [hscaled, div_eq_one_iff_eq h.ne']
      linarith [hstale hzero]
    · rw [weightOf_getWeightsFromEr h, weightOf, weightsLoop_of_count hp hcount, Option.getD_some, div_eq_inv_mul]
    · rw [habsent rnti hr, hzero rnti hr, zero_div]

/-- A message divides what is held by a positive number, if at all. -/
lemma weightOf_getWeightsFromEr_eq_zero (msg : List (Rnti × ℚ)) (recved : WeightMap) (rnti : Rnti) :
    weightOf (getWeightsFromEr recved msg) rnti = 0 ↔ weightOf (weightsLoop msg recved 0).1 rnti = 0 := by
  by_cases h : 0 < totalWeight msg
  · rw [weightOf_getWeightsFromEr h, div_eq_zero_iff, or_iff_left h.ne']
  · have htotal : (weightsLoop msg recved 0).2 = totalWeight msg := by rw [weightsLoop_snd, zero_add]
    rw [getWeightsFromEr]
    simp only [htotal, if_neg h]

/-- An RNTI has no weight iff the weight that was listed last for it is 0. -/
lemma weightOf_recvedAfter_eq_zero (msgs : List (List (Rnti × ℚ))) (rnti : Rnti) :
    weightOf (recvedAfter msgs) rnti = 0 ↔ lastWeight msgs rnti = 0 := by
  induction msgs using reverseRecOn with
  | nil => exact iff_of_true rfl rfl
  | append_singleton msgs msg ih =>
    have hafter : recvedAfter (msgs ++ [msg]) = getWeightsFromEr (recvedAfter msgs) msg := by
      rw [recvedAfter, foldl_append]
      rfl
    rw [hafter, weightOf_getWeightsFromEr_eq_zero, weightOf, weightsLoop_fst, lastWeight, flatten_append, reverse_append,
      find?_append, flatten_singleton]
    cases msg.reverse.find? fun p => p.1 = rnti with
    | none => exact ih
    | some p => exact Iff.rfl

/-- **Normalisation.**  After a sequence of messages the weights are those of the last message scaled to 1 iff for every
other RNTI the weight listed last is 0, and the message overwrites no weight of its own. -/
theorem weights_normalised_iff (msgs : List (List (Rnti × ℚ))) (msg : List (Rnti × ℚ)) (h : 0 < totalWeight msg) :
    Normalised msg (recvedAfter (msgs ++ [msg])) ↔
      (∀ rnti ∉ rntis msg, lastWeight msgs rnti = 0) ∧ overwritten msg = 0 := by
  rw [recvedAfter, foldl_append, ← recvedAfter]
  refine (normalised_getWeightsFromEr h _).trans (and_congr_left' ?_)
  exact forall₂_congr fun rnti _ => weightOf_recvedAfter_eq_zero msgs rnti

/-- RNTI 3 is taken back with weight 0 before RNTIs 1 and 2 share the weight. -/
theorem weights_normalised_once :
    0 < totalWeight [(1, 2), (2, 3)] ∧
      Normalised [(1, 2), (2, 3)] (recvedAfter ([[(3, 4), (1, 1)], [(3, 0)]] ++ [[(1, 2), (2, 3)]])) := by
  refine ⟨by decide +kernel, (weights_normalised_iff _ _ (by decide +kernel)).mpr ⟨fun rnti hr => ?_, by decide +kernel⟩⟩
  have hne : (1 : Rnti) ≠ rnti := fun heq => hr (heq ▸ mem_cons_self)
  by_cases h3 : (3 : Rnti) = rnti <;> simp [lastWeight, h3, hne]

/-! ### The loop on floats -/

/-- The weights as `float`s that hold them -/
def floats (recved : WeightMap) (rnti : ℕ) : Option Lib.Binary32.F32 :=
  if h : rnti < 2 ^ 16 then (recved ⟨rnti, h⟩).map .fin else none

lemma floats_update (recved : WeightMap) (rnti : Rnti) (weight : ℚ) :
    floats (Function.update recved rnti (some weight)) =
      Function.update (floats recved) rnti (some (.fin weight)) := by
  funext r
  by_cases hr : r = rnti
  · subst hr
    simp [floats]
  · rw [Function.update_of_ne hr]
    by_cases hlt : r < 2 ^ 16
    · have hne : (⟨r, hlt⟩ : Rnti) ≠ rnti := fun heq => hr (congrArg Fin.val heq)
      simp only [floats, dif_pos hlt, Function.update_of_ne hne]
    · simp only [floats, dif_neg hlt]

/-- The loop of the code stores the weights of the exact one, whatever the total is rounded to. -/
theorem weightsLoop_floats (casts : Casts) (msg : List (Rnti × ℚ)) (recved : WeightMap) (total : ℚ)
    (total' : Lib.Binary32.F32) :
    ∃ total'', EdgeRic.weightsLoop casts (msg.flatMap fun p => [.fin (p.1 : ℕ), .fin p.2]) (floats recved) total' =
      .ok (floats (weightsLoop msg recved total).1, total'') := by
  induction msg generalizing recved total total' with
  | nil => exact ⟨total', rfl⟩
  | cons p rest ih =>
    have hcast : casts.u16 (.fin (p.1 : ℕ)) = p.1 := by
      rw [casts.u16_eq _ (by linarith [(Nat.cast_nonneg p.1 : (0 : ℚ) ≤ (p.1 : ℕ))]) (by exact_mod_cast p.1.isLt),
        Nat.floor_natCast]
    rw [flatMap_cons]
    show ∃ total'', EdgeRic.weightsLoop casts (.fin (p.1 : ℕ) :: .fin p.2 :: _) _ _ = _
    rw [EdgeRic.weightsLoop, hcast, ← floats_update]
    exact ih ..

/-- The weight of RNTI 1 stays when the next message lists only RNTI 2. -/
theorem weights_stay :
    0 < totalWeight [(2, 1)] ∧ weightOf (recvedAfter [[(1, 1)], [(2, 1)]]) 1 = 1 ∧
      weightOf (recvedAfter [[(1, 1)], [(2, 1)]]) 2 = 1 ∧ ¬ Normalised [(2, 1)] (recvedAfter [[(1, 1)], [(2, 1)]]) := by
  refine ⟨by decide +kernel, by decide +kernel, by decide +kernel, fun h => ?_⟩
  have h1 : weightOf (recvedAfter [[(1, 1)], [(2, 1)]]) 1 = 0 := h.absent 1 (by decide)
  exact absurd h1 (by decide +kernel)

end SrsRan.Edgeric.Weights
