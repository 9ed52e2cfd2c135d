import SrsRan.Lib.Binary32
import SrsRan.Sched.InterSliceSlot

/-!
# EdgeRIC control messages

`edgeric` receives scheduling weights, MCS overrides and slice budgets from an external process and keeps the last values in
maps.  A message is given by its fields, or by `none` if nothing was received; reading a field outside of it is an error.
`Casts` is any choice of the conversions of a `float` to an integer that C++ does not define.
-/

namespace SrsRan.Edgeric

open Support Sched Lib.Run Lib.Binary32

/-- The conversions of `float` to `uint16_t` and `uint8_t`. -/
structure Casts where
  u16 : F32 → ℕ
  u8 : F32 → ℕ
  u16_lt : ∀ x, u16 x < 2 ^ 16
  u8_lt : ∀ x, u8 x < 2 ^ 8
  u16_eq : ∀ q, -1 < q → q < 2 ^ 16 → u16 (.fin q) = ⌊q⌋₊
  u8_eq : ∀ q, -1 < q → q < 2 ^ 8 → u8 (.fin q) = ⌊q⌋₊

/-- The static members of `edgeric` that hold what has been received. -/
structure EdgeRic where
  weightsRecved : ℕ → Option F32
  mcsRecved : ℕ → Option ℕ
  sliceBudgetsRecved : ℕ → Option SliceBudget

namespace EdgeRic

variable (casts : Casts)

def init : EdgeRic where
  weightsRecved _ := none
  mcsRecved _ := none
  sliceBudgetsRecved _ := none

def weightsLoop : List F32 → (ℕ → Option F32) → F32 → Except Abort ((ℕ → Option F32) × F32)
  | [], recved, total => .ok (recved, total)
  | [_], _, _ => .error (.assertion "weights(i + 1) out of range")
  | rnti :: weight :: rest, recved, total =>
    weightsLoop rest (Function.update recved (casts.u16 rnti) (some weight)) (total.add weight)

def getWeightsFromEr (msg : Option (List F32)) (e : EdgeRic) : Except Abort EdgeRic :=
  match msg with
  | none => .ok e
  | some weights => do
    let (recved, total) ← weightsLoop casts weights e.weightsRecved (.fin 0)
    .ok { e with
      weightsRecved := if (F32.fin 0).lt total then fun rnti => (recved rnti).map (·.div total) else recved }

def mcsLoop : List F32 → (ℕ → Option ℕ) → Except Abort (ℕ → Option ℕ)
  | [], recved => .ok recved
  | [_], _ => .error (.assertion "mcs(i + 1) out of range")
  | rnti :: mcs :: rest, recved => mcsLoop rest (Function.update recved (casts.u16 rnti) (some (casts.u8 mcs)))

def getMcsFromEr (msg : Option (List F32)) (e : EdgeRic) : Except Abort EdgeRic :=
  match msg with
  | none => .ok { e with mcsRecved := fun _ => none }
  | some mcs => do
    let recved ← mcsLoop casts mcs e.mcsRecved
    .ok { e with mcsRecved := recved }

def getSliceBudgets (msg : Option (List (ℕ × SliceBudget))) (e : EdgeRic) : EdgeRic :=
  match msg with
  | none => e
  | some budgets =>
    { e with sliceBudgetsRecved := budgets.foldl (fun m b => Function.update m b.1 (some b.2)) fun _ => none }

lemma weightsLoop_ok_iff (weights : List F32) (recved : ℕ → Option F32) (total : F32) :
    (∃ x, weightsLoop casts weights recved total = .ok x) ↔ weights.length % 2 = 0 := by
  induction weights using List.twoStepInduction generalizing recved total with
  | nil => simp [weightsLoop]
  | singleton x => simp [weightsLoop]
  | cons_cons x y rest ih =>
    rw [weightsLoop, ih]
    simp only [List.length_cons]
    omega

lemma mcsLoop_ok_iff (mcs : List F32) (recved : ℕ → Option ℕ) :
    (∃ x, mcsLoop casts mcs recved = .ok x) ↔ mcs.length % 2 = 0 := by
  induction mcs using List.twoStepInduction generalizing recved with
  | nil => simp [mcsLoop]
  | singleton x => simp [mcsLoop]
  | cons_cons x y rest ih =>
    rw [mcsLoop, ih]
    simp only [List.length_cons]
    omega

lemma getWeightsFromEr_ok_iff (weights : List F32) (e : EdgeRic) :
    (∃ e', getWeightsFromEr casts (some weights) e = .ok e') ↔ weights.length % 2 = 0 := by
  rw [← weightsLoop_ok_iff casts weights e.weightsRecved (.fin 0)]
  constructor
  · rintro ⟨e', h⟩
    obtain ⟨x, hx, -⟩ := bind_eq_ok.mp h
    exact ⟨x, hx⟩
  · rintro ⟨x, hx⟩
    exact ⟨_, by rw [getWeightsFromEr, hx, ok_bind]⟩

lemma getMcsFromEr_ok_iff (mcs : List F32) (e : EdgeRic) :
    (∃ e', getMcsFromEr casts (some mcs) e = .ok e') ↔ mcs.length % 2 = 0 := by
  rw [← mcsLoop_ok_iff casts mcs e.mcsRecved]
  constructor
  · rintro ⟨e', h⟩
    obtain ⟨x, hx, -⟩ := bind_eq_ok.mp h
    exact ⟨x, hx⟩
  · rintro ⟨x, hx⟩
    exact ⟨_, by rw [getMcsFromEr, hx, ok_bind]⟩

/-- All pairs of consecutive elements, as the reader takes them, have the property. -/
def Pairs (P : F32 → F32 → Prop) : List F32 → Prop
  | x :: y :: rest => P x y ∧ Pairs P rest
  | _ => True

lemma mcsLoop_all {P : ℕ → ℕ → Prop} {mcs : List F32} {recved recved' : ℕ → Option ℕ}
    (h : ∀ rnti m, recved rnti = some m → P rnti m) (hmsg : Pairs (fun x y => P (casts.u16 x) (casts.u8 y)) mcs)
    (hok : mcsLoop casts mcs recved = .ok recved') : ∀ rnti m, recved' rnti = some m → P rnti m := by
  induction mcs using List.twoStepInduction generalizing recved with
  | nil =>
    cases hok
    exact h
  | singleton x => cases hok
  | cons_cons x y rest ih =>
    refine ih ?_ hmsg.2 hok
    intro rnti m hm
    by_cases hr : rnti = casts.u16 x
    · subst hr
      rw [Function.update_self] at hm
      cases hm
      exact hmsg.1
    · rw [Function.update_of_ne hr] at hm
      exact h rnti m hm

end EdgeRic

end SrsRan.Edgeric
