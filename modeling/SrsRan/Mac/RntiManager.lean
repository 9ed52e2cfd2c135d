import SrsRan.Lib.Occupied
import SrsRan.Lib.Run
import SrsRan.Lib.ThreadList
import Mathlib.Order.Interval.Finset.Nat

/-!
# `rnti_manager`

The table of the C-RNTIs of a DU and the allocation of temporary ones, by any number of calls at the same time.

The counter is kept with its wraps: the code has its last 16 bits, which `rntiOf` takes.  So a value of the counter is the
number of an increment, and no two calls draw the same one.
-/

namespace SrsRan.Mac

open Lib Lib.Run List

def minCrnti : ℕ := 0x1

def maxCrnti : ℕ := 0xffef

/-- The range of `is_crnti`. -/
def IsCrnti (rnti : ℕ) : Prop := rnti ≤ maxCrnti ∧ rnti ≥ minCrnti

instance : DecidablePred IsCrnti := fun _ => inferInstanceAs (Decidable (_ ∧ _))

def crntiRange : ℕ := maxCrnti + 1 - minCrnti

def maxNofDuUes : ℕ := 1024

/-- A call in progress, by the access that comes next. -/
inductive RntiCall
  /-- `allocate`, before the increment of the counter -/
  | drawing
  /-- `allocate`, before `has_rnti` for this value of the counter -/
  | checking (counter : ℕ)
  /-- `add_ue` of a new RNTI, before the increment of `nof_ues_` -/
  | adding
  /-- `rem_ue` of a known RNTI, before the decrement of `nof_ues_` -/
  | removing
  /-- `rem_ue`, before its assertion about `nof_ues_` -/
  | asserting
deriving DecidableEq

/-- The value of the counter that a call has drawn and not yet checked -/
def RntiCall.drawn : RntiCall → Option ℕ
  | .checking counter => some counter
  | _ => none

/-- `rnti_manager`, with the calls in progress. -/
structure RntiManager where
  table : ℕ → Option ℕ
  nofUes : UInt64
  rntiCounter : ℕ
  calls : List RntiCall
  /-- what `allocate` returned, the last result first: the value of the counter, or `none` for `INVALID_RNTI` -/
  allocated : List (Option ℕ)
  /-- what `add_ue` returned, the last result first -/
  added : List Bool

inductive RntiAction
  | allocate
  | addUe (crnti value : ℕ)
  | remUe (crnti : ℕ)
  | advance (i : ℕ)

inductive RntiAbort
  | invalidCrnti
  | invalidTable

namespace RntiManager

def init (initialRnti : {rnti // IsCrnti rnti}) : RntiManager where
  table _ := none
  nofUes := 0
  rntiCounter := initialRnti - minCrnti
  calls := []
  allocated := []
  added := []

/-- The RNTI of a value of the 16-bit counter -/
def rntiOf (counter : ℕ) : ℕ := counter % 2 ^ 16 % crntiRange + minCrnti

variable (s : RntiManager)

def advance (i : ℕ) : RntiCall → Except RntiAbort RntiManager
  | .drawing => .ok { s with
      rntiCounter := s.rntiCounter + 1
      calls := s.calls.set i (.checking s.rntiCounter) }
  | .checking counter =>
    if s.table (rntiOf counter) ≠ none then .ok { s with calls := s.calls.set i .drawing }
    else .ok { s with calls := s.calls.eraseIdx i, allocated := some counter :: s.allocated }
  | .adding => .ok { s with
      nofUes := s.nofUes + 1
      calls := s.calls.eraseIdx i
      added := true :: s.added }
  | .removing => .ok { s with
      nofUes := s.nofUes - 1
      calls := s.calls.set i .asserting }
  | .asserting => if s.nofUes.toNat ≤ crntiRange then .ok { s with calls := s.calls.eraseIdx i } else .error .invalidTable

/-- A call begins, or one in progress makes its next access. -/
def step : RntiAction → Except RntiAbort RntiManager
  | .allocate =>
    if s.nofUes.toNat ≥ maxNofDuUes then .ok { s with allocated := none :: s.allocated }
    else .ok { s with calls := .drawing :: s.calls }
  | .addUe crnti value =>
    if ¬ IsCrnti crnti then .error .invalidCrnti
    else
      -- the exchange of the entry comes before the check of what was in it
      let s' := { s with table := Function.update s.table crnti (some value) }
      if s.table crnti = none then .ok { s' with calls := .adding :: s.calls }
      else .ok { s' with added := false :: s.added }
  | .remUe crnti =>
    if ¬ IsCrnti crnti then .error .invalidCrnti
    else
      let s' := { s with table := Function.update s.table crnti none }
      if s.table crnti ≠ none then .ok { s' with calls := .removing :: s.calls } else .ok s'
  | .advance i =>
    match s.calls[i]? with
    | none => .ok s
    | some call => s.advance i call

def registered : Finset ℕ := {rnti ∈ Finset.Icc minCrnti maxCrnti | s.table rnti ≠ none}

/-- What is expected of a step: no RNTI is shared, and none is lost. -/
structure NotShared (a : RntiAction) (s' : RntiManager) : Prop where
  valid : ∀ c, s'.allocated = some c :: s.allocated → IsCrnti (rntiOf c) ∧ s.table (rntiOf c) = none
  distinct : ∀ c c', s'.allocated = some c :: s.allocated → some c' ∈ s.allocated.take 1024 → rntiOf c' ≠ rntiOf c
  unchanged : ∀ crnti value, a = .addUe crnti value → s.table crnti ≠ none →
    s'.added = false :: s.added ∧ s'.table crnti = s.table crnti
  count : s'.calls = [] → s'.nofUes.toNat = s'.registered.card

/-- Two values of the counter, when it is at `counter`: fewer than `CRNTI_RANGE` increments lie behind each, and if the 16
bits have wrapped between them they are not `2 ^ 16 - CRNTI_RANGE = 17` apart. -/
def Apart (counter c c' : ℕ) : Prop :=
  counter ≤ c + crntiRange ∧ counter ≤ c' + crntiRange ∧ (c / 2 ^ 16 = c' / 2 ^ 16 ∨ c + 17 ≠ c' ∧ c' + 17 ≠ c)
deriving Decidable

/-- The value that a call checks is apart from those of the last 1024 results, and an RNTI is added again only with its own
UE. -/
def Separate : RntiAction → Prop
  | .advance i => ∀ call ∈ s.calls[i]?, ∀ c ∈ call.drawn, ∀ c' ∈ (s.allocated.take 1024).filterMap id,
      Apart s.rntiCounter c c'
  | .addUe crnti value => s.table crnti ≠ none → s.table crnti = some value
  | _ => True

/-- Whether a call has drawn the value -/
def holds (c : ℕ) (call : RntiCall) : ℕ := if call.drawn = some c then 1 else 0

/-- Every value of the counter is drawn once: by a call that checks it, or for a result. -/
def DrawnOnce (counter : ℕ) (calls : List RntiCall) (allocated : List (Option ℕ)) : Prop :=
  ∀ c, weight (holds c) calls + allocated.count (some c) ≤ if c < counter then 1 else 0

def increments : RntiCall → ℕ
  | .adding => 1
  | _ => 0

def decrements : RntiCall → ℕ
  | .removing => 1
  | _ => 0

/-- What the pending calls will do to `nof_ues_` makes it the number of registered RNTIs. -/
def Balanced (nofUes : UInt64) (nofRegistered : ℕ) (calls : List RntiCall) : Prop :=
  (nofUes.toNat + weight increments calls) % 2 ^ 64 = (nofRegistered + weight decrements calls) % 2 ^ 64

variable {s} {s' : RntiManager} {a : RntiAction} {crnti value i : ℕ} {call : RntiCall}

lemma nofUes_eq (h : Balanced s.nofUes s.registered.card []) : s.nofUes.toNat = s.registered.card := by
  have hcard : s.registered.card ≤ crntiRange := by
    refine (Finset.card_filter_le _ _).trans ?_
    rw [Nat.card_Icc, crntiRange]
  have hrange : crntiRange = 65519 := rfl
  have hlt := s.nofUes.toNat_lt
  simp only [Balanced, weight, map_nil, sum_nil] at h
  omega

lemma mem_registered {rnti : ℕ} : rnti ∈ s.registered ↔ IsCrnti rnti ∧ s.table rnti ≠ none := by
  rw [registered, Finset.mem_filter, Finset.mem_Icc, IsCrnti, and_comm (a := minCrnti ≤ rnti)]

lemma registered_add (s : RntiManager) (value : ℕ) (hc : IsCrnti crnti) :
    ({ s with table := Function.update s.table crnti (some value) } : RntiManager).registered =
      insert crnti s.registered :=
  filter_update_pos (p := (· ≠ none)) (Finset.mem_Icc.mpr hc.symm) (Option.some_ne_none value) s.table

lemma registered_remove (s : RntiManager) (crnti : ℕ) :
    ({ s with table := Function.update s.table crnti none } : RntiManager).registered = s.registered.erase crnti :=
  filter_update_neg (p := (· ≠ none)) (fun h => h rfl) s.table

section

variable {n n' : UInt64} {k k' : ℕ} {calls : List RntiCall} (h : Balanced n k calls)
include h

lemma Balanced.cons (call : RntiCall) (hk : k' + decrements call = k + increments call) :
    Balanced n k' (call :: calls) := by
  rw [Balanced] at h
  rw [Balanced, weight_cons, weight_cons]
  omega

lemma Balanced.set (hi : calls[i]? = some call) (call' : RntiCall)
    (hn : (n'.toNat + increments call' + decrements call) % 2 ^ 64 =
      (n.toNat + increments call + decrements call') % 2 ^ 64) : Balanced n' k (calls.set i call') := by
  have hinc := weight_set (w := increments) hi call'
  have hdec := weight_set (w := decrements) hi call'
  rw [Balanced] at h ⊢
  omega

lemma Balanced.erase (hi : calls[i]? = some call)
    (hn : (n'.toNat + decrements call) % 2 ^ 64 = (n.toNat + increments call) % 2 ^ 64) :
    Balanced n' k (calls.eraseIdx i) := by
  have hinc := weight_eraseIdx (w := increments) hi
  have hdec := weight_eraseIdx (w := decrements) hi
  rw [Balanced] at h ⊢
  omega

end

lemma balanced_advance (h : Balanced s.nofUes s.registered.card s.calls) (hi : s.calls[i]? = some call)
    (hs : s.advance i call = .ok s') : Balanced s'.nofUes s'.registered.card s'.calls := by
  cases call with
  | drawing =>
    cases hs
    exact h.set hi _ rfl
  | checking counter =>
    rw [advance] at hs
    split at hs
    · cases hs
      exact h.set hi _ rfl
    · cases hs
      exact h.erase hi rfl
  | adding =>
    cases hs
    refine h.erase hi ?_
    rw [UInt64.toNat_add]
    simp only [increments, decrements, UInt64.toNat_one]
    omega
  | removing =>
    cases hs
    refine h.set hi _ ?_
    have hlt := s.nofUes.toNat_lt
    rw [UInt64.toNat_sub]
    simp only [increments, decrements, UInt64.toNat_one]
    omega
  | asserting =>
    rw [advance] at hs
    split at hs
    · cases hs
      exact h.erase hi rfl
    · cases hs

lemma balanced_step (h : Balanced s.nofUes s.registered.card s.calls) (hs : s.step a = .ok s') :
    Balanced s'.nofUes s'.registered.card s'.calls := by
  cases a with
  | allocate =>
    rw [step] at hs
    split at hs
    · cases hs
      exact h
    · cases hs
      exact h.cons _ rfl
  | addUe crnti value =>
    rw [step] at hs
    split at hs
    · cases hs
    next hc =>
      have hreg := registered_add s value (not_not.mp hc)
      dsimp only at hs
      split at hs
      next hnone =>
        cases hs
        refine h.cons _ ?_
        have hnot : crnti ∉ s.registered := fun hmem => (mem_registered.mp hmem).2 hnone
        exact (congrArg Finset.card hreg).trans (Finset.card_insert_of_notMem hnot)
      next hsome =>
        cases hs
        rw [Finset.insert_eq_of_mem (mem_registered.mpr ⟨not_not.mp hc, hsome⟩)] at hreg
        rw [← hreg] at h
        exact h
  | remUe crnti =>
    rw [step] at hs
    split at hs
    · cases hs
    next hc =>
      have hreg := registered_remove s crnti
      dsimp only at hs
      split at hs
      next hsome =>
        cases hs
        refine h.cons _ ?_
        have hmem : crnti ∈ s.registered := mem_registered.mpr ⟨not_not.mp hc, hsome⟩
        exact (congrArg (·.card + 1) hreg).trans (Finset.card_erase_add_one hmem)
      next hnone =>
        cases hs
        rw [Finset.erase_eq_of_notMem fun hmem => hnone (mem_registered.mp hmem).2] at hreg
        rw [← hreg] at h
        exact h
  | advance i =>
    rw [step] at hs
    split at hs
    · cases hs
      exact h
    next call hi => exact balanced_advance h hi hs

/-- **The argument across the wrap.** -/
lemma rntiOf_ne {counter c c' : ℕ} (hc : c < counter) (hc' : c' < counter) (hne : c ≠ c') (h : Apart counter c c') :
    rntiOf c' ≠ rntiOf c := by
  have hrange : crntiRange = 65519 := rfl
  obtain ⟨h1, h2, h3⟩ := h
  have hmod : ∀ d, d % 2 ^ 16 % 65519 = if d % 2 ^ 16 < 65519 then d % 2 ^ 16 else d % 2 ^ 16 - 65519 := by
    intro d
    split <;> omega
  rw [rntiOf, rntiOf, hrange, hmod, hmod]
  split <;> split <;> omega

section DrawnOnce

variable {counter : ℕ} {calls : List RntiCall} {allocated : List (Option ℕ)} (h : DrawnOnce counter calls allocated)
include h

lemma DrawnOnce.lt_of_mem {c : ℕ} (hc : some c ∈ allocated) : c < counter := by
  have hcount := one_le_count_iff.mpr hc
  have := h c
  split at this
  · assumption
  · omega

lemma DrawnOnce.lt_of_checking {c : ℕ} (hi : calls[i]? = some (.checking c)) : c < counter ∧ some c ∉ allocated := by
  have hw : 1 ≤ weight (holds c) calls := by
    have hheld : holds c (.checking c) = 1 := if_pos rfl
    have := weight_eraseIdx (w := holds c) hi
    omega
  have := h c
  split at this
  · exact ⟨‹_›, fun hmem => absurd (one_le_count_iff.mpr hmem) (by omega)⟩
  · omega

lemma DrawnOnce.cons (call : RntiCall) (hcall : call.drawn = none) : DrawnOnce counter (call :: calls) allocated := by
  intro c
  rw [weight_cons, show holds c call = 0 from if_neg (by rw [hcall]; exact nofun), Nat.zero_add]
  exact h c

/-- The call `i` goes on and draws nothing. -/
lemma DrawnOnce.set (hi : calls[i]? = some call) (call' : RntiCall) (hcall : call'.drawn = none) :
    DrawnOnce counter (calls.set i call') allocated := by
  intro c
  have hset := weight_set (w := holds c) hi call'
  have hzero : holds c call' = 0 := if_neg (by rw [hcall]; exact nofun)
  have := h c
  omega

lemma DrawnOnce.erase (hi : calls[i]? = some call) : DrawnOnce counter (calls.eraseIdx i) allocated := by
  intro c
  have herase := weight_eraseIdx (w := holds c) hi
  have := h c
  omega

lemma DrawnOnce.draw (hi : calls[i]? = some .drawing) :
    DrawnOnce (counter + 1) (calls.set i (.checking counter)) allocated := by
  intro c
  have hset := weight_set (w := holds c) hi (.checking counter)
  have hnow := h c
  simp only [holds, RntiCall.drawn, Option.some.injEq, reduceCtorEq, if_false] at hset hnow ⊢
  split at hset <;> split at hnow <;> split <;> omega

lemma DrawnOnce.result {counter' : ℕ} (hi : calls[i]? = some (.checking counter')) :
    DrawnOnce counter (calls.eraseIdx i) (some counter' :: allocated) := by
  intro c
  have herase := weight_eraseIdx (w := holds c) hi
  have hnow := h c
  simp only [holds, RntiCall.drawn, Option.some.injEq] at herase hnow ⊢
  rw [count_cons]
  simp only [beq_iff_eq, Option.some.injEq]
  split at herase <;> split <;> omega

end DrawnOnce

lemma drawnOnce_step (h : DrawnOnce s.rntiCounter s.calls s.allocated) (hs : s.step a = .ok s') :
    DrawnOnce s'.rntiCounter s'.calls s'.allocated := by
  cases a with
  | allocate =>
    rw [step] at hs
    split at hs
    · cases hs
      intro c
      show _ + count (some c) (none :: s.allocated) ≤ _
      rw [count_cons_of_ne (Option.some_ne_none c).symm]
      exact h c
    · cases hs
      exact h.cons _ rfl
  | addUe crnti value =>
    rw [step] at hs
    split at hs
    · cases hs
    dsimp only at hs
    split at hs
    · cases hs
      exact h.cons _ rfl
    · cases hs
      exact h
  | remUe crnti =>
    rw [step] at hs
    split at hs
    · cases hs
    dsimp only at hs
    split at hs
    · cases hs
      exact h.cons _ rfl
    · cases hs
      exact h
  | advance i =>
    rw [step] at hs
    split at hs
    · cases hs
      exact h
    next call hi =>
    cases call with
    | drawing =>
      cases hs
      exact h.draw hi
    | checking c =>
      rw [advance] at hs
      split at hs
      · cases hs
        exact h.set hi _ rfl
      · cases hs
        exact h.result hi
    | adding =>
      cases hs
      exact h.erase hi
    | removing =>
      cases hs
      exact h.set hi _ rfl
    | asserting =>
      rw [advance] at hs
      split at hs
      · cases hs
        exact h.erase hi
      · cases hs

lemma isCrnti_rntiOf (c : ℕ) : IsCrnti (rntiOf c) := by
  have hlt : c % 2 ^ 16 % crntiRange < crntiRange := Nat.mod_lt _ (by decide)
  have hrange : crntiRange = 65519 := rfl
  rw [IsCrnti, rntiOf, maxCrnti, minCrnti]
  omega

/-- A result is a value that a call has drawn and found free. -/
lemma checking_of_allocated {c : ℕ} (hs : s.step a = .ok s') (hc : s'.allocated = some c :: s.allocated) :
    s.table (rntiOf c) = none ∧ ∃ i, a = .advance i ∧ s.calls[i]? = some (.checking c) := by
  have hne : s'.allocated ≠ s.allocated := by rw [hc]; exact cons_ne_self _ _
  cases a with
  | allocate => grind [step]
  | addUe crnti value => grind [step]
  | remUe crnti => grind [step]
  | advance i =>
    rw [step] at hs
    split at hs
    · cases hs
      exact absurd rfl hne
    next call hi => cases call <;> grind [advance]

/-- A second `add_ue` of an RNTI returns `false` and puts its own value in the table. -/
lemma step_addUe_of_mem (hs : s.step (.addUe crnti value) = .ok s') (hmem : s.table crnti ≠ none) :
    s'.added = false :: s.added ∧ s'.table crnti = some value := by
  rw [step, if_neg hmem] at hs
  split at hs
  · cases hs
  · cases hs
    exact ⟨rfl, Function.update_self ..⟩

/-- **RNTIs are not shared** by the steps of a run that are separate. -/
theorem rntiManager_of_separate (initialRnti : {rnti // IsCrnti rnti})
    (h : Reach step Separate (init initialRnti) s) (ha : s.Separate a) (hs : s.step a = .ok s') : s.NotShared a s' := by
  obtain ⟨hbalanced, hdrawn⟩ := h.invariant
    (P := fun s => Balanced s.nofUes s.registered.card s.calls ∧ DrawnOnce s.rntiCounter s.calls s.allocated)
    ⟨by
      rw [show (init initialRnti).registered = ∅ from Finset.filter_false_of_mem fun _ _ => not_not.mpr rfl]
      rfl, fun c => Nat.zero_le _⟩
    fun _ _ _ hinv _ hstep => ⟨balanced_step hinv.1 hstep, drawnOnce_step hinv.2 hstep⟩
  refine ⟨fun c hc => ⟨isCrnti_rntiOf c, (checking_of_allocated hs hc).1⟩, fun c c' hc hc' => ?_,
    fun crnti value haction hmem => ?_, fun hcalls => ?_⟩
  · obtain ⟨-, i, rfl, hi⟩ := checking_of_allocated hs hc
    obtain ⟨hlt, hnew⟩ := hdrawn.lt_of_checking hi
    have hold : some c' ∈ s.allocated := mem_of_mem_take hc'
    refine rntiOf_ne hlt (hdrawn.lt_of_mem hold) (fun heq => hnew (heq ▸ hold)) ?_
    exact ha (.checking c) hi c rfl c' (mem_filterMap.mpr ⟨some c', hc', rfl⟩)
  · subst haction
    obtain ⟨hadded, htable⟩ := step_addUe_of_mem hs hmem
    exact ⟨hadded, htable.trans (ha hmem).symm⟩
  · have hafter := balanced_step hbalanced hs
    rw [hcalls] at hafter
    exact nofUes_eq hafter

instance (a : RntiAction) : Decidable (s.Separate a) :=
  match a with
  | .advance i => inferInstanceAs (Decidable (∀ call ∈ s.calls[i]?, ∀ c ∈ call.drawn,
      ∀ c' ∈ (s.allocated.take 1024).filterMap id, Apart s.rntiCounter c c'))
  | .addUe .. => inferInstanceAs (Decidable (_ → _))
  | .allocate | .remUe _ => inferInstanceAs (Decidable True)

def lastCrnti : {rnti // IsCrnti rnti} := ⟨0xffef, by decide⟩

/-- The counter wraps between two results: 65519 and, 19 increments later, RNTI 2. -/
theorem rntiManager_wrapped : ∃ s s', Reach step Separate (init lastCrnti) s ∧ s.step (.advance 0) = .ok s' ∧
    s'.allocated = [some 65537, some 65518] ∧ s.NotShared (.advance 0) s' := by
  obtain ⟨s, hs, ha, hcall, hres⟩ : ∃ s, Reach step Separate (init lastCrnti) s ∧ s.Separate (.advance 0) ∧
      s.calls[0]? = some (.checking 65537) ∧ s.allocated = [some 65518] ∧ s.table (rntiOf 65537) = none :=
    Reach.exists_run ([.allocate, .advance 0, .advance 0] ++
      (replicate 19 [RntiAction.allocate, RntiAction.advance 0]).flatten) (by decide +kernel)
  have hstep : s.step (.advance 0) = .ok { s with calls := s.calls.eraseIdx 0, allocated := some 65537 :: s.allocated } := by
    rw [step, hcall]
    exact if_neg (not_not.mpr hres.2)
  exact ⟨s, _, hs, hstep, by rw [hres.1], rntiManager_of_separate _ hs ha hstep⟩

/-- The second `add_ue` of an RNTI gives it to another UE. -/
theorem rnti_overwritten : ¬ Along step NotShared (init ⟨0x4601, by decide⟩) [.addUe 1 5, .addUe 1 6] := by
  intro h
  have h2 := (((h _ rfl).2 _ rfl).1.unchanged 1 6 rfl (by decide)).2
  exact absurd h2 (by decide)

end RntiManager

end SrsRan.Mac
