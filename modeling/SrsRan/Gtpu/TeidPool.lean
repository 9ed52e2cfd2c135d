import SrsRan.Lib.Run
import Mathlib.Data.Finset.Card
import Mathlib.Data.Nat.ModEq

/-!
# The TEID pool of GTP-U

`request_teid` looks for a free index from the one after the last it gave.  The number of the candidate and the candidate are
16 bit wide, and the size of the pool 32.  The pool serves every request iff its size is at most `2 ^ 16`.
-/

namespace SrsRan.Gtpu

open Lib.Run Function Nat

/-- The indices whose bit is set, the candidates tried so far, and those tried before each index. -/
structure TeidPool where
  nextTeidIdx : ℕ := 0
  nofTeids : ℕ := 0
  teidPool : Finset ℕ := ∅
  tried : ℕ := 0
  givenAt : ℕ → Option ℕ := fun _ => none

inductive TeidAction where
  | requestTeid
  | releaseTeid (teid : ℕ)

namespace TeidPool

variable (maxNofTeids : ℕ) (s : TeidPool)

def gtpuTeidMin : ℕ := 1

def tmpIdx (n : ℕ) : ℕ := (s.nextTeidIdx + n) % 2 ^ 32 % maxNofTeids % 2 ^ 16

def search : ℕ → ℕ → Option (Option ℕ)
  | 0, _ => none
  | fuel + 1, n =>
    if n < maxNofTeids then
      if s.tmpIdx maxNofTeids n ∉ s.teidPool then some (some n) else search fuel ((n + 1) % 2 ^ 16)
    else some none

def take (n : ℕ) : TeidPool :=
  let tmpIdx := s.tmpIdx maxNofTeids n
  { nextTeidIdx := (tmpIdx + 1) % maxNofTeids, nofTeids := s.nofTeids + 1, teidPool := insert tmpIdx s.teidPool,
    tried := s.tried + n + 1, givenAt := update s.givenAt tmpIdx (some (s.tried + n)) }

def requestTeid (fuel : ℕ) : Option (Option ℕ × TeidPool) :=
  if maxNofTeids ≤ s.nofTeids then some (none, s)
  else (s.search maxNofTeids fuel 0).map fun
    | none => (none, s)
    | some n => (some (s.tmpIdx maxNofTeids n + gtpuTeidMin), s.take maxNofTeids n)

def releaseTeid (teid : ℕ) : Bool × TeidPool :=
  let teidIdx := teid - gtpuTeidMin
  if teidIdx ∉ s.teidPool then (false, s)
  else (true, { s with teidPool := s.teidPool.erase teidIdx, nofTeids := s.nofTeids - 1 })

/-- A request that ends, or the release of a TEID that has been returned. -/
def step : TeidAction → Except Unit TeidPool
  | .requestTeid => match s.requestTeid maxNofTeids (2 ^ 16) with
    | none => .error ()
    | some r => .ok r.2
  | .releaseTeid teid =>
    if gtpuTeidMin ≤ teid ∧ (s.givenAt (teid - gtpuTeidMin)).isSome then .ok (s.releaseTeid teid).2 else .error ()

/-- The TEID is free, and all others have been candidates since it was last given. -/
structure Given (n teid : ℕ) : Prop where
  range : gtpuTeidMin ≤ teid ∧ teid < gtpuTeidMin + maxNofTeids
  free : teid - gtpuTeidMin ∉ s.teidPool
  position : (s.tried + n) % maxNofTeids = teid - gtpuTeidMin
  skipped : ∀ j < n, (s.tried + j) % maxNofTeids ∈ s.teidPool
  others : ∀ p, s.givenAt (teid - gtpuTeidMin) = some p → ∀ u < maxNofTeids, u ≠ teid - gtpuTeidMin →
    ∃ q, p < q ∧ q < s.tried + n ∧ q % maxNofTeids = u

/-- The request ends, and it gives a TEID iff one is free. -/
def Serves : Prop := ∃ fuel teid s', s.requestTeid maxNofTeids fuel = some (teid, s') ∧
  (teid.isSome ↔ s.teidPool.card < maxNofTeids) ∧
  ∀ t, teid = some t → ∃ n, s'.tried = s.tried + n + 1 ∧ s.Given maxNofTeids n t

/-- The counter is exact, and the pool goes on after the last candidate. -/
structure Inv (maxNofTeids : ℕ) (s : TeidPool) : Prop where
  count : s.nofTeids = s.teidPool.card
  index : ∀ i ∈ s.teidPool, i < maxNofTeids
  next : s.nextTeidIdx = s.tried % maxNofTeids
  given : ∀ i p, s.givenAt i = some p → p < s.tried ∧ p % maxNofTeids = i

variable {m n : ℕ} {s : TeidPool}

/-! ### Pools of at most `2 ^ 16` TEIDs -/

lemma exists_add_mod (p : ℕ) {u : ℕ} (hu : u < m) : ∃ n < m, (p + n) % m = u := by
  have hr := mod_lt p hu.pos
  refine ⟨(u + (m - p % m)) % m, mod_lt _ hu.pos, ?_⟩
  rw [add_mod_mod, ← mod_add_mod, show p % m + (u + (m - p % m)) = u + m by omega, add_mod_right, mod_eq_of_lt hu]

lemma search_eq (hmax : m ≤ 2 ^ 16) {k fuel : ℕ} (hk : k < m) (hfree : s.tmpIdx m k ∉ s.teidPool)
    (hbefore : ∀ j < k, s.tmpIdx m j ∈ s.teidPool) (hn : n ≤ k) (hfuel : k < n + fuel) :
    s.search m fuel n = some (some k) := by
  induction fuel generalizing n with
  | zero => omega
  | succ fuel ih =>
    rw [search, if_pos (by omega)]
    rcases hn.eq_or_lt with rfl | hlt
    · exact if_pos hfree
    · rw [if_neg (not_not.mpr (hbefore n hlt)), mod_eq_of_lt (by omega)]
      exact ih hlt (by omega)

section Small

variable (h : Inv m s) (hmax : m ≤ 2 ^ 16)
include h hmax

lemma Inv.tmpIdx_eq (hn : n < m) : s.tmpIdx m n = (s.tried + n) % m := by
  have hlt := mod_lt s.tried hn.pos
  have hidx := mod_lt (s.tried + n) hn.pos
  rw [tmpIdx, h.next, mod_eq_of_lt (by omega : _ < 2 ^ 32), mod_add_mod, mod_eq_of_lt (by omega)]

lemma Inv.requestTeid (hfull : s.teidPool.card < m) :
    ∃ n < m, s.tmpIdx m n ∉ s.teidPool ∧ (∀ j < n, s.tmpIdx m j ∈ s.teidPool) ∧
      s.requestTeid m (2 ^ 16) =
        some (some (s.tmpIdx m n + gtpuTeidMin), s.take m n) := by
  have hex : ∃ n, n < m ∧ s.tmpIdx m n ∉ s.teidPool := by
    obtain ⟨i, hi, hfree⟩ := Finset.exists_mem_notMem_of_card_lt_card (hfull.trans_eq (Finset.card_range _).symm)
    obtain ⟨n, hn, hmod⟩ := exists_add_mod s.tried (Finset.mem_range.mp hi)
    exact ⟨n, hn, h.tmpIdx_eq hmax hn ▸ hmod ▸ hfree⟩
  obtain ⟨hn, hfree⟩ := Nat.find_spec hex
  have hbefore : ∀ j < Nat.find hex, s.tmpIdx m j ∈ s.teidPool := fun j hj =>
    not_not.mp fun hno => Nat.find_min hex hj ⟨hj.trans hn, hno⟩
  refine ⟨_, hn, hfree, hbefore, ?_⟩
  rw [TeidPool.requestTeid, if_neg (by rw [h.count]; omega), search_eq hmax hn hfree hbefore (Nat.zero_le _) (by omega)]
  rfl

lemma Inv.take (hn : n < m) (hfree : s.tmpIdx m n ∉ s.teidPool) : Inv m (s.take m n) := by
  have hidx := h.tmpIdx_eq hmax hn
  refine ⟨?_, ?_, ?_, ?_⟩
  · show s.nofTeids + 1 = (insert _ s.teidPool).card
    rw [Finset.card_insert_of_notMem hfree, h.count]
  · intro i hi
    rcases Finset.mem_insert.mp hi with rfl | hi
    · exact hidx ▸ mod_lt _ (by omega)
    · exact h.index i hi
  · show (s.tmpIdx m n + 1) % m = (s.tried + n + 1) % m
    rw [hidx, mod_add_mod]
  · intro i p hp
    by_cases hi : i = s.tmpIdx m n
    · obtain rfl : s.tried + n = p := by simpa [TeidPool.take, hi] using hp
      exact ⟨lt_succ_self _, hi ▸ hidx.symm⟩
    · obtain ⟨hlt, hmod⟩ := h.given i p (by simpa [TeidPool.take, update_of_ne hi] using hp)
      exact ⟨by simp only [TeidPool.take]; omega, hmod⟩

lemma Inv.step {a : TeidAction} {s' : TeidPool} (hs : s.step m a = .ok s') : Inv m s' := by
  cases a with
  | requestTeid =>
    by_cases hfull : s.teidPool.card < m
    · obtain ⟨n, hn, hfree, -, hreq⟩ := h.requestTeid hmax hfull
      rw [TeidPool.step, hreq] at hs
      cases hs
      exact h.take hmax hn hfree
    · rw [TeidPool.step, TeidPool.requestTeid, if_pos (by rw [h.count]; omega)] at hs
      cases hs
      exact h
  | releaseTeid teid =>
    rw [TeidPool.step] at hs
    split at hs
    · cases hs
      simp only [releaseTeid]
      split
      · exact h
      next hmem =>
        have hmem := not_not.mp hmem
        refine ⟨?_, fun i hi => h.index i (Finset.mem_of_mem_erase hi), h.next, h.given⟩
        rw [Finset.card_erase_of_mem hmem, h.count]
    · cases hs

lemma Inv.serves : s.Serves m := by
  by_cases hfull : s.teidPool.card < m
  · obtain ⟨n, hn, hfree, hbefore, hreq⟩ := h.requestTeid hmax hfull
    have hidx := h.tmpIdx_eq hmax hn
    refine ⟨_, _, _, hreq, iff_of_true rfl hfull, fun t ht => ⟨n, rfl, ?_⟩⟩
    obtain rfl := Option.some.inj ht
    have hlt : s.tmpIdx m n < m := hidx ▸ mod_lt _ (by omega)
    refine ⟨⟨Nat.le_add_left _ _, by omega⟩, hfree, hidx.symm, fun j hj => ?_, fun p hp u hu hne => ?_⟩
    · exact h.tmpIdx_eq hmax (hj.trans hn) ▸ hbefore j hj
    · obtain ⟨hp, hmod⟩ := h.given _ p hp
      obtain ⟨d, hd, hmod'⟩ := exists_add_mod p hu
      have hle : p + m ≤ s.tried + n := Nat.ModEq.add_le_of_lt (hmod.trans hidx) (by omega)
      have hd0 : d ≠ 0 := fun hd0 => hne (by rw [← hmod', hd0, Nat.add_zero, hmod])
      exact ⟨p + d, by omega, by omega, hmod'⟩
  · refine ⟨0, none, s, ?_, iff_of_false nofun hfull, nofun⟩
    rw [TeidPool.requestTeid, if_pos (by rw [h.count]; omega)]

end Small

/-! ### Larger pools -/

lemma reach_first (hmax : 2 ^ 16 < m) (hlt : m < 2 ^ 32) (j : ℕ) (hj : j ≤ 2 ^ 16) :
    ∃ s, Reach (step m) (fun _ _ => True) {} s ∧ s.nextTeidIdx = j ∧ s.nofTeids = j ∧
      s.teidPool = Finset.range j := by
  induction j with
  | zero => exact ⟨_, .init, rfl, rfl, rfl⟩
  | succ j ih =>
    obtain ⟨s, hr, hnext, hnof, hpool⟩ := ih (by omega)
    have hidx : s.tmpIdx m 0 = j := by
      rw [tmpIdx, hnext, Nat.add_zero, mod_eq_of_lt (by omega : j < 2 ^ 32), mod_eq_of_lt (by omega : j < m),
        mod_eq_of_lt (by omega)]
    have hsearch : s.search m (2 ^ 16) 0 = some (some 0) := by
      rw [show 2 ^ 16 = 65535 + 1 from rfl, search, if_pos (by omega), if_pos (by simp [hidx, hpool])]
    have hstep : s.step m .requestTeid = .ok (s.take m 0) := by
      rw [step, requestTeid, if_neg (by omega), hsearch]
      rfl
    refine ⟨_, hr.step trivial hstep, ?_, congrArg (· + 1) hnof, ?_⟩
    · simp only [take, hidx]
      exact mod_eq_of_lt (by omega)
    · simp only [take, hidx, hpool]
      exact Finset.range_add_one.symm

lemma search_eq_none (hmax : 2 ^ 16 < m) (hall : ∀ i < 2 ^ 16, i ∈ s.teidPool) (fuel : ℕ) :
    ∀ n < 2 ^ 16, s.search m fuel n = none := by
  induction fuel with
  | zero => exact fun _ _ => rfl
  | succ fuel ih =>
    intro n hn
    have hmem := hall (s.tmpIdx m n) (mod_lt _ (by omega))
    rw [search, if_pos (by omega), if_neg (not_not.mpr hmem)]
    exact ih _ (mod_lt _ (by omega))

lemma reach_endless (hmax : 2 ^ 16 < m) (hlt : m < 2 ^ 32) :
    ∃ s, Reach (step m) (fun _ _ => True) {} s ∧ s.teidPool.card < m ∧
      ∀ fuel, s.requestTeid m fuel = none := by
  obtain ⟨s, hr, -, hnof, hpool⟩ := reach_first hmax hlt _ le_rfl
  refine ⟨s, hr, by rw [hpool, Finset.card_range]; exact hmax, fun fuel => ?_⟩
  rw [requestTeid, if_neg (by omega), search_eq_none hmax (fun i hi => hpool ▸ Finset.mem_range.mpr hi) fuel 0 (by omega)]
  rfl

/-- **The TEID pool.** The next request ends with a free TEID in round-robin order iff the pool has at most `2 ^ 16`
TEIDs. -/
theorem teidPool_serves_iff (maxNofTeids : ℕ) (hlt : maxNofTeids < 2 ^ 32) :
    (∀ s, Reach (step maxNofTeids) (fun _ _ => True) {} s → s.nofTeids = s.teidPool.card ∧ s.Serves maxNofTeids) ↔
      maxNofTeids ≤ 2 ^ 16 := by
  constructor
  · intro hall
    by_contra hmax
    obtain ⟨s, hr, -, hnone⟩ := reach_endless (not_le.mp hmax) hlt
    obtain ⟨-, fuel, teid, s', hreq, -⟩ := hall s hr
    rw [hnone fuel] at hreq
    cases hreq
  · intro hmax s hr
    have h : Inv maxNofTeids s := hr.invariant ⟨rfl, nofun, (zero_mod _).symm, nofun⟩ fun _ _ _ h _ hs => h.step hmax hs
    exact ⟨h.count, h.serves hmax⟩

/-- A pool that has wrapped around, with one TEID free. -/
theorem teidPool_four : ∃ s, Reach (step 4) (fun _ _ => True) {} s ∧ s.teidPool = {0, 2, 3} ∧ s.Serves 4 := by
  obtain ⟨s, hr, hpool⟩ : ∃ s, Reach (step 4) (fun _ _ => True) {} s ∧ s.teidPool = {0, 2, 3} :=
    Reach.exists_run [.requestTeid, .requestTeid, .requestTeid, .requestTeid, .releaseTeid gtpuTeidMin, .requestTeid,
      .releaseTeid (gtpuTeidMin + 1)] (by decide +kernel)
  exact ⟨s, hr, hpool, ((teidPool_serves_iff 4 (by decide)).mpr (by decide) s hr).2⟩

/-- The pool of the CU-UP comes to a request that does not end, with TEIDs free. -/
theorem teidPool_endless : ∃ s, Reach (step (1024 * 256)) (fun _ _ => True) {} s ∧ s.teidPool.card < 1024 * 256 ∧
    ∀ fuel, s.requestTeid (1024 * 256) fuel = none :=
  reach_endless (by decide) (by decide)

end TeidPool

end SrsRan.Gtpu
