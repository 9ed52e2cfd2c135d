import SrsRan.Lib.Run
import SrsRan.Rlc.AmStatusCodec
import SrsRan.Rlc.RxAm

/-!
# The state variables of the RLC AM receiver

`RxInv s R H M` describes a state by three unwrapped counters: `R`, `H` and `M` stand for RX_Next, RX_Highest_Status and
RX_Next_Highest.
-/

namespace SrsRan.Rlc.RxAm

open Support Lib.SeqNum Lib.Run Nat
open SduWindow (access access_of_get? addSn hasSn_eq removeSn)

lemma mod_pos (s : RxAm) : 0 < s.mod := AmSnSize.mod_pos _

lemma mod_eq (s : RxAm) : s.mod = 2 * s.amWindowSize := AmSnSize.mod_eq _

lemma window_ge (s : RxAm) : 2048 ≤ s.amWindowSize := AmSnSize.window_ge _

/-- RX_Next stands for `R` and RX_Next_Highest for `M`; the window holds SDUs between. -/
structure RxWin (s : RxAm) (R M : ℕ) : Prop where
  rxNext : s.st.rxNext = R % s.mod
  nextHighest : s.st.rxNextHighest = M % s.mod
  le : R ≤ M
  le_window : M ≤ R + s.amWindowSize
  capacity : s.rxWindow.capacity = s.amWindowSize
  mem : ∀ k, (s.rxWindow.get? k).isSome → ∃ a, R ≤ a ∧ a < M ∧ a % s.mod = k

/-- The SDU with the counter `a` is complete. -/
def Received (s : RxAm) (a : ℕ) : Prop := s.isFullyReceived (a % s.mod) = true

section Win

variable {s s' : RxAm} {R H M : ℕ}

variable {a x S sn : ℕ} {w w' : SduWindow RxAmSduInfo} {e : RxAmSduInfo}

section

variable (h : RxWin s R M)
include h

lemma RxWin.rxModBase (h1 : R ≤ a) (h2 : a < R + s.mod) (hx : x % s.mod = a % s.mod) : s.rxModBase x = a - R := by
  rw [RxAm.rxModBase, h.rxNext]
  refine modSub_eq_of_add_mod (m := s.mod) (Nat.two_pow_pos 32) (AmSnSize.mod_dvd _) (by omega) ?_
  rw [add_mod, mod_mod, ← add_mod, hx, Nat.sub_add_cancel h1]

lemma RxWin.unwrap (x : ℕ) : ∃ a, R ≤ a ∧ a < R + s.mod ∧ x % s.mod = a % s.mod ∧ s.rxModBase x = a - R := by
  obtain ⟨a, h1, h2, h3⟩ := exists_unwrap s.mod_pos R (mod_lt x s.mod_pos)
  exact ⟨a, h1, h2, h3.symm, h.rxModBase h1 h2 h3.symm⟩

lemma RxWin.rxModBase_self : s.rxModBase s.st.rxNext = 0 := by
  have := s.mod_pos
  rw [h.rxModBase le_rfl (by omega) (by rw [h.rxNext, mod_mod]), Nat.sub_self]

lemma RxWin.rxModBase_nextHighest : s.rxModBase s.st.rxNextHighest = M - R := by
  have := s.mod_eq
  have := s.window_ge
  have := h.le_window
  exact h.rxModBase h.le (by omega) (by rw [h.nextHighest, mod_mod])

lemma RxWin.get?_eq_none (h1 : M ≤ a) (h2 : a < R + s.mod) : s.rxWindow.get? (a % s.mod) = none := by
  rw [← Option.not_isSome_iff_eq_none]
  intro hs
  obtain ⟨b, hb1, hb2, hb3⟩ := h.mem _ hs
  have := h.le
  have := eq_of_mod_eq hb3 hb1 (by omega) (by omega) h2
  omega

lemma RxWin.not_received_top : ¬ s.Received M := by
  have := s.mod_eq
  have := s.window_ge
  have := h.le_window
  rw [Received, isFullyReceived, h.get?_eq_none le_rfl (by omega)]
  exact Bool.false_ne_true

/-! ### The searches for the first incomplete SDU -/

lemma RxWin.firstIncomplete (fuel : ℕ) (h1 : R ≤ S) (h2 : S ≤ M)
    (hf : M - S ≤ fuel) : ∃ S', S ≤ S' ∧ S' ≤ M ∧ s.firstIncomplete fuel (S % s.mod) = S' % s.mod ∧
      (∀ a, S ≤ a → a < S' → s.Received a) ∧ ¬ s.Received S' := by
  have hmod := s.mod_eq
  have hwin := s.window_ge
  have hle := h.le_window
  induction fuel generalizing S with
  | zero =>
    obtain rfl : S = M := by omega
    exact ⟨S, le_rfl, le_rfl, rfl, fun a h3 h4 => by omega, h.not_received_top⟩
  | succ fuel ih =>
    have hbase : s.rxModBase (S % s.mod) = S - R := h.rxModBase h1 (by omega) (mod_mod _ _)
    simp only [firstIncomplete, hbase, h.rxModBase_nextHighest]
    split
    next hc =>
      obtain ⟨S', h3, h4, h5, h6, h7⟩ := ih (by omega : R ≤ S + 1) (by omega) (by omega)
      refine ⟨S', by omega, h4, by rw [succ_mod, h5], ?_, h7⟩
      intro a h8 h9
      rcases h8.lt_or_eq with h8 | rfl
      · exact h6 a (by omega) h9
      · exact hc.2
    next hc =>
      refine ⟨S, le_rfl, h2, rfl, fun a h3 h4 => by omega, ?_⟩
      rcases h2.lt_or_eq with h3 | rfl
      · exact fun hr => hc ⟨by omega, hr⟩
      · exact h.not_received_top

end

/-- The window of `s` without the SDUs before the incomplete one `S'`. -/
structure Removed (s : RxAm) (R M S S' : ℕ) (w : SduWindow RxAmSduInfo) : Prop where
  le : S ≤ S'
  le_top : S' ≤ M
  received : ∀ a, S ≤ a → a < S' → s.Received a
  stop : ¬ s.Received S'
  capacity : w.capacity = s.rxWindow.capacity
  get? : ∀ a, R ≤ a → a < R + s.mod →
    w.get? (a % s.mod) = if S ≤ a ∧ a < S' then none else s.rxWindow.get? (a % s.mod)
  sub : ∀ k, (w.get? k).isSome → (s.rxWindow.get? k).isSome

lemma RxWin.removed_refl (h : RxWin s R M) (h2 : S ≤ M)
    (hs : ¬ (S - R < M - R ∧ s.isFullyReceived (S % s.mod) = true)) (h1 : R ≤ S) : Removed s R M S S s.rxWindow := by
  refine ⟨le_rfl, h2, fun a h3 h4 => by omega, ?_, rfl, fun a _ _ => by rw [if_neg (by omega)], fun _ hk => hk⟩
  rcases h2.lt_or_eq with h3 | rfl
  · exact fun hr => hs ⟨by omega, hr⟩
  · exact h.not_received_top

lemma RxWin.removeReceived (h : RxWin s R M) (fuel : ℕ) (h1 : R ≤ S) (h2 : S ≤ M) (hf : M - S ≤ fuel) :
    ∃ S' w, removeReceived fuel s (S % s.mod) = .ok ({ s with rxWindow := w }, S' % s.mod) ∧
      Removed s R M S S' w := by
  have hmod := s.mod_eq
  have hwin := s.window_ge
  have hle := h.le_window
  induction fuel generalizing s S with
  | zero => exact ⟨S, s.rxWindow, rfl, h.removed_refl h2 (by omega) h1⟩
  | succ fuel ih =>
    have hbase : s.rxModBase (S % s.mod) = S - R := h.rxModBase h1 (by omega) (mod_mod _ _)
    simp only [removeReceived, hbase, h.rxModBase_nextHighest]
    split
    next hc =>
      have hsome : (s.rxWindow.get? (S % s.mod)).isSome := by
        have := hc.2
        rw [isFullyReceived] at this
        cases hg : s.rxWindow.get? (S % s.mod) with
        | none => rw [hg] at this; cases this
        | some i => rfl
      have hrem : removeSn s.rxWindow (S % s.mod) = .ok (s.rxWindow.erase (S % s.mod)) := by
        rw [removeSn, hasSn_eq, hsome]
        rfl
      rw [hrem, ok_bind, succ_mod]
      set s1 : RxAm := { s with rxWindow := s.rxWindow.erase (S % s.mod) }
      have hget : ∀ k, s1.rxWindow.get? k = if k = S % s.mod then none else s.rxWindow.get? k :=
        CircularMap.get?_erase _ _
      have hsub : ∀ k, (s1.rxWindow.get? k).isSome → (s.rxWindow.get? k).isSome := by
        intro k hk
        rw [hget] at hk
        split at hk
        · cases hk
        · exact hk
      have h' : RxWin s1 R M :=
        { h with capacity := (CircularMap.capacity_erase _ _).trans h.capacity, mem := fun k hk => h.mem k (hsub k hk) }
      -- the other SDUs are as before
      have hne : ∀ a, R ≤ a → a < R + s.mod → a ≠ S → a % s.mod ≠ S % s.mod := by
        intro a h3 h4 h5 he
        exact h5 (eq_of_mod_eq he h3 h4 h1 (by omega))
      have hrec : ∀ a, R ≤ a → a < R + s.mod → a ≠ S → (s1.Received a ↔ s.Received a) := by
        intro a h3 h4 h5
        change ((s1.rxWindow.get? (a % s.mod)).any RxAmSduInfo.fullyReceived = true ↔ _)
        rw [hget, if_neg (hne a h3 h4 h5)]
        rfl
      obtain ⟨S', w, he, hr⟩ := ih h' (by omega : R ≤ S + 1) (by omega) (by omega) hmod hwin hle
      have hle' := hr.le
      have hle'' := hr.le_top
      refine ⟨S', w, he, by omega, hr.le_top, ?_, ?_, hr.capacity.trans (CircularMap.capacity_erase _ _), ?_,
        fun k hk => hsub k (hr.sub k hk)⟩
      · intro a h3 h4
        rcases h3.lt_or_eq with h3 | rfl
        · exact (hrec a (by omega) (by omega) (by omega)).mp (hr.received a h3 h4)
        · exact hc.2
      · exact fun hS' => hr.stop ((hrec S' (by omega) (by omega) (by omega)).mpr hS')
      · intro a h3 h4
        have hg := hr.get? a h3 h4
        change w.get? (a % s.mod) = if S + 1 ≤ a ∧ a < S' then none else s1.rxWindow.get? (a % s.mod) at hg
        rw [hg, hget]
        rcases Nat.lt_trichotomy a S with h5 | rfl | h5
        · rw [if_neg (by omega), if_neg (hne a h3 h4 (by omega)), if_neg (by omega)]
        · rw [if_neg (by omega), if_pos rfl, if_pos (by omega)]
        · rw [if_neg (hne a h3 h4 (by omega))]
          by_cases h6 : a < S'
          · rw [if_pos (by omega), if_pos (by omega)]
          · rw [if_neg (by omega), if_neg (by omega)]
    next hc => exact ⟨S, s.rxWindow, rfl, h.removed_refl h2 hc h1⟩

/-! ### Storing a PDU -/

def storedEntry (old : Option RxAmSduInfo) (header : AmPduHeader) (payload : Bytes) : RxAmSduInfo × Bool :=
  if header.si = .fullSdu then ({ fullyReceived := true, hasGap := false, sduData := .slice payload }, true)
  else
    let l := RxSduData.segmentSet (old.getD {}).sduData
    let stored := storeSegment l { si := header.si, so := header.so, payload := payload }
    (entryOfSegments (stored.getD l), stored.isSome)

/-- The windows differ in the entry of `sn`. -/
structure Updated (w w' : SduWindow RxAmSduInfo) (sn : ℕ) (e : RxAmSduInfo) : Prop where
  capacity : w'.capacity = w.capacity
  get? : ∀ k, w'.get? k = if k = sn then some e else w.get? k

lemma RxWin.ensureSn (h : RxWin s R M) (h1 : R ≤ x) (h2 : x < R + s.amWindowSize) :
    ∃ w, ensureSn s.rxWindow (x % s.mod) = .ok w ∧
      Updated s.rxWindow w (x % s.mod) ((s.rxWindow.get? (x % s.mod)).getD {}) := by
  unfold RxAm.ensureSn
  rw [hasSn_eq]
  cases hg : s.rxWindow.get? (x % s.mod) with
  | some e =>
    refine ⟨s.rxWindow, rfl, rfl, fun k => ?_⟩
    split
    next hk =>
      rw [hk, hg]
      rfl
    · rfl
  | none =>
    have hspace : s.rxWindow.hasSpace (x % s.mod) = true := by
      refine CircularMap.hasSpace_of_window ?_ ?_ h1 (by rw [h.capacity]; exact h2) hg
      · rw [h.capacity]
        exact ⟨2, by rw [s.mod_eq]; omega⟩
      · intro k hk
        obtain ⟨a, h3, h4, h5⟩ := h.mem k hk
        have := h.le_window
        exact ⟨a, h3, by rw [h.capacity]; omega, h5⟩
    refine ⟨s.rxWindow.overwrite (x % s.mod) {}, ?_, CircularMap.capacity_overwrite _ _ _, ?_⟩
    · rw [Option.isSome_none, if_neg Bool.false_ne_true, addSn, SduWindow.hasSn_eq, hg]
      rfl
    · rw [CircularMap.overwrite_eq_insert hspace]
      exact CircularMap.get?_insert hspace _

lemma Updated.modify (h : Updated w w' sn e) (e' : RxAmSduInfo) : Updated w (w'.modify sn fun _ => e') sn e' := by
  refine ⟨(CircularMap.capacity_modify _ _ _).trans h.capacity, fun k => ?_⟩
  rw [CircularMap.get?_modify]
  split
  next hk =>
    rw [h.get?, if_pos rfl]
    rfl
  next hk => rw [h.get?, if_neg hk]

lemma Updated.get?_of_ne {m : ℕ} (hu : Updated w w' (x % m) e)
    (hx1 : R ≤ x) (hx2 : x < R + m) (h1 : R ≤ a) (h2 : a < R + m) (hne : a ≠ x) : w'.get? (a % m) = w.get? (a % m) := by
  rw [hu.get?, if_neg]
  exact fun he => hne (eq_of_mod_eq he h1 h2 hx1 hx2)

/-- **Storing a PDU** replaces the entry of its SN by `storedEntry`. -/
theorem RxWin.storePdu (h : RxWin s R M) {header : AmPduHeader} (payload : Bytes) (h1 : R ≤ x)
    (h2 : x < R + s.amWindowSize) (hsn : header.sn = x % s.mod) :
    ∃ w, s.storePdu header payload =
        .ok ({ s with rxWindow := w }, (storedEntry (s.rxWindow.get? header.sn) header payload).2) ∧
      Updated s.rxWindow w header.sn (storedEntry (s.rxWindow.get? header.sn) header payload).1 := by
  obtain ⟨w, hw, hu⟩ := h.ensureSn h1 h2
  rw [← hsn] at hw hu
  unfold RxAm.storePdu storedEntry
  split
  · rw [handleFullDataSdu, hw, ok_bind]
    exact ⟨_, rfl, hu.modify _⟩
  · have hacc : access w header.sn = .ok ((s.rxWindow.get? header.sn).getD {}) :=
      access_of_get? (by rw [hu.get?, if_pos rfl])
    rw [handleSegmentDataSdu, hw, ok_bind, hacc, ok_bind]
    exact ⟨_, rfl, hu.modify _⟩

lemma RxWin.updateNextHighest (h : RxWin s R M) (h1 : R ≤ x) (h2 : x < R + s.amWindowSize)
    (hu : Updated s.rxWindow w (x % s.mod) e) : ({ s with rxWindow := w } : RxAm).updateNextHighest (x % s.mod) =
        { s with rxWindow := w, st := { s.st with rxNextHighest := max M (x + 1) % s.mod } } ∧
      RxWin { s with rxWindow := w, st := { s.st with rxNextHighest := max M (x + 1) % s.mod } } R
        (max M (x + 1)) := by
  have hmod := s.mod_eq
  have hle := h.le
  have hlew := h.le_window
  have hbase : s.rxModBase (x % s.mod) = x - R := h.rxModBase h1 (by omega) (mod_mod _ _)
  refine ⟨?_, h.rxNext, rfl, by omega, ?_, hu.capacity.trans h.capacity, ?_⟩
  · unfold RxAm.updateNextHighest
    change (if s.rxModBase (x % s.mod) ≥ s.rxModBase s.st.rxNextHighest then
      ({ s with rxWindow := w, st := { s.st with rxNextHighest := (x % s.mod + 1) % s.mod } } : RxAm) else
      { s with rxWindow := w }) = _
    rw [hbase, h.rxModBase_nextHighest, succ_mod]
    split
    · rw [max_eq_right (by omega)]
    · rw [max_eq_left (by omega), ← h.nextHighest]
  · change max M (x + 1) ≤ R + s.amWindowSize
    omega
  · intro k hk
    change (w.get? k).isSome at hk
    change ∃ a, R ≤ a ∧ a < max M (x + 1) ∧ a % s.mod = k
    rw [hu.get?] at hk
    split at hk
    next hkx => exact ⟨x, h1, by omega, hkx.symm⟩
    · obtain ⟨a, h3, h4, h5⟩ := h.mem k hk
      exact ⟨a, h3, by omega, h5⟩

/-! ### Complete SDUs -/

/-- The state variables stand for the counters `R`, `H` and `M`. -/
structure RxCore (s : RxAm) (R H M : ℕ) : Prop extends RxWin s R M where
  highestStatus : s.st.rxHighestStatus = H % s.mod
  le_highest : R ≤ H
  highest_le : H ≤ M
  /-- the SDU before RX_Next_Highest is in the window unless it is below RX_Next -/
  last : R < M → (s.rxWindow.get? ((M - 1) % s.mod)).isSome

lemma RxCore.updateNextHighest (h : RxCore s R H M) (h1 : R ≤ x) (h2 : x < R + s.amWindowSize)
    (hu : Updated s.rxWindow w (x % s.mod) e) :
    RxCore { s with rxWindow := w, st := { s.st with rxNextHighest := max M (x + 1) % s.mod } } R H
      (max M (x + 1)) := by
  have hmod := s.mod_eq
  have hle := h.le_window
  have hHM := h.highest_le
  refine ⟨(h.toRxWin.updateNextHighest h1 h2 hu).2, h.highestStatus, h.le_highest, by omega, fun _ => ?_⟩
  change (w.get? ((max M (x + 1) - 1) % s.mod)).isSome
  by_cases hx : x < M ∧ M - 1 ≠ x
  · rw [max_eq_left (by omega), hu.get?_of_ne h1 (by omega) (by omega) (by omega) hx.2]
    exact h.last (by omega)
  · rw [show max M (x + 1) - 1 = x by omega, hu.get?, if_pos rfl]
    rfl

def delivery (mem : Option ℕ) (info : RxAmSduInfo) : RxNotification :=
  ((reassembleSdu mem info).map .newSdu).getD .lostPdu

lemma deliverSdu_eq (s : RxAm) (mem : Option ℕ) (sn : ℕ) (info : RxAmSduInfo) :
    s.deliverSdu mem sn info =
      { s with rxWindow := s.rxWindow.modify sn fun i => { i with sduData := .slice [] }
               notifications := s.notifications ++ [delivery mem info] } := by
  unfold deliverSdu delivery
  cases reassembleSdu mem info <;> rfl

lemma Updated.release (h : w.get? sn = some e) :
    Updated w (w.modify sn fun i => { i with sduData := .slice [] }) sn { e with sduData := .slice [] } := by
  refine ⟨CircularMap.capacity_modify _ _ _, fun k => ?_⟩
  rw [CircularMap.get?_modify]
  split
  · rw [h]
    rfl
  · rfl

lemma Updated.isFullyReceived (hu : Updated s.rxWindow w sn { e with sduData := .slice [] })
    (h : s.rxWindow.get? sn = some e) (k : ℕ) :
    (w.get? k).any RxAmSduInfo.fullyReceived = s.isFullyReceived k := by
  rw [hu.get?, RxAm.isFullyReceived]
  split
  next hk =>
    rw [hk, h]
    rfl
  · rfl

lemma Updated.isSome (hu : Updated w w' sn e)
    (h : (w.get? sn).isSome) (k : ℕ) : (w'.get? k).isSome = (w.get? k).isSome := by
  rw [hu.get?]
  split
  next hk =>
    rw [hk, h]
    rfl
  · rfl

/-- The result of `completeSdu` for the SDU `x` with the entry `e`. -/
structure Completed (s s' : RxAm) (pool : Option ℕ) (x : ℕ) (e : RxAmSduInfo) (R H M R' H' : ℕ) : Prop
    extends RxCore s' R' H' M where
  eq : s' = { s with st := s'.st, rxWindow := s'.rxWindow,
                     notifications := s.notifications ++ if e.fullyReceived then [delivery pool e] else [] }
  st : s'.st = { s.st with rxNext := s'.st.rxNext, rxHighestStatus := s'.st.rxHighestStatus }
  next_incomplete : ¬ s'.Received R'
  highest_incomplete : ¬ s'.Received H'
  next_le : R ≤ R'
  received : ∀ a, R ≤ a → a < R' → s.Received a
  same : e.fullyReceived = false → R' = R ∧ H' = H
  get? : ∀ a, R' ≤ a → a < R + s.mod → s'.rxWindow.get? (a % s.mod) =
    if a = x then some (if e.fullyReceived then { e with sduData := .slice [] } else e)
    else s.rxWindow.get? (a % s.mod)

lemma RxCore.updateHighestStatus (h : RxCore s R H M) (h1 : R ≤ x) (h2 : x < M)
    (hH : x ≠ H → ¬ s.Received H) : ∃ H', s.updateHighestStatus (x % s.mod) =
      { s with st := { s.st with rxHighestStatus := H' % s.mod } } ∧ R ≤ H' ∧ H' ≤ M ∧ ¬ s.Received H' := by
  have hmod := s.mod_eq
  have hwin := s.window_ge
  have hle := h.le_window
  have hle' := h.highest_le
  have hRH := h.le_highest
  have hbase : s.rxModBase (x % s.mod) = x - R := h.rxModBase h1 (by omega) (mod_mod _ _)
  have hbase' : s.rxModBase s.st.rxHighestStatus = H - R :=
    h.rxModBase hRH (by omega) (by rw [h.highestStatus, mod_mod])
  unfold RxAm.updateHighestStatus
  rw [hbase, hbase']
  split
  · obtain ⟨H', h3, h4, h5, -, h6⟩ := h.firstIncomplete s.mod (by omega : R ≤ H + 1) (by omega) (by omega)
    exact ⟨H', by rw [h.highestStatus, succ_mod, h5], by omega, h4, h6⟩
  · exact ⟨H, by rw [← h.highestStatus], hRH, hle', hH (by omega)⟩

lemma RxCore.of_release (h : RxCore s R H M) {H' : ℕ} {l : List RxNotification} (hg : s.rxWindow.get? sn = some e)
    (hu : Updated s.rxWindow w sn { e with sduData := .slice [] }) (h1 : R ≤ H') (h2 : H' ≤ M) :
    RxCore { s with rxWindow := w, notifications := l, st := { s.st with rxHighestStatus := H' % s.mod } }
      R H' M := by
  have hsome : (s.rxWindow.get? sn).isSome := by rw [hg]; rfl
  refine ⟨{ h with capacity := hu.capacity.trans h.capacity, mem := ?_ }, rfl, h1, h2, ?_⟩
  · intro k hk
    change (w.get? k).isSome = true at hk
    rw [hu.isSome hsome] at hk
    exact h.mem k hk
  · intro hlt
    change (w.get? ((M - 1) % s.mod)).isSome
    rw [hu.isSome hsome]
    exact h.last hlt

lemma RxCore.updateRxNext (h : RxCore s R H M) (h1 : R ≤ x) (h2 : x < M)
    (hR : x ≠ R → ¬ s.Received R) (hH : ¬ s.Received H) : ∃ R' w, s.updateRxNext (x % s.mod) =
      .ok { s with rxWindow := w, st := { s.st with rxNext := R' % s.mod } } ∧ Removed s R M R R' w ∧
      RxCore { s with rxWindow := w, st := { s.st with rxNext := R' % s.mod } } R' H M := by
  have hmod := s.mod_eq
  have hwin := s.window_ge
  have hle := h.le
  have hle' := h.le_window
  have hRH := h.le_highest
  have hbase : s.rxModBase (x % s.mod) = x - R := h.rxModBase h1 (by omega) (mod_mod _ _)
  -- what a removal of the complete SDUs gives
  have key : ∀ R' w, Removed s R M R R' w →
      RxCore { s with rxWindow := w, st := { s.st with rxNext := R' % s.mod } } R' H M := by
    intro R' w hr
    have hr1 := hr.le
    have hr2 := hr.le_top
    refine ⟨⟨rfl, h.nextHighest, hr2, ?_, hr.capacity.trans h.capacity, ?_⟩, h.highestStatus, ?_, h.highest_le, ?_⟩
    · change M ≤ R' + s.amWindowSize
      omega
    · intro k hk
      change (w.get? k).isSome = true at hk
      obtain ⟨a, h3, h4, rfl⟩ := h.mem k (hr.sub k hk)
      rw [hr.get? a h3 (by omega)] at hk
      split at hk
      · cases hk
      · exact ⟨a, by omega, h4, rfl⟩
    · by_contra hlt
      exact hH (hr.received H hRH (by omega))
    · intro hlt
      change (w.get? ((M - 1) % s.mod)).isSome
      rw [hr.get? (M - 1) (by omega) (by omega), if_neg (by omega)]
      exact h.last (by omega)
  unfold RxAm.updateRxNext
  rw [hbase, h.rxModBase_self]
  split
  · obtain ⟨R', w, he, hr⟩ := h.removeReceived s.mod le_rfl hle (by omega)
    rw [h.rxNext, mod_mod, he, ok_bind]
    exact ⟨R', w, rfl, hr, key R' w hr⟩
  · have hr := h.removed_refl hle (fun hc => hR (by omega) hc.2) le_rfl
    exact ⟨R, s.rxWindow, by rw [← h.rxNext], hr, key R _ hr⟩

/-- **Completion of an SDU**: delivery, and the updates of RX_Highest_Status and RX_Next. -/
theorem RxCore.completeSdu (h : RxCore s R H M) (mem : Option ℕ) (h1 : R ≤ x)
    (h2 : x < M) (hg : s.rxWindow.get? (x % s.mod) = some e) (hR : x ≠ R → ¬ s.Received R)
    (hH : x ≠ H → ¬ s.Received H) : ∃ s' R' H', s.completeSdu mem (x % s.mod) = .ok s' ∧
      Completed s s' mem x e R H M R' H' := by
  have hmod := s.mod_eq
  have hwin := s.window_ge
  have hlew := h.le_window
  have hrec : s.Received x ↔ e.fullyReceived = true := by
    rw [Received, isFullyReceived, hg]
    rfl
  unfold RxAm.completeSdu
  rw [hg]
  dsimp only
  cases hf : e.fullyReceived with
  | false =>
    rw [hf] at hrec
    have hx : ¬ s.Received x := fun hr => Bool.false_ne_true (hrec.mp hr)
    refine ⟨s, R, H, rfl, h, ?_, rfl, ?_, ?_, le_rfl, fun a h3 h4 => by omega, fun _ => ⟨rfl, rfl⟩, ?_⟩
    · rw [hf]
      simp
    · by_cases hc : x = R
      · rw [← hc]; exact hx
      · exact hR hc
    · by_cases hc : x = H
      · rw [← hc]; exact hx
      · exact hH hc
    · intro a _ _
      split
      next hax =>
        rw [hax, hg, hf]
        rfl
      · rfl
  | true =>
    have hu := Updated.release hg
    set w := s.rxWindow.modify (x % s.mod) fun i => { i with sduData := .slice [] } with hw
    have hsame : ∀ a, (w.get? (a % s.mod)).any RxAmSduInfo.fullyReceived = true ↔ s.Received a :=
      fun a => by rw [hu.isFullyReceived hg]; rfl
    rw [if_pos rfl, deliverSdu_eq]
    set l := s.notifications ++ [delivery mem e]
    have hc1 : RxCore { s with rxWindow := w, notifications := l } R H M := by
      have hc := h.of_release (l := l) hg hu h.le_highest h.highest_le
      rwa [← h.highestStatus] at hc
    obtain ⟨H', he2, h3, h4, h5⟩ := hc1.updateHighestStatus h1 h2 (fun hc hr => hH hc ((hsame H).mp hr))
    have hc2 := h.of_release (l := l) hg hu h3 h4
    obtain ⟨R', w', he3, hr, hc3⟩ := hc2.updateRxNext h1 h2 (fun hc hr => hR hc ((hsame R).mp hr)) h5
    have hr1 := hr.le
    have hr2 := hr.le_top
    have hget : ∀ a, R ≤ a → a < R + s.mod →
        w'.get? (a % s.mod) = if R ≤ a ∧ a < R' then none else w.get? (a % s.mod) := hr.get?
    refine ⟨_, R', H', (congrArg (fun t => RxAm.updateRxNext t (x % s.mod)) he2).trans he3, hc3, ?_, rfl, ?_, ?_,
      hr1, ?_, ?_, ?_⟩
    · rw [hf]
      rfl
    · -- RX_Next stopped at an incomplete SDU, which is still as it was
      intro hrec'
      refine hr.stop ?_
      change (w'.get? (R' % s.mod)).any _ = true at hrec'
      rw [hget R' hr1 (by omega), if_neg (by omega)] at hrec'
      exact hrec'
    · intro hrec'
      change (w'.get? (H' % s.mod)).any _ = true at hrec'
      rw [hget H' h3 (by omega)] at hrec'
      split at hrec'
      · cases hrec'
      · exact h5 hrec'
    · exact fun a h6 h7 => (hsame a).mp (hr.received a h6 h7)
    · rw [hf]
      exact fun hff => (nomatch hff)
    · intro a h6 h7
      change w'.get? (a % s.mod) = _
      rw [hget a (by omega) h7, if_neg (by omega), hu.get?, hf, if_pos rfl]
      by_cases hax : a = x
      · rw [if_pos hax, if_pos (by rw [hax])]
      · rw [if_neg hax, if_neg]
        intro he
        exact hax (eq_of_mod_eq he (by omega) h7 h1 (by omega))

/-! ### t-Reassembly -/

/-- RX_Next_Status_Trigger lies beyond RX_Next, and the SDU before it is in the window. -/
def TriggerIn (s : RxAm) (R M : ℕ) : Prop :=
  ∃ T, R < T ∧ T ≤ M ∧ s.st.rxNextStatusTrigger = T % s.mod ∧ (s.rxWindow.get? ((T - 1) % s.mod)).isSome

/-- **The invariant of the receiver.** -/
structure RxInv (s : RxAm) (R H M : ℕ) : Prop extends RxCore s R H M where
  next_incomplete : ¬ s.Received R
  highest_incomplete : ¬ s.Received H
  trigger : s.reassemblyTimerRunning = true → s.TriggerIn R M

lemma RxWin.stopReassemblyTimer (h : RxWin s R M) (ht : s.reassemblyTimerRunning = true →
      ∃ T, T ≤ M ∧ R < T + s.amWindowSize ∧ s.st.rxNextStatusTrigger = T % s.mod ∧
        (R < T → (s.rxWindow.get? ((T - 1) % s.mod)).isSome)) :
    ∃ b, s.stopReassemblyTimer = .ok { s with reassemblyTimerRunning := b } ∧ (b = true → s.TriggerIn R M) := by
  have hmod := s.mod_eq
  have hwin := s.window_ge
  have hle := h.le_window
  unfold RxAm.stopReassemblyTimer
  cases hrun : s.reassemblyTimerRunning with
  | false =>
    refine ⟨false, ?_, fun hb => (nomatch hb)⟩
    rw [if_neg Bool.false_ne_true, ← hrun]
  | true =>
    obtain ⟨T, h1, h2, h3, h4⟩ := ht hrun
    have hnext : s.rxModBase (s.st.rxNext + 1) = 1 := by
      rw [h.rxModBase (a := R + 1) (by omega) (by omega) (by rw [h.rxNext, succ_mod])]
      omega
    rw [if_pos rfl, noGapAtRxNext, hnext]
    rcases Nat.lt_or_ge R T with hlt | hge
    · -- the trigger is beyond RX_Next
      have hbase : s.rxModBase s.st.rxNextStatusTrigger = T - R := h.rxModBase hlt.le (by omega) (by rw [h3, mod_mod])
      have htr : s.TriggerIn R M := ⟨T, hlt, h1, h3, h4 hlt⟩
      rw [hbase]
      split
      · obtain ⟨info, hinfo⟩ := Option.isSome_iff_exists.mp (h4 hlt)
        rw [show T - 1 = R by omega, ← h.rxNext] at hinfo
        rw [access_of_get? hinfo, ok_bind, ok_bind]
        exact ⟨_, rfl, fun _ => htr⟩
      · rw [ok_bind]
        exact ⟨_, rfl, fun _ => htr⟩
    · -- RX_Next has reached or passed the trigger: the timer stops
      refine ⟨false, ?_, fun hb => (nomatch hb)⟩
      rcases hge.lt_or_eq with hgt | rfl
      · have hbase : s.rxModBase s.st.rxNextStatusTrigger = T + s.mod - R := by
          refine h.rxModBase (by omega) (by omega) ?_
          rw [h3, mod_mod, add_mod_right]
        have hout : s.insideRxWindow s.st.rxNextStatusTrigger = false := by
          rw [insideRxWindow, hbase]
          simp only [decide_eq_false_iff_not]
          omega
        rw [hbase, if_neg (by omega), ok_bind, hout]
        simp
      · have hbase : s.rxModBase s.st.rxNextStatusTrigger = 0 := by
          rw [h3, ← h.rxNext, h.rxModBase_self]
        have heq : (s.st.rxNextStatusTrigger == s.st.rxNext) = true := by
          rw [h3, h.rxNext]
          exact beq_self_eq_true _
        rw [hbase, if_neg (by omega), ok_bind, heq]
        simp

lemma RxWin.lt_of_reassemblyPending (h : RxWin s R M) (h1 : R ≤ S) (h2 : S ≤ M)
    (hp : s.reassemblyPending (S % s.mod) = true) : S < M := by
  have hmod := s.mod_eq
  have hwin := s.window_ge
  have hle := h.le_window
  have hbase : s.rxModBase (S % s.mod + 1) = S + 1 - R := h.rxModBase (by omega) (by omega) (succ_mod S)
  unfold reassemblyPending at hp
  rw [h.rxModBase_nextHighest, hbase] at hp
  simp only [Bool.or_eq_true, decide_eq_true_eq, Bool.and_eq_true, beq_iff_eq] at hp
  omega

lemma RxInv.restartReassemblyTimer (h : RxInv s R H M) (h1 : R ≤ S) (h2 : S ≤ M) :
    s.restartReassemblyTimer (S % s.mod) = .error (.assertion "Calling timer::run with invalid duration") ∨
      ∃ b t, s.restartReassemblyTimer (S % s.mod) =
          .ok { s with reassemblyTimerRunning := b, st := { s.st with rxNextStatusTrigger := t } } ∧
        RxInv { s with reassemblyTimerRunning := b, st := { s.st with rxNextStatusTrigger := t } } R H M := by
  unfold RxAm.restartReassemblyTimer
  split
  next hc =>
    rw [Bool.and_eq_true] at hc
    have hlt := h.lt_of_reassemblyPending h1 h2 hc.2
    unfold startReassemblyTimer
    split
    · refine .inr ⟨true, s.st.rxNextHighest, rfl, ?_⟩
      refine ⟨⟨{ h with }, h.highestStatus, h.le_highest,
        h.highest_le, h.last⟩, h.next_incomplete, h.highest_incomplete, ?_⟩
      intro _
      exact ⟨M, by omega, le_rfl, h.nextHighest, h.last (by omega)⟩
    · exact .inl rfl
  · exact .inr ⟨s.reassemblyTimerRunning, s.st.rxNextStatusTrigger, rfl, h⟩

/-! ### A data PDU -/

/-- The result of `placePdu` for the SDU `x`, whose entry becomes `e`. -/
structure Placed (s s' : RxAm) (pool : Option ℕ) (x : ℕ) (e : RxAmSduInfo) (R H M R' H' : ℕ) : Prop
    extends RxInv s' R' H' (max M (x + 1)) where
  eq : s' = { s with st := s'.st, rxWindow := s'.rxWindow, reassemblyTimerRunning := s'.reassemblyTimerRunning,
                     notifications := s.notifications ++ if e.fullyReceived then [delivery pool e] else [] }
  next_le : R ≤ R'
  received : ∀ a, R ≤ a → a < R' → if a = x then e.fullyReceived = true else s.Received a
  same : e.fullyReceived = false → R' = R ∧ H' = H
  get? : ∀ a, R' ≤ a → a < R + s.mod → s'.rxWindow.get? (a % s.mod) =
    if a = x then some (if e.fullyReceived then { e with sduData := .slice [] } else e)
    else s.rxWindow.get? (a % s.mod)

lemma RxInv.placePdu (h : RxInv s R H M) (pool : Option ℕ) {header : AmPduHeader} (payload : Bytes)
    (h1 : R ≤ x) (h2 : x < R + s.amWindowSize) (hsn : header.sn = x % s.mod) :
    s.placePdu pool header payload = .error (.assertion "Calling timer::run with invalid duration") ∨
      ∃ s' R' H', s.placePdu pool header payload =
          .ok (s', (storedEntry (s.rxWindow.get? header.sn) header payload).2) ∧
        Placed s s' pool x (storedEntry (s.rxWindow.get? header.sn) header payload).1 R H M R' H' := by
  have hmod := s.mod_eq
  have hwin := s.window_ge
  have hle := h.le_window
  obtain ⟨w, hst, hu⟩ := h.storePdu payload h1 h2 hsn
  set e := (storedEntry (s.rxWindow.get? header.sn) header payload).1
  rw [hsn] at hu
  have hnh := (h.toRxWin.updateNextHighest h1 h2 hu).1
  set s1 : RxAm := { s with rxWindow := w, st := { s.st with rxNextHighest := max M (x + 1) % s.mod } }
  -- SDUs other than `x` have not changed
  have hother : ∀ a, R ≤ a → a < R + s.mod → a ≠ x → w.get? (a % s.mod) = s.rxWindow.get? (a % s.mod) :=
    fun a h3 h4 h5 => hu.get?_of_ne h1 (by omega) h3 h4 h5
  have hrec : ∀ a, R ≤ a → a < R + s.mod → a ≠ x → (s1.Received a ↔ s.Received a) := by
    intro a h3 h4 h5
    change ((w.get? (a % s.mod)).any RxAmSduInfo.fullyReceived = true ↔ _)
    rw [hother a h3 h4 h5]
    rfl
  have hRH := h.le_highest
  have hHM := h.highest_le
  obtain ⟨s2, R', H', hc, hcomp⟩ := (h.updateNextHighest h1 h2 hu).completeSdu pool h1 (by omega)
    (by change w.get? (x % s.mod) = some e; rw [hu.get?, if_pos rfl])
    (fun hx hr => h.next_incomplete ((hrec R le_rfl (by omega) (Ne.symm hx)).mp hr))
    (fun hx hr => h.highest_incomplete ((hrec H hRH (by omega) (Ne.symm hx)).mp hr))
  have hmod2 : s2.mod = s.mod := by rw [hcomp.eq]; rfl
  have hwin2 : s2.amWindowSize = s.amWindowSize := by rw [hcomp.eq]; rfl
  have hRR' := hcomp.next_le
  have hR'M := hcomp.le
  obtain ⟨b, hstop, hb⟩ := hcomp.stopReassemblyTimer (by
    intro hrun
    have hrun' : s.reassemblyTimerRunning = true := by
      rw [hcomp.eq] at hrun
      exact hrun
    obtain ⟨T, h3, h4, h5, h6⟩ := h.trigger hrun'
    refine ⟨T, by omega, by omega, ?_, ?_⟩
    · rw [hcomp.st, hmod2]
      exact h5
    · intro hlt
      rw [hmod2]
      have hg := hcomp.get? (T - 1) (by omega) (by change T - 1 < R + s.mod; omega)
      change s2.rxWindow.get? ((T - 1) % s.mod) = _ at hg
      rw [hg]
      split
      · rfl
      next hTx =>
        change (w.get? ((T - 1) % s.mod)).isSome
        rw [hother _ (by omega) (by omega) hTx]
        exact h6)
  have hinv : RxInv { s2 with reassemblyTimerRunning := b } R' H' (max M (x + 1)) :=
    ⟨⟨{ hcomp with }, hcomp.highestStatus, hcomp.le_highest, hcomp.highest_le, hcomp.last⟩, hcomp.next_incomplete,
      hcomp.highest_incomplete, hb⟩
  have hplace : s.placePdu pool header payload =
      (RxAm.restartReassemblyTimer { s2 with reassemblyTimerRunning := b } s2.st.rxNext >>= fun s' =>
        .ok (s', (storedEntry (s.rxWindow.get? header.sn) header payload).2)) := by
    rw [RxAm.placePdu, hst, ok_bind]
    simp only [hsn, hnh]
    change (s1.completeSdu pool (x % s1.mod) >>= _) = _
    rw [hc, ok_bind, hstop, ok_bind]
  rw [hplace, hcomp.rxNext]
  rcases hinv.restartReassemblyTimer le_rfl hR'M with herr | ⟨b', t, hok, hinv'⟩
  · refine .inl ?_
    change RxAm.restartReassemblyTimer _ (R' % s2.mod) = _ at herr
    rw [herr, error_bind]
  · change RxAm.restartReassemblyTimer _ (R' % s2.mod) = _ at hok
    rw [hok, ok_bind]
    refine .inr ⟨_, R', H', rfl, hinv', ?_, hRR', ?_, hcomp.same, ?_⟩
    · conv_lhs => rw [hcomp.eq]
    · intro a h3 h4
      have hr := hcomp.received a h3 h4
      split
      next hax =>
        rw [hax] at hr
        change (w.get? (x % s.mod)).any RxAmSduInfo.fullyReceived = true at hr
        rw [hu.get?, if_pos rfl] at hr
        exact hr
      next hax => exact (hrec a h3 (by omega) hax).mp hr
    · intro a h3 h4
      refine (hcomp.get? a h3 h4).trans ?_
      split
      · rfl
      next hax => exact hother a (by omega) h4 hax

/-! ### Status reports leave the counters alone -/

lemma RxInv.congr (h : RxInv s R H M) (h1 : s'.cfg = s.cfg) (h2 : s'.st = s.st)
    (h3 : s'.rxWindow = s.rxWindow) (h4 : s'.reassemblyTimerRunning = s.reassemblyTimerRunning) : RxInv s' R H M := by
  have hmod : s'.mod = s.mod := by rw [mod, h1, mod]
  have hwin : s'.amWindowSize = s.amWindowSize := by rw [amWindowSize, h1, amWindowSize]
  have hrec : ∀ a, s'.Received a ↔ s.Received a := by
    intro a
    rw [Received, isFullyReceived, h3, hmod, Received, isFullyReceived]
  constructor
  · constructor
    · exact ⟨by rw [h2, hmod, h.rxNext], by rw [h2, hmod, h.nextHighest], h.le, by rw [hwin]; exact h.le_window,
        by rw [h3, hwin, h.capacity], by rw [h3, hmod]; exact h.mem⟩
    · rw [h2, hmod, h.highestStatus]
    · exact h.le_highest
    · exact h.highest_le
    · rw [h3, hmod]
      exact h.last
  · exact fun hr => h.next_incomplete ((hrec R).mp hr)
  · exact fun hr => h.highest_incomplete ((hrec H).mp hr)
  · rw [h4, TriggerIn, h2, h3, hmod]
    exact h.trigger

lemma refreshStatusReport_eq (h : s.refreshStatusReport = .ok s') : ∃ status,
    s.statusLoop s.statusStopSn s.mod s.st.rxNext (StatusPdu.reset s.cfg.snFieldLength) = .ok status ∧
      s' = s.storeStatusReport { status with ackSn := s.statusStopSn } := by
  obtain ⟨status, h1, h2⟩ := bind_eq_ok.mp h
  cases h2
  exact ⟨status, h1, rfl⟩

lemma RxInv.of_refreshStatusReport (h : RxInv s R H M) (hr : s.refreshStatusReport = .ok s') : RxInv s' R H M := by
  obtain ⟨status, -, rfl⟩ := refreshStatusReport_eq hr
  exact h.congr rfl rfl rfl rfl

lemma RxInv.of_notifyStatusReportChanged (h : RxInv s R H M) : RxInv s.notifyStatusReportChanged R H M := by
  unfold notifyStatusReportChanged
  split
  · exact h.congr rfl rfl rfl rfl
  · exact h

lemma RxInv.of_finishPdu {changed requested : Bool} (h : RxInv s R H M)
    (hf : s.finishPdu changed requested = .ok s') : RxInv s' R H M := by
  unfold finishPdu at hf
  split at hf
  · obtain ⟨s1, h1, h2⟩ := bind_eq_ok.mp hf
    cases h2
    refine RxInv.of_notifyStatusReportChanged ?_
    exact (h.of_refreshStatusReport h1).congr rfl rfl rfl rfl
  · cases hf
    exact h

/-- The assertions that the two main results do not talk about. -/
def OtherAssertion (e : Abort) : Prop :=
  e = .assertion "Calling timer::run with invalid duration" ∨
    e = .assertion "Invalid segment offsets in nack" ∨
    e = .assertion "Invalid sdu_data variant of incomplete SDU in rx_window"

lemma segmentNacks_error {lastSo : ℕ} {haveLast : Bool} {l : List SduSegment} {e : Abort}
    (h : segmentNacks sn lastSo haveLast l = .error e) : OtherAssertion e := by
  induction l generalizing lastSo haveLast with
  | nil => cases h
  | cons segm rest ih =>
    simp only [segmentNacks] at h
    split at h
    · cases h
      exact .inr (.inl rfl)
    · rcases bind_eq_error.mp h with h | ⟨l, -, h⟩
      · exact ih h
      · cases h

lemma nacksFor_error {e : Abort} (h : s.nacksFor sn = .error e) : OtherAssertion e := by
  unfold nacksFor at h
  split at h
  · cases h
  split at h
  · cases h
  split at h
  · exact segmentNacks_error h
  · cases h
    exact .inr (.inr rfl)

lemma refreshStatusReport_error {e : Abort} (h : s.refreshStatusReport = .error e) : OtherAssertion e := by
  rcases bind_eq_error.mp h with h | ⟨status, -, h⟩
  · have key : ∀ fuel sn status, s.statusLoop s.statusStopSn fuel sn status = .error e → OtherAssertion e := by
      intro fuel
      induction fuel with
      | zero => intro sn status h; cases h
      | succ fuel ih =>
        intro sn status h
        simp only [statusLoop] at h
        split at h
        · rcases bind_eq_error.mp h with h | ⟨l, -, h⟩
          · exact nacksFor_error h
          · exact ih _ _ h
        · cases h
    exact key _ _ _ h
  · cases h

lemma finishPdu_error {changed requested : Bool} {e : Abort} (h : s.finishPdu changed requested = .error e) :
    OtherAssertion e := by
  unfold finishPdu at h
  split at h
  · rcases bind_eq_error.mp h with h | ⟨s1, -, h⟩
    · exact refreshStatusReport_error h
    · cases h
  · cases h

end Win

end SrsRan.Rlc.RxAm
