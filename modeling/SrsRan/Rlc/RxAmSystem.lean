import SrsRan.Rlc.RxAmInvariant

/-!
# The RLC AM receiver as a system

`RxAction` lists the calls that drive an RLC AM receiver; the bytes of a PDU are arbitrary.  Every call keeps the invariant
`RxInv`, so the accesses and assertions that rely on the order of the state variables cannot fail.
-/

namespace SrsRan.Rlc

open Support Lib.SeqNum Lib.Run Nat

/-- The events of the receiver. -/
inductive RxAction where
  | handlePdu (mem : Option ℕ) (buf : Bytes)
  | expireReassemblyTimer
  | expireStatusProhibitTimer
  | getStatusPdu

namespace RxAm

def step (s : RxAm) : RxAction → Except Abort RxAm
  | .handlePdu mem buf => s.handlePdu mem buf
  | .expireReassemblyTimer =>
    if s.reassemblyTimerRunning then { s with reassemblyTimerRunning := false }.onExpiredReassemblyTimer
    else .ok s
  | .expireStatusProhibitTimer => .ok s.onExpiredStatusProhibitTimer
  | .getStatusPdu => .ok s.getStatusPdu.1

variable {s s' : RxAm} {R H M : ℕ} {a : RxAction}

lemma RxInv.init (cfg : RxAmConfig) : RxInv (init cfg) 0 0 0 := by
  refine ⟨⟨⟨?_, ?_, le_rfl, Nat.zero_le _, rfl, ?_⟩, ?_, le_rfl, le_rfl, fun h => by omega⟩, ?_, ?_, ?_⟩
  · exact (zero_mod _).symm
  · exact (zero_mod _).symm
  · intro k hk
    change ((CircularMap.empty _ _).get? k).isSome = true at hk
    rw [CircularMap.get?_empty] at hk
    cases hk
  · exact (zero_mod _).symm
  · exact Bool.false_ne_true
  · exact Bool.false_ne_true
  · exact fun h => (nomatch h)

section

variable (h : RxInv s R H M)
include h

lemma RxInv.unwrap_sn {sn : ℕ} (hlt : sn < s.mod)
    (hin : s.insideRxWindow sn = true) : ∃ x, R ≤ x ∧ x < R + s.amWindowSize ∧ sn = x % s.mod := by
  obtain ⟨x, h1, h2, h3, h4⟩ := h.unwrap sn
  rw [insideRxWindow, h4, decide_eq_true_eq] at hin
  refine ⟨x, h1, by omega, ?_⟩
  rw [← h3, mod_eq_of_lt hlt]

/-- **A data PDU** keeps the invariant, or one of the other assertions fails. -/
theorem RxInv.handleDataPdu (mem : Option ℕ) (buf : Bytes) :
    (∃ e, s.handleDataPdu mem buf = .error e ∧ OtherAssertion e) ∨
      ∃ s' R' H' M', s.handleDataPdu mem buf = .ok s' ∧ RxInv s' R' H' M' := by
  -- the scope guard at the end
  have hfinish : ∀ {s : RxAm} {R H M : ℕ} {changed requested : Bool}, RxInv s R H M →
      (∃ e, s.finishPdu changed requested = .error e ∧ OtherAssertion e) ∨
        ∃ s' R' H' M', s.finishPdu changed requested = .ok s' ∧ RxInv s' R' H' M' := by
    intro s R H M changed requested h
    cases hf : s.finishPdu changed requested with
    | error e => exact .inl ⟨e, rfl, finishPdu_error hf⟩
    | ok s' => exact .inr ⟨s', R, H, M, rfl, h.of_finishPdu hf⟩
  unfold RxAm.handleDataPdu
  split
  · exact .inr ⟨s, R, H, M, rfl, h⟩
  rename_i header hread
  split
  · exact .inr ⟨s, R, H, M, rfl, h⟩
  split
  · exact hfinish h
  next hin =>
    simp only [Bool.or_eq_true, Bool.not_eq_eq_eq_not, Bool.not_true, not_or, Bool.not_eq_false] at hin
    obtain ⟨x, h1, h2, h3⟩ := h.unwrap_sn (amRead_sn_lt hread) hin.1
    rcases h.placePdu mem (buf.drop header.getPackedSize) h1 h2 h3 with herr | ⟨s1, R', H', hok, hp⟩
    · rw [herr, error_bind]
      exact .inl ⟨_, rfl, .inl rfl⟩
    · rw [hok, ok_bind]
      exact hfinish hp.toRxInv

lemma RxInv.handlePdu (mem : Option ℕ) (buf : Bytes) :
    (∃ e, s.handlePdu mem buf = .error e ∧ OtherAssertion e) ∨
      ∃ s' R' H' M', s.handlePdu mem buf = .ok s' ∧ RxInv s' R' H' M' := by
  unfold RxAm.handlePdu
  split
  · exact .inr ⟨s, R, H, M, rfl, h⟩
  split
  · refine .inr ⟨_, R, H, M, rfl, ?_⟩
    unfold handleControlPdu
    split
    · exact h.congr rfl rfl rfl rfl
    · exact h
  · exact h.handleDataPdu mem buf

lemma RxInv.setHighestStatus {H' : ℕ} (h1 : R ≤ H') (h2 : H' ≤ M)
    (h3 : ¬ s.Received H') : RxInv { s with st := { s.st with rxHighestStatus := H' % s.mod } } R H' M :=
  ⟨⟨{ h with }, rfl, h1, h2, h.last⟩, h.next_incomplete, h3, h.trigger⟩

lemma RxInv.finishExpiry :
    (∃ e, s.finishExpiry = .error e ∧ OtherAssertion e) ∨
      ∃ s' H', s.finishExpiry = .ok s' ∧ RxInv s' R H' M := by
  unfold RxAm.finishExpiry
  rw [h.highestStatus]
  rcases h.restartReassemblyTimer h.le_highest h.highest_le with herr | ⟨b, t, hok, hinv⟩
  · rw [herr, error_bind]
    exact .inl ⟨_, rfl, .inl rfl⟩
  · rw [hok, ok_bind]
    cases hr : refreshStatusReport _ with
    | error e => exact .inl ⟨e, rfl, refreshStatusReport_error hr⟩
    | ok s1 =>
      refine .inr ⟨_, H, rfl, RxInv.of_notifyStatusReportChanged ?_⟩
      exact (hinv.of_refreshStatusReport hr).congr rfl rfl rfl rfl

lemma RxInv.onExpiredReassemblyTimer_eq (hrun : s.reassemblyTimerRunning = true) :
    ∃ H', RxInv { s with reassemblyTimerRunning := false
                         st := { s.st with rxHighestStatus := H' % s.mod } } R H' M ∧
      ({ s with reassemblyTimerRunning := false } : RxAm).onExpiredReassemblyTimer =
        RxAm.finishExpiry { s with reassemblyTimerRunning := false
                                   st := { s.st with rxHighestStatus := H' % s.mod } } := by
  obtain ⟨T, h1, h2, h3, -⟩ := h.trigger hrun
  have hmod := s.mod_eq
  have hwin := s.window_ge
  have hle := h.le_window
  set s0 : RxAm := { s with reassemblyTimerRunning := false }
  have h0 : RxInv s0 R H M :=
    ⟨⟨{ h with }, h.highestStatus, h.le_highest,
      h.highest_le, h.last⟩, h.next_incomplete, h.highest_incomplete, fun hf => (nomatch hf)⟩
  have hvalid : ∀ S, R < S → S ≤ M → s0.validAckSn (S % s.mod) = true := by
    intro S h4 h5
    have hbase : s0.rxModBase (S % s.mod) = S - R :=
      h0.rxModBase (by omega) (by change S < R + s.mod; omega) (mod_mod _ _)
    rw [validAckSn, hbase]
    change (decide (0 < S - R) && decide (S - R ≤ s.amWindowSize)) = true
    simp only [Bool.and_eq_true, decide_eq_true_eq]
    omega
  obtain ⟨S', h4, h5, h6, -, h7⟩ := h0.firstIncomplete s.mod (by omega : R ≤ T) h2 (by omega)
  have htr : s0.st.rxNextStatusTrigger = T % s.mod := h3
  have h₁ : RxInv { s0 with st := { s0.st with rxHighestStatus := S' % s.mod } } R S' M :=
    h0.setHighestStatus (by omega) h5 h7
  refine ⟨S', h₁, ?_⟩
  have h8 : s0.firstIncomplete s0.mod (T % s.mod) = S' % s.mod := h6
  unfold RxAm.onExpiredReassemblyTimer
  rw [if_neg (show ¬ s0.reassemblyTimerRunning = true from Bool.false_ne_true), htr, hvalid T h1 h2]
  dsimp only
  rw [h8, hvalid S' (by omega) h5]
  rfl

/-- **The expiry of t-Reassembly** keeps the invariant. -/
theorem RxInv.onExpiredReassemblyTimer (hrun : s.reassemblyTimerRunning = true) :
    (∃ e, ({ s with reassemblyTimerRunning := false } : RxAm).onExpiredReassemblyTimer = .error e ∧
      OtherAssertion e) ∨ ∃ s' H', ({ s with reassemblyTimerRunning := false } : RxAm).onExpiredReassemblyTimer =
        .ok s' ∧ RxInv s' R H' M := by
  obtain ⟨H', hinv, heq⟩ := h.onExpiredReassemblyTimer_eq hrun
  rw [heq]
  exact hinv.finishExpiry

/-! ### Every reachable state -/

/-- **Every step keeps the invariant**, or one of the other assertions fails. -/
theorem RxInv.step (a : RxAction) :
    (∃ e, s.step a = .error e ∧ OtherAssertion e) ∨
      ∃ s' R' H' M', s.step a = .ok s' ∧ RxInv s' R' H' M' := by
  cases a with
  | handlePdu mem buf => exact h.handlePdu mem buf
  | expireReassemblyTimer =>
    rw [RxAm.step]
    split
    next hrun =>
      rcases h.onExpiredReassemblyTimer hrun with herr | ⟨s', H', hok, hinv⟩
      · exact .inl herr
      · exact .inr ⟨s', R, H', M, hok, hinv⟩
    · exact .inr ⟨s, R, H, M, rfl, h⟩
  | expireStatusProhibitTimer =>
    refine .inr ⟨_, R, H, M, rfl, RxInv.of_notifyStatusReportChanged ?_⟩
    exact h.congr rfl rfl rfl rfl
  | getStatusPdu => exact .inr ⟨_, R, H, M, rfl, h.congr rfl rfl rfl rfl⟩

end

/-- The receiver runs without any assumption about the PDUs. -/
def Reachable (cfg : RxAmConfig) (s : RxAm) : Prop := Reach step (fun _ _ => True) (init cfg) s

lemma Reachable.rxInv {cfg : RxAmConfig} (h : Reachable cfg s) : ∃ R H M, RxInv s R H M := by
  refine Reach.invariant (P := fun s => ∃ R H M, RxInv s R H M) h ⟨0, 0, 0, RxInv.init cfg⟩ ?_
  rintro s a s' ⟨R, H, M, hi⟩ - hs
  rcases hi.step a with ⟨e, he, -⟩ | ⟨s1, R', H', M', hok, hi'⟩
  · rw [he] at hs
    cases hs
  · rw [hok] at hs
    cases hs
    exact ⟨R', H', M', hi'⟩

/-- The state variables relative to RX_Next, and what they say about the window. -/
structure RxProperty (s : RxAm) : Prop where
  highest_le : s.rxModBase s.st.rxHighestStatus ≤ s.rxModBase s.st.rxNextHighest
  nextHighest_le : s.rxModBase s.st.rxNextHighest ≤ s.amWindowSize
  next_incomplete : s.isFullyReceived s.st.rxNext = false
  highest_incomplete : s.isFullyReceived s.st.rxHighestStatus = false
  inside : ∀ sn, SduWindow.hasSn s.rxWindow sn = true → s.rxModBase sn < s.rxModBase s.st.rxNextHighest
  trigger : s.reassemblyTimerRunning = true → 0 < s.rxModBase s.st.rxNextStatusTrigger ∧
    s.rxModBase s.st.rxNextStatusTrigger ≤ s.rxModBase s.st.rxNextHighest ∧
    SduWindow.hasSn s.rxWindow ((s.st.rxNextStatusTrigger + s.mod - 1) % s.mod) = true

lemma RxInv.rxProperty (h : RxInv s R H M) : RxProperty s := by
  have hmod := s.mod_eq
  have hwin := s.window_ge
  have hle := h.le
  have hle' := h.le_window
  have hRH := h.le_highest
  have hHM := h.highest_le
  have hbaseH : s.rxModBase s.st.rxHighestStatus = H - R :=
    h.rxModBase hRH (by omega) (by rw [h.highestStatus, mod_mod])
  refine ⟨?_, ?_, ?_, ?_, ?_, ?_⟩
  · rw [hbaseH, h.rxModBase_nextHighest]
    omega
  · rw [h.rxModBase_nextHighest]
    omega
  · rw [h.rxNext]
    exact Bool.eq_false_iff.mpr h.next_incomplete
  · rw [h.highestStatus]
    exact Bool.eq_false_iff.mpr h.highest_incomplete
  · intro sn hsn
    obtain ⟨x, h1, h2, rfl⟩ := h.mem sn hsn
    rw [h.rxModBase h1 (by omega) (mod_mod _ _), h.rxModBase_nextHighest]
    omega
  · intro hrun
    obtain ⟨T, h1, h2, h3, h4⟩ := h.trigger hrun
    have hbase : s.rxModBase s.st.rxNextStatusTrigger = T - R := h.rxModBase h1.le (by omega) (by rw [h3, mod_mod])
    have hpred : (s.st.rxNextStatusTrigger + s.mod - 1) % s.mod = (T - 1) % s.mod := by
      rw [h3, show T % s.mod + s.mod - 1 = T % s.mod + (s.mod - 1) by omega, mod_add_mod,
        show T + (s.mod - 1) = T - 1 + s.mod by omega, add_mod_right]
    rw [hbase, h.rxModBase_nextHighest, hpred]
    exact ⟨by omega, by omega, h4⟩

/-- **The state variables of the receiver** are ordered in every reachable state, so no call accesses a missing SN. -/
theorem rxProperty_of_reach {cfg : RxAmConfig} (h : Reachable cfg s) : RxProperty s ∧
    (∀ a sn, s.step a ≠ .error (.nonExistentId sn)) ∧
      ∀ a, s.step a ≠ .error (.assertion "Error: rx_highest_status outside RX window") := by
  obtain ⟨R, H, M, hi⟩ := h.rxInv
  have hstep : ∀ a e, s.step a = .error e → OtherAssertion e := by
    intro a e he
    rcases hi.step a with ⟨e', he', ho⟩ | ⟨s1, R', H', M', hok, -⟩
    · rw [he'] at he
      cases he
      exact ho
    · rw [hok] at he
      cases he
  refine ⟨hi.rxProperty, ?_, ?_⟩
  · intro a sn he
    rcases hstep a _ he with ho | ho | ho <;> cases ho
  · intro a he
    rcases hstep a _ he with ho | ho | ho <;> simp at ho

def exampleConfig : RxAmConfig where
  snFieldLength := .size12bits
  tReassembly := 35
  tStatusProhibit := 0
  maxSnPerStatus := none
  maxSn_valid := by simp

/-- The SDU with SN 1 arrives before the SDU with SN 0, and t-Reassembly runs. -/
theorem rxProperty_gap : ∃ s, Reachable exampleConfig s ∧ s.reassemblyTimerRunning = true ∧ RxProperty s := by
  obtain ⟨s, hr, hv⟩ : ∃ s, Reachable exampleConfig s ∧ s.reassemblyTimerRunning = true :=
    Reach.exists_run [.handlePdu (some 4) [0x80, 0x01, 0xaa]] (by decide +kernel)
  exact ⟨s, hr, hv, (rxProperty_of_reach hr).1⟩

end RxAm

end SrsRan.Rlc
