import SrsRan.Rlc.TxAmStatus

/-!
# The RLC AM transmitter as a system

The calls that drive an RLC AM transmitter.  A status report enters as the bytes of a control PDU.  The window invariant
`TxInv` is kept by every step (`TxInv.of_step`) unless a report *overtakes* the segmentation of an SDU, that is, acknowledges
it before its last segment has been sent.
-/

namespace SrsRan.Rlc

open Support Lib.SeqNum Lib.Run Option Nat

/-- The calls that drive a transmitter; `statusPduLength` if a status report is required. -/
inductive TxAction where
  | handleSdu (now : ℕ) (buf : Bytes) (isRetx : Bool)
  | discardSdu (pdcpSn : ℕ)
  | pullPdu (status : Option StatusPdu) (grantLen : ℕ)
  | handleControlPdu (pdu : Bytes) (statusPduLength : Option ℕ)
  | onExpiredPollRetransmitTimer (statusPduLength : Option ℕ)
  | updateMacBufferState (statusPduLength : Option ℕ) (forceNotify : Bool)

namespace TxAm

def step (s : TxAm) : TxAction → Except Abort TxAm
  | .handleSdu now buf isRetx => .ok (s.handleSdu now buf isRetx)
  | .discardSdu pdcpSn => .ok (s.discardSdu pdcpSn)
  | .pullPdu status grantLen => (s.pullPdu status grantLen).map Prod.fst
  | .handleControlPdu pdu statusPduLength =>
    match StatusPdu.unpack s.cfg.snFieldLength pdu with
    | some status => s.handleStatusPdu status statusPduLength
    | none => .ok s
  | .onExpiredPollRetransmitTimer statusPduLength => s.onExpiredPollRetransmitTimer statusPduLength
  | .updateMacBufferState statusPduLength forceNotify => .ok (s.updateMacBufferState statusPduLength forceNotify)

/-- The upper layer hands over non-empty SDUs only. -/
def NonEmptySdu (_ : TxAm) : TxAction → Prop
  | .handleSdu _ buf _ => buf ≠ []
  | _ => True

/-- The call is a status report that acknowledges the SDU under segmentation. -/
def Overtaken (s : TxAm) : TxAction → Prop
  | .handleControlPdu pdu _ => ∃ status ∈ StatusPdu.unpack s.cfg.snFieldLength pdu, s.overtakes status
  | _ => False

/-- The call is a report that NACKs TX_Next outside the window. -/
def NacksMissing (s : TxAm) : TxAction → Prop
  | .handleControlPdu pdu _ => ∃ status ∈ StatusPdu.unpack s.cfg.snFieldLength pdu,
      (s.statusAccepted status).1 = true ∧ s.snUnderSegmentation = none ∧ s.nacksTxNext status
  | _ => False

variable {s s' : TxAm} {A N : ℕ} {a : TxAction}

/-! ### Steps keep the window invariant -/

lemma TxInv.init (cfg : TxAmConfig) (isSrb : Bool) : TxInv (init cfg isSrb) 0 0 := by
  refine TxInv.of_win ⟨⟨?_, le_rfl, rfl, rfl, ?_⟩, ?_, le_rfl, le_rfl, rfl, ?_⟩ rfl
  · exact (zero_mod _).symm
  · intro k
    change ((CircularMap.empty _ _).get? k).isSome ↔ _
    rw [CircularMap.get?_empty]
    simp
  · exact (zero_mod _).symm
  · intro x hx
    cases hx

lemma TxInv.of_queue {q : SduQueue} {b : Bool} (h : TxInv s A N) (hq : ∀ x ∈ q.queue, x.buf ≠ []) :
    TxInv { s with sduQueue := q, pendingBufferState := b } A N :=
  ⟨⟨{ h with }, h.txNext, h.le, h.le_top, h.log, hq⟩, h.seg, h.progress⟩

lemma TxInv.of_handleSdu {now : ℕ} {buf : Bytes} {isRetx : Bool} (h : TxInv s A N) (hne : buf ≠ []) :
    TxInv (s.handleSdu now buf isRetx) A N := by
  unfold handleSdu
  dsimp only
  split
  next q hq =>
    refine h.of_queue fun x hx => ?_
    have hqueue := SduQueue.queue_write hq
    rw [hqueue] at hx
    rcases List.mem_append.mp hx with hx | hx
    · exact h.queue_ne x hx
    · rw [List.mem_singleton.mp hx]
      exact hne
  · exact h

lemma TxInv.of_discardSdu {pdcpSn : ℕ} (h : TxInv s A N) : TxInv (s.discardSdu pdcpSn) A N := by
  unfold discardSdu
  split
  next q hq =>
    refine h.of_queue fun x hx => ?_
    rw [SduQueue.queue_tryDiscard hq] at hx
    exact h.queue_ne x hx
  · exact h

lemma sameCore_retransmitFirst {info : TxAmSduInfo} (h : s.retransmitFirst info = .ok s') : SameCore s s' := by
  unfold retransmitFirst at h
  split at h
  · exact (sameCore_retxQueue s _).trans (sameCore_incrementRetxCount h)
  · cases h; exact SameCore.refl _

lemma sameCore_onExpiredPollRetransmitTimer {l : Option ℕ}
    (h : s.onExpiredPollRetransmitTimer l = .ok s') : SameCore s s' := by
  have hstop : SameCore s { s with pollRetransmitTimerRunning := false } := .of_frame rfl
  unfold onExpiredPollRetransmitTimer at h
  dsimp only at h
  split at h
  · split at h
    · cases h; exact hstop
    split at h
    · cases h; exact hstop
    · obtain ⟨s1, h1, h2⟩ := bind_eq_ok.mp h
      cases h2
      refine (hstop.trans (sameCore_retransmitFirst h1)).trans ?_
      exact (sameCore_updateMacBufferState s1 l true).trans (.of_frame rfl)
  · cases h
    exact .of_frame rfl

/-- **Every step keeps the window invariant**, unless a report overtakes the segmentation. -/
theorem TxInv.of_step (h : TxInv s A N) (hne : s.NonEmptySdu a) (ho : ¬ s.Overtaken a)
    (hs : s.step a = .ok s') : ∃ A' N', TxInv s' A' N' := by
  cases a with
  | handleSdu now buf isRetx =>
    cases hs
    exact ⟨A, N, h.of_handleSdu hne⟩
  | discardSdu pdcpSn =>
    cases hs
    exact ⟨A, N, h.of_discardSdu⟩
  | pullPdu status grantLen =>
    cases hp : s.pullPdu status grantLen with
    | error e => rw [step, hp] at hs; cases hs
    | ok r =>
      rw [step, hp] at hs
      cases hs
      obtain ⟨N', h'⟩ := h.of_pullPdu hp
      exact ⟨A, N', h'⟩
  | handleControlPdu pdu l =>
    rw [step] at hs
    split at hs
    next status hst =>
      obtain ⟨A', -, h'⟩ := h.of_handleStatusPdu (.of_unpack hst) (fun ho' => ho ⟨status, hst, ho'⟩) hs
      exact ⟨A', N, h'⟩
    · cases hs
      exact ⟨A, N, h⟩
  | onExpiredPollRetransmitTimer l => exact ⟨A, N, h.of_sameCore (sameCore_onExpiredPollRetransmitTimer hs)⟩
  | updateMacBufferState l force =>
    cases hs
    exact ⟨A, N, h.of_sameCore (sameCore_updateMacBufferState s l force)⟩

/-- The states reached without a report that overtakes the segmentation. -/
def ReachInOrder (cfg : TxAmConfig) (isSrb : Bool) (s : TxAm) : Prop :=
  Reach step (fun s a => s.NonEmptySdu a ∧ ¬ s.Overtaken a) (init cfg isSrb) s

lemma ReachInOrder.txInv {cfg : TxAmConfig} {isSrb : Bool} (h : ReachInOrder cfg isSrb s) : ∃ A N, TxInv s A N := by
  refine Reach.invariant (P := fun s => ∃ A N, TxInv s A N) h ⟨0, 0, TxInv.init cfg isSrb⟩ ?_
  rintro s a s' ⟨A, N, hi⟩ ⟨h1, h2⟩ hs
  exact hi.of_step h1 h2 hs

/-! ### The window property -/

/-- The window holds the numbers from TX_Next_Ack to TX_Next, and that of the SDU under segmentation. -/
structure WindowProperty (s : TxAm) : Prop where
  hasSn : ∀ x < s.mod, SduWindow.hasSn s.txWindow x = true ↔ s.txModBase x < s.txModBase s.st.txNext ∨
    (x = s.st.txNext ∧ s.snUnderSegmentation = some s.st.txNext)
  seg : s.snUnderSegmentation = none ∨ s.snUnderSegmentation = some s.st.txNext
  bound : s.txModBase s.st.txNext ≤ s.amWindowSize
  addSn : ∀ a sn, s.step a ≠ .error (.alreadyPresent sn)

variable {grantLen : ℕ} {e : Abort}

lemma buildNewPdu_ne_error (h : TxInv s A N)
    (hs : s.snUnderSegmentation = none) : s.buildNewPdu grantLen ≠ .error e := by
  have hwin := h.win hs
  have hmod := s.mod_eq
  have hpos := s.window_pos
  have htop := hwin.top_le
  unfold buildNewPdu
  split
  · exact nofun
  split
  · exact nofun
  split
  · exact nofun
  next sdu q hread =>
    have hadd : SduWindow.addSn s.txWindow s.st.txNext (TxAmSduInfo.ofSdu sdu) =
        .ok (s.txWindow.overwrite s.st.txNext (TxAmSduInfo.ofSdu sdu)) := by
      rw [SduWindow.addSn, SduWindow.hasSn_eq, hwin.txNext, hwin.get?_eq_none le_rfl (by have := hwin.le; omega)]
      rfl
    dsimp only
    rw [hadd, ok_bind]
    exact nofun

lemma hasSn_dropStaleRetx (w : SduWindow TxAmSduInfo) {fuel : ℕ} {q : RetxQueue} {retx : AmdRetx}
    (hf : q.size ≤ fuel) (h : (dropStaleRetx w fuel q).front = some retx) : SduWindow.hasSn w retx.sn = true := by
  induction fuel generalizing q with
  | zero =>
    have hq : q.queue = [] := List.length_eq_zero_iff.mp (le_zero.mp hf)
    simp [dropStaleRetx, RetxQueue.front, hq] at h
  | succ fuel ih =>
    unfold dropStaleRetx at h
    split at h
    next retx' hfront =>
      split at h
      next hsn =>
        rw [hfront] at h
        cases h
        exact hsn
      · refine ih ?_ h
        have := q.size_pop_lt hfront
        omega
    next hfront =>
      rw [hfront] at h
      cases h

lemma buildRetxPdu_ne_error (h : s.buildRetxPdu grantLen = .error e) : ∃ t, e = .assertion t := by
  unfold buildRetxPdu at h
  dsimp only at h
  split at h
  · cases h
  next retx hfront =>
    have hsn := hasSn_dropStaleRetx s.txWindow le_rfl hfront
    obtain ⟨info, hinfo⟩ := isSome_iff_exists.mp hsn
    rw [SduWindow.access_of_get? hinfo, ok_bind] at h
    unfold buildRetxOf at h
    dsimp only at h
    split at h
    · cases h
    split at h
    · cases h
    unfold emitRetx at h
    dsimp only at h
    split at h
    · cases h
      exact ⟨_, rfl⟩
    · cases h

lemma TxInv.pullPdu_error {status : Option StatusPdu} (h : TxInv s A N)
    (hp : s.pullPdu status grantLen = .error e) : ∃ t, e = .assertion t := by
  unfold pullPdu at hp
  split at hp
  · cases hp
  split at hp
  · cases hp
  split at hp
  · exact buildRetxPdu_ne_error hp
  split at hp
  · cases hp
  rename_i hne
  have hs : s.snUnderSegmentation = none := by
    cases hs : s.snUnderSegmentation with
    | none => rfl
    | some sn =>
      obtain ⟨-, info, hg⟩ := h.get?_seg hs
      exact absurd (by rw [hs, map_some, hg]) (hne sn info)
  dsimp only at hp
  split at hp
  · cases hp
  · have h' : TxInv { s with snUnderSegmentation := none } A N := TxInv.of_win ((h.win hs).setSeg none) rfl
    exact absurd hp (buildNewPdu_ne_error h' rfl)

lemma onExpiredPollRetransmitTimer_ne_error {l : Option ℕ} : s.onExpiredPollRetransmitTimer l ≠ .error e := by
  unfold onExpiredPollRetransmitTimer
  dsimp only
  split
  · split
    · exact nofun
    split
    · exact nofun
    next info hinfo =>
      have hok : ∃ s1, retransmitFirst { s with pollRetransmitTimerRunning := false } info = .ok s1 := by
        unfold retransmitFirst
        split
        · exact incrementRetxCount_ok (isSome_iff_exists.mpr ⟨info, hinfo⟩)
        · exact ⟨_, rfl⟩
      obtain ⟨s1, h1⟩ := hok
      rw [h1, ok_bind]
      exact nofun
  · exact nofun

/-- **How a step can abort**: with an assertion in `build_retx_pdu`, or when a report NACKs TX_Next
while TX_Next is not in the window. -/
theorem TxInv.step_error (h : TxInv s A N) (hs : s.step a = .error e) :
    (∃ t, e = .assertion t) ∨ e = .nonExistentId s.st.txNext ∧ s.NacksMissing a := by
  cases a with
  | handleSdu now buf isRetx => cases hs
  | discardSdu pdcpSn => cases hs
  | pullPdu status grantLen =>
    cases hp : s.pullPdu status grantLen with
    | error e' =>
      rw [step, hp] at hs
      cases hs
      exact .inl (h.pullPdu_error hp)
    | ok r => rw [step, hp] at hs; cases hs
  | handleControlPdu pdu l =>
    rw [step] at hs
    split at hs
    next status hst =>
      obtain ⟨h1, h2⟩ := (h.handleStatusPdu_error (.of_unpack hst) l e).mp hs
      exact .inr ⟨h1, status, hst, h2⟩
    · cases hs
  | onExpiredPollRetransmitTimer l => exact absurd hs onExpiredPollRetransmitTimer_ne_error
  | updateMacBufferState l force => cases hs

lemma top_cases (s : TxAm) (N : ℕ) : s.top N = N ∨ s.top N = N + 1 := by
  rw [TxAm.top]
  split
  · exact .inr rfl
  · exact .inl rfl

lemma TxInv.windowProperty (h : TxInv s A N) : WindowProperty s := by
  have htop' := s.top_cases N
  have hmod := s.mod_eq
  have hpos := s.window_pos
  have htop := h.top_le
  have hle := h.le_top
  refine ⟨?_, ?_, ?_, ?_⟩
  · intro x hx
    obtain ⟨a, h1, h2, h3, h4⟩ := h.unwrap x
    rw [mod_eq_of_lt hx] at h3
    rw [SduWindow.hasSn_eq, h4, h.txModBase_txNext, h.txNext]
    have hseg : (x = N % s.mod ∧ s.snUnderSegmentation = some (N % s.mod)) ↔ a = N ∧ s.top N = N + 1 := by
      have hx' : x = N % s.mod ↔ a = N := by
        rw [h3]
        refine ⟨fun he => eq_of_mod_eq he h1 h2 h.le (by omega), fun he => by rw [he]⟩
      have hs' : s.snUnderSegmentation = some (N % s.mod) ↔ s.top N = N + 1 := by
        rw [TxAm.top]
        rcases h.seg with h0 | h0
        · simp [h0]
        · simp [h0]
      rw [hx', hs']
    rw [hseg, h3]
    constructor
    · intro hs
      by_contra hne
      rw [h.get?_eq_none (by omega) h2] at hs
      cases hs
    · intro hs
      exact h.isSome_of h1 (by omega)
  · rw [h.txNext]
    exact h.seg
  · rw [h.txModBase_txNext]
    omega
  · intro a sn he
    rcases h.step_error he with ⟨t, ht⟩ | ⟨ht, -⟩
    · cases ht
    · cases ht

lemma TxInv.not_windowProperty (h : TxInv s A N) (ho : s.Overtaken a) (hs : s.step a = .ok s') :
    ¬ WindowProperty s' := by
  cases a with
  | handleControlPdu pdu l =>
    obtain ⟨status, hst, ho⟩ := ho
    have hst' : StatusPdu.unpack s.cfg.snFieldLength pdu = some status := hst
    rw [step, hst'] at hs
    have hack := h.of_overtakes (.of_unpack hst') ho hs
    intro hp
    have hb := hp.bound
    have hmod := s'.mod_eq
    have hwin : 2 ^ 11 ≤ s'.amWindowSize := AmSnSize.window_ge _
    rw [hack.txModBase (a := N + s'.mod) (by omega) (by omega)
      (by rw [hack.txNext, h.txNext, hack.mod, mod_mod, add_mod_right])] at hb
    omega
  | _ => exact absurd ho id

/-! ### Every reachable state -/

def exampleConfig : TxAmConfig where
  snFieldLength := .size12bits
  pdcpSnLen := .size12bits
  tPollRetx := 45
  queueSize := 16
  queueSizeBytes := 1000
  maxRetxThresh := 4
  pollPdu := 4
  pollByte := 1000
  maxWindow := 0

def firstSegmentRun : List TxAction := [.handleSdu 0 [1, 2, 3, 4, 5] false, .pullPdu none 5]

/-- The executable form of the conditions on a run without status reports. -/
def noReport (_ : TxAm) : TxAction → Bool
  | .handleSdu _ buf _ => !buf.isEmpty
  | .handleControlPdu _ _ => false
  | _ => true

lemma noReport_inOrder (s : TxAm) (a : TxAction) (h : s.noReport a = true) : s.NonEmptySdu a ∧ ¬ s.Overtaken a := by
  cases a with
  | handleSdu now buf isRetx =>
    refine ⟨?_, id⟩
    rintro rfl
    cases h
  | handleControlPdu pdu l => cases h
  | _ => exact ⟨trivial, id⟩

def nonEmptySdu (_ : TxAm) : TxAction → Bool
  | .handleSdu _ buf _ => !buf.isEmpty
  | _ => true

lemma nonEmptySdu_of (s : TxAm) (a : TxAction) (h : s.nonEmptySdu a = true) : s.NonEmptySdu a := by
  cases a with
  | handleSdu now buf isRetx =>
    rintro rfl
    cases h
  | _ => trivial

/-- **The window property** holds in every state reached without a report that overtakes the
segmentation, and the first such report breaks it. -/
theorem windowProperty_of_reach {cfg : TxAmConfig} {isSrb : Bool} (h : ReachInOrder cfg isSrb s) :
    WindowProperty s ∧ ∀ a s', s.NonEmptySdu a → s.step a = .ok s' →
      (WindowProperty s' ↔ ¬ s.Overtaken a) := by
  obtain ⟨A, N, hi⟩ := h.txInv
  refine ⟨hi.windowProperty, ?_⟩
  intro a s' hne hs
  constructor
  · intro hp ho
    exact hi.not_windowProperty ho hs hp
  · intro ho
    obtain ⟨A', N', hi'⟩ := hi.of_step hne ho hs
    exact hi'.windowProperty

lemma reach_firstSegment : ∃ s, ReachInOrder exampleConfig false s ∧
    s.snUnderSegmentation = some 0 ∧ SduWindow.hasSn s.txWindow 0 = true := by
  have hrun : (run step noReport (init exampleConfig false) firstSegmentRun).any
      (fun s => s.snUnderSegmentation = some 0 ∧ SduWindow.hasSn s.txWindow 0 = true) = true := by
    decide +kernel
  obtain ⟨s, hs, hv⟩ := Reach.exists_of_run noReport_inOrder hrun
  exact ⟨s, hs, of_decide_eq_true hv⟩

/-- While the first segment of an SDU is sent. -/
theorem windowProperty_firstSegment : ∃ s, ReachInOrder exampleConfig false s ∧
    s.snUnderSegmentation = some 0 ∧ SduWindow.hasSn s.txWindow 0 = true ∧ WindowProperty s := by
  obtain ⟨s, hr, hseg, hsn⟩ := reach_firstSegment
  exact ⟨s, hr, hseg, hsn, (windowProperty_of_reach hr).1⟩

/-- A report without NACKs and `ack_sn = 1` arrives while SN 0 is under segmentation. -/
theorem windowProperty_fails_overtaken :
    ∃ s, Reach step NonEmptySdu (init exampleConfig false) s ∧ ¬ WindowProperty s := by
  have hrun : (run step nonEmptySdu (init exampleConfig false)
      (firstSegmentRun ++ [.handleControlPdu [0x00, 0x01, 0x00] none])).any
        (fun s => s.txModBase s.st.txNext = 4095 ∧ s.amWindowSize = 2048) = true := by
    decide +kernel
  obtain ⟨s, hs, hv⟩ := Reach.exists_of_run nonEmptySdu_of hrun
  obtain ⟨hbase, hsize⟩ := of_decide_eq_true hv
  refine ⟨s, hs, fun hp => ?_⟩
  have hb := hp.bound
  rw [hbase, hsize] at hb
  omega

/-- **Accesses to missing SNs.** A call aborts iff it is a report that NACKs TX_Next while it is not in the window. -/
theorem access_error_iff_of_reach {cfg : TxAmConfig} {isSrb : Bool} (h : ReachInOrder cfg isSrb s)
    (a : TxAction) (sn : ℕ) : s.step a = .error (.nonExistentId sn) ↔ sn = s.st.txNext ∧ s.NacksMissing a := by
  obtain ⟨A, N, hi⟩ := h.txInv
  constructor
  · intro hs
    rcases hi.step_error hs with ⟨t, ht⟩ | ⟨ht, hn⟩
    · cases ht
    · cases ht
      exact ⟨rfl, hn⟩
  · rintro ⟨rfl, hn⟩
    cases a with
    | handleControlPdu pdu l =>
      obtain ⟨status, hst, hn⟩ := hn
      have hst' : StatusPdu.unpack s.cfg.snFieldLength pdu = some status := hst
      rw [step, hst']
      exact (hi.handleStatusPdu_error (.of_unpack hst') l _).mpr ⟨rfl, hn⟩
    | _ => exact absurd hn id

/-- A report that NACKs SN 0 while it is under segmentation. -/
theorem access_error_firstSegment : ∃ s, ReachInOrder exampleConfig false s ∧
    ∀ sn, s.step (.handleControlPdu [0x00, 0x01, 0x80, 0x00, 0x00] none) ≠ .error (.nonExistentId sn) := by
  obtain ⟨s, hr, hv, -⟩ := reach_firstSegment
  refine ⟨s, hr, fun sn hsn => ?_⟩
  obtain ⟨-, status, -, -, hseg, -⟩ := (access_error_iff_of_reach hr _ sn).mp hsn
  rw [hv] at hseg
  cases hseg

/-- A report with `ack_sn = 1` and `nack_sn = 0` arrives before any SDU was sent. -/
theorem access_error_initial : ∃ s, Reach step NonEmptySdu (init exampleConfig false) s ∧
    s.step (.handleControlPdu [0x00, 0x01, 0x80, 0x00, 0x00] none) = .error (.nonExistentId 0) :=
  ⟨_, .init, rfl⟩

end TxAm

end SrsRan.Rlc
