import SrsRan.Rlc.AmStatusCodec
import SrsRan.Rlc.TxAm

/-!
# The window invariant of the RLC AM transmitter

`TxInv s A N` describes a state by two unwrapped counters: TX_Next_Ack stands for `A` and TX_Next for `N`, and the window
holds the SDUs from `A` up to `top`, which is `N`, or `N + 1` while SDU `N` is under segmentation.
-/

namespace SrsRan.Rlc

open Support Lib.SeqNum Lib.Run Option Nat
open TxAmSduInfo (ofSdu)

def TxAmSduInfo.view (i : TxAmSduInfo) : Bytes × ℕ := (i.sdu, i.nextSo)

open TxAmSduInfo (view)

namespace TxAm

/-- `s'` agrees with `s` in all that the window invariant talks about. -/
structure SameCore (s s' : TxAm) : Prop where
  cfg : s'.cfg = s.cfg
  txNextAck : s'.st.txNextAck = s.st.txNextAck
  txNext : s'.st.txNext = s.st.txNext
  seg : s'.snUnderSegmentation = s.snUnderSegmentation
  capacity : s'.txWindow.capacity = s.txWindow.capacity
  count : s'.txWindow.count = s.txWindow.count
  entries : ∀ k, (s'.txWindow.get? k).map TxAmSduInfo.view = (s.txWindow.get? k).map TxAmSduInfo.view
  sduLog : s'.sduLog = s.sduLog
  queue : ∀ x ∈ s'.sduQueue.queue, x ∈ s.sduQueue.queue

lemma SameCore.of_frame {s s' : TxAm} (h : (s'.cfg, s'.st.txNextAck, s'.st.txNext, s'.snUnderSegmentation,
    s'.txWindow, s'.sduLog, s'.sduQueue) = (s.cfg, s.st.txNextAck, s.st.txNext, s.snUnderSegmentation,
    s.txWindow, s.sduLog, s.sduQueue)) : SameCore s s' := by
  simp only [Prod.mk.injEq] at h
  obtain ⟨hcfg, hack, hnext, hseg, hwindow, hlog, hqueue⟩ := h
  refine ⟨hcfg, hack, hnext, hseg, ?_, ?_, fun k => ?_, hlog, fun x hx => ?_⟩
  · rw [hwindow]
  · rw [hwindow]
  · rw [hwindow]
  · rwa [hqueue] at hx

variable (s : TxAm)

lemma SameCore.refl : SameCore s s := .of_frame rfl

open SameCore (refl)

lemma SameCore.trans {s₁ s2 s3 : TxAm} (h : SameCore s₁ s2) (h' : SameCore s2 s3) : SameCore s₁ s3 :=
  ⟨h'.cfg.trans h.cfg, h'.txNextAck.trans h.txNextAck, h'.txNext.trans h.txNext, h'.seg.trans h.seg,
    h'.capacity.trans h.capacity, h'.count.trans h.count, fun k => (h'.entries k).trans (h.entries k),
    h'.sduLog.trans h.sduLog, fun x hx => h.queue x (h'.queue x hx)⟩

lemma SameCore.mod {s s' : TxAm} (h : SameCore s s') : s'.mod = s.mod := by rw [TxAm.mod, h.cfg, TxAm.mod]

lemma SameCore.headMinSize {s s' : TxAm} (h : SameCore s s') : s'.headMinSize = s.headMinSize := by
  rw [TxAm.headMinSize, h.cfg, TxAm.headMinSize]

lemma SameCore.isSome {s s' : TxAm} (h : SameCore s s') (k : ℕ) :
    (s'.txWindow.get? k).isSome = (s.txWindow.get? k).isSome := by
  rw [← isSome_map, h.entries k, isSome_map]

lemma SameCore.get? {s s' : TxAm} (h : SameCore s s') {k : ℕ} {i' : TxAmSduInfo}
    (hg : s'.txWindow.get? k = some i') : ∃ i, s.txWindow.get? k = some i ∧ i.sdu = i'.sdu ∧ i.nextSo = i'.nextSo := by
  have he := h.entries k
  rw [hg, map_some] at he
  obtain ⟨i, hi, hv⟩ := map_eq_some_iff.mp he.symm
  simp only [view, Prod.mk.injEq] at hv
  exact ⟨i, hi, hv.1, hv.2⟩

/-! ### Functions that keep the core -/

lemma sameCore_notify (n : TxNotification) : SameCore s (s.notify n) := .of_frame rfl

lemma sameCore_notifyTransfer (sdu : Sdu) : SameCore s (s.notifyTransfer sdu) := by
  unfold notifyTransfer
  split
  · split
    · exact sameCore_notify _ _
    · exact sameCore_notify _ _
  · exact refl s

lemma sameCore_notifyFailures (n : ℕ) : SameCore s (s.notifyFailures n) := .of_frame rfl

lemma sameCore_notifyDelivered (d d' : Option ℕ) : SameCore s (s.notifyDelivered d d') := by
  unfold notifyDelivered
  cases d <;> cases d'
  · exact refl s
  · exact sameCore_notify _ _
  · exact sameCore_notify _ _
  · exact (sameCore_notify _ _).trans (sameCore_notify _ _)

lemma sameCore_getPollingBit (sn : ℕ) (isRetx : Bool) (n : ℕ) : SameCore s (s.getPollingBit sn isRetx n).1 := by
  have key : ∀ (t : TxAm) (poll b c : Bool) (st : TxAmState), st.txNextAck = t.st.txNextAck →
      st.txNext = t.st.txNext → SameCore t { t with
        st := if poll then st else t.st, isPollRetransmitTimerExpired := b, pollRetransmitTimerRunning := c } := by
    intro t poll b c st h1 h2
    cases poll
    · exact .of_frame rfl
    · exact ⟨rfl, h1, h2, rfl, rfl, rfl, fun _ => rfl, rfl, fun _ h => h⟩
  cases isRetx
  · have hcount : SameCore s (s.countPdu n) := .of_frame rfl
    exact hcount.trans (key _ _ _ _ _ rfl rfl)
  · exact key _ _ _ _ _ rfl rfl

lemma sameCore_retxQueue (q : RetxQueue) : SameCore s { s with retxQueue := q } := .of_frame rfl

lemma sameCore_modify_retxCount (sn : ℕ) (f : Option ℕ → Option ℕ) :
    SameCore s { s with txWindow := s.txWindow.modify sn fun i => { i with retxCount := f i.retxCount } } := by
  refine ⟨rfl, rfl, rfl, rfl, rfl, rfl, ?_, rfl, fun _ h => h⟩
  intro k
  rw [CircularMap.get?_modify]
  split
  next hk =>
    subst hk
    cases s.txWindow.get? k <;> rfl
  · rfl

lemma sameCore_cleanQueues : SameCore s s.cleanQueues := by
  refine ⟨rfl, rfl, rfl, rfl, rfl, rfl, fun _ => rfl, rfl, ?_⟩
  intro x hx
  simp only [cleanQueues] at hx
  split at hx
  · exact (SduQueue.frontFrom_suffix _ _).subset hx
  · exact hx

lemma sameCore_updateMacBufferState (l : Option ℕ) (force : Bool) : SameCore s (s.updateMacBufferState l force) := by
  have hflag : SameCore s { s with pendingBufferState := false } := .of_frame rfl
  have h : SameCore s ({ s with pendingBufferState := false }.getBufferState l).2 :=
    hflag.trans ((sameCore_cleanQueues _).trans (.of_frame rfl))
  unfold updateMacBufferState
  dsimp only
  split
  · exact h.trans (.of_frame rfl)
  · exact h.trans (.of_frame rfl)

variable {sn grantLen gr : ℕ} {r : TxAm × Bytes} {info : TxAmSduInfo}

lemma sameCore_decrementRetxCount {s s' : TxAm} (h : s.decrementRetxCount sn = .ok s') : SameCore s s' := by
  obtain ⟨_, -, h⟩ := bind_eq_ok.mp h
  cases h
  exact sameCore_modify_retxCount s sn decCount

lemma sameCore_incrementRetxCount {s s' : TxAm} (h : s.incrementRetxCount sn = .ok s') : SameCore s s' := by
  obtain ⟨_, -, h⟩ := bind_eq_ok.mp h
  obtain ⟨_, -, h⟩ := bind_eq_ok.mp h
  simp only [Except.ok.injEq] at h
  refine (sameCore_modify_retxCount s sn incCount).trans ?_
  rw [← h]
  split
  · exact sameCore_notify _ _
  · exact refl _

lemma sameCore_rewindRetxCount {s s' : TxAm} (h : s.rewindRetxCount sn = .ok s') : SameCore s s' := by
  unfold rewindRetxCount at h
  split at h
  · cases h; exact refl _
  split at h
  · cases hd : s.decrementRetxCount sn with
    | error e => simp [hd, Except.map] at h
    | ok s₁ =>
      rw [hd] at h
      cases h
      exact (sameCore_decrementRetxCount hd).trans (.of_frame rfl)
  · cases h
    exact .of_frame rfl

lemma sameCore_clearRetxQueue {fuel : ℕ} {s s' : TxAm} (h : clearRetxQueue fuel s = .ok s') : SameCore s s' := by
  induction fuel generalizing s with
  | zero => cases h; exact refl _
  | succ fuel ih =>
    simp only [clearRetxQueue] at h
    split at h
    · cases h; exact refl _
    · obtain ⟨s₁, h1, h2⟩ := bind_eq_ok.mp h
      exact ((sameCore_rewindRetxCount h1).trans (sameCore_retxQueue s₁ _)).trans (ih h2)

lemma sameCore_handleNack {s : TxAm} {nack : StatusNack} {r : TxAm × Bool}
    (h : s.handleNack nack = .ok r) : SameCore s r.1 := by
  unfold handleNack at h
  split at h
  · cases h; exact refl _
  split at h
  · cases h; exact refl _
  obtain ⟨info, -, h⟩ := bind_eq_ok.mp h
  split at h
  · cases h; exact refl _
  · dsimp only at h
    split at h
    · cases h
      exact (sameCore_notifyFailures s _).trans (sameCore_retxQueue _ _)
    · cases h
      exact sameCore_notifyFailures s _

lemma sameCore_nackLoop {l : List StatusNack} {s s' : TxAm} {prev : Option ℕ}
    (h : nackLoop l s prev = .ok s') : SameCore s s' := by
  induction l generalizing s prev with
  | nil => cases h; exact refl _
  | cons nack rest ih =>
    obtain ⟨r, h1, h⟩ := bind_eq_ok.mp h
    split at h
    · obtain ⟨s2, h2, h⟩ := bind_eq_ok.mp h
      exact ((sameCore_handleNack h1).trans (sameCore_incrementRetxCount h2)).trans (ih h)
    · exact (sameCore_handleNack h1).trans (ih h)

lemma sameCore_emitRetx {s : TxAm} {payloadLen : ℕ} {retx : AmdRetx}
    (h : s.emitRetx gr retx info payloadLen = .ok r) : SameCore s r.1 := by
  unfold emitRetx at h
  dsimp only at h
  split at h
  · cases h
  · cases h
    exact sameCore_getPollingBit s retx.sn true 0

lemma sameCore_buildRetxPdu {s : TxAm} (h : s.buildRetxPdu gr = .ok r) : SameCore s r.1 := by
  unfold buildRetxPdu at h
  dsimp only at h
  split at h
  · cases h; exact sameCore_retxQueue s _
  next retx _ =>
    obtain ⟨info, -, h⟩ := bind_eq_ok.mp h
    refine (sameCore_retxQueue s (dropStaleRetx s.txWindow s.retxQueue.size s.retxQueue)).trans ?_
    unfold buildRetxOf at h
    dsimp only at h
    split at h
    · cases h; exact .of_frame rfl
    split at h
    · cases h; exact .of_frame rfl
    · refine SameCore.trans ?_ (sameCore_emitRetx h)
      exact .of_frame rfl

/-! ### The invariant -/

/-- TX_Next_Ack stands for `A`, and the window holds the SDUs up to `top`. -/
structure TxRange (s : TxAm) (A top : ℕ) : Prop where
  txNextAck : s.st.txNextAck = A % s.mod
  start_le : A ≤ top
  capacity : s.txWindow.capacity = s.amWindowSize
  count : s.txWindow.count = top - A
  mem : ∀ k, (s.txWindow.get? k).isSome ↔ ∃ a, A ≤ a ∧ a < top ∧ a % s.mod = k

/-- The counters are `A` and `N`, and `top` SDUs have been read. -/
structure TxWin (s : TxAm) (A N top : ℕ) : Prop extends TxRange s A top where
  txNext : s.st.txNext = N % s.mod
  le : A ≤ N
  le_top : N ≤ top
  log : s.sduLog.length = top
  queue_ne : ∀ x ∈ s.sduQueue.queue, x.buf ≠ []

/-- One past the last SDU in the window, which may be under segmentation. -/
def top (N : ℕ) : ℕ := if s.snUnderSegmentation.isSome then N + 1 else N

/-- **The invariant of the transmitter**, with counters for TX_Next_Ack and TX_Next. -/
structure TxInv (s : TxAm) (A N : ℕ) : Prop extends TxWin s A N (s.top N) where
  seg : s.snUnderSegmentation = none ∨ s.snUnderSegmentation = some (N % s.mod)
  /-- an SDU under segmentation has been sent in part -/
  progress : ∀ info, s.snUnderSegmentation.isSome → s.txWindow.get? (N % s.mod) = some info →
    0 < info.nextSo ∧ info.nextSo < info.sdu.length

lemma mod_pos : 0 < s.mod := AmSnSize.mod_pos _

lemma mod_eq : s.mod = 2 * s.amWindowSize := AmSnSize.mod_eq _

lemma window_pos : 0 < s.amWindowSize := AmSnSize.window_pos _

lemma window_ge : 2048 ≤ s.amWindowSize := AmSnSize.window_ge _

section Win

variable {s s' : TxAm} {A N T : ℕ}

lemma TxRange.top_le (h : TxRange s A T) : T ≤ A + s.amWindowSize := by
  have h1 := s.txWindow.count_le_capacity
  rw [h.count, h.capacity] at h1
  omega

variable {a : ℕ}

lemma TxRange.txModBase (h : TxRange s A T) {x : ℕ} (h1 : A ≤ a) (h2 : a < A + s.mod)
    (hx : x % s.mod = a % s.mod) : s.txModBase x = a - A := by
  rw [TxAm.txModBase, h.txNextAck]
  refine modSub_eq_of_add_mod (m := s.mod) (Nat.two_pow_pos 32) (AmSnSize.mod_dvd _) (by omega) ?_
  rw [add_mod, mod_mod, ← add_mod, hx, Nat.sub_add_cancel h1]

lemma TxRange.unwrap (h : TxRange s A T) (x : ℕ) :
    ∃ a, A ≤ a ∧ a < A + s.mod ∧ x % s.mod = a % s.mod ∧ s.txModBase x = a - A := by
  obtain ⟨a, h1, h2, h3⟩ := exists_unwrap s.mod_pos A (mod_lt x s.mod_pos)
  exact ⟨a, h1, h2, h3.symm, h.txModBase h1 h2 h3.symm⟩

lemma TxWin.txModBase_txNext (h : TxWin s A N T) : s.txModBase s.st.txNext = N - A := by
  have h1 := h.top_le
  have h2 := h.le_top
  have h3 := s.mod_eq
  have h4 := s.window_pos
  exact h.txModBase h.le (by omega) (by rw [h.txNext, mod_mod])

lemma TxRange.txModBase_txNextAck (h : TxRange s A T) : s.txModBase s.st.txNextAck = 0 := by
  have := s.mod_pos
  rw [h.txModBase le_rfl (by omega) (by rw [h.txNextAck, mod_mod]), Nat.sub_self]

lemma TxRange.isSome_of (h : TxRange s A T) (h1 : A ≤ a) (h2 : a < T) : (s.txWindow.get? (a % s.mod)).isSome :=
  (h.mem _).mpr ⟨a, h1, h2, rfl⟩

lemma TxRange.get?_eq_none (h : TxRange s A T) (h1 : T ≤ a) (h2 : a < A + s.mod) :
    s.txWindow.get? (a % s.mod) = none := by
  rw [← not_isSome_iff_eq_none]
  intro hs
  obtain ⟨b, hb1, hb2, hb3⟩ := (h.mem _).mp hs
  have hA : A ≤ a := h.start_le.trans h1
  have := eq_of_mod_eq hb3 hb1 (by omega) hA h2
  omega

lemma TxWin.of_sameCore (h : TxWin s A N T) (hc : SameCore s s') : TxWin s' A N T where
  txNextAck := by rw [hc.txNextAck, hc.mod, h.txNextAck]
  start_le := h.start_le
  txNext := by rw [hc.txNext, hc.mod, h.txNext]
  le := h.le
  le_top := h.le_top
  capacity := by rw [hc.capacity, h.capacity, amWindowSize, amWindowSize, hc.cfg]
  count := by rw [hc.count, h.count]
  mem := by intro k; rw [hc.isSome, hc.mod, h.mem]
  log := by rw [hc.sduLog, h.log]
  queue_ne := fun x hx => h.queue_ne x (hc.queue x hx)

lemma SameCore.top_eq (hc : SameCore s s') (N : ℕ) : s'.top N = s.top N := by
  rw [top, hc.seg, top]

lemma TxInv.of_sameCore (h : TxInv s A N) (hc : SameCore s s') : TxInv s' A N where
  toTxWin := by rw [hc.top_eq]; exact h.toTxWin.of_sameCore hc
  seg := by rw [hc.seg, hc.mod]; exact h.seg
  progress := by
    intro info hs hg
    rw [hc.mod] at hg
    rw [hc.seg] at hs
    obtain ⟨i, hi, h1, h2⟩ := hc.get? hg
    rw [← h1, ← h2]
    exact h.progress i hs hi

lemma TxInv.get?_seg (h : TxInv s A N) {sn : ℕ} (hs : s.snUnderSegmentation = some sn) :
    sn = N % s.mod ∧ ∃ info, s.txWindow.get? sn = some info := by
  rcases h.seg with h0 | h0
  · rw [h0] at hs; cases hs
  · have hsn : sn = N % s.mod := by rw [h0] at hs; cases hs; rfl
    refine ⟨hsn, isSome_iff_exists.mp ?_⟩
    rw [hsn]
    exact h.toTxWin.isSome_of h.le (by simp [top, h0])

end Win

/-! ### Building PDUs moves TX_Next -/

lemma copySegments_eq {sdu : Bytes} {hdr : AmPduHeader} {len : ℕ}
    (h1 : hdr.so + len ≤ sdu.length) (h2 : (amWriteDataPduHeader hdr).length + len ≤ gr) :
    copySegments sdu hdr len gr = slice sdu hdr.so len := by
  have hl := length_slice h1
  rw [copySegments, List.take_of_length_le (by omega)]

lemma length_write_le (h : AmPduHeader) : (amWriteDataPduHeader h).length ≤ amPduHeaderMaxSize h.snSize := by
  cases hs : h.snSize <;> by_cases hso : h.so = 0 <;>
    simp [amWriteDataPduHeader, hs, hso, amPduHeaderMaxSize, amPduHeaderMinSize, amPduHeaderSoSize]

lemma length_write_so_zero {h : AmPduHeader} (hso : h.so = 0) :
    (amWriteDataPduHeader h).length = amPduHeaderMinSize h.snSize := by
  cases hs : h.snSize <;> simp [amWriteDataPduHeader, hs, hso, amPduHeaderMinSize]

lemma dataHeader_so (s : TxAm) (p : Bool) (si : SiField) (sn so : ℕ) : (s.dataHeader p si sn so).so = so % 2 ^ 16 := rfl

lemma buildFirstSduSegment_spec (s : TxAm) (info : TxAmSduInfo)
    (hso : info.nextSo = 0) (h1 : gr < info.sdu.length + s.headMinSize)
    (h2 : s.headMinSize < gr) :
    ∃ s₁ p, SameCore { s with snUnderSegmentation := some s.st.txNext } s₁ ∧
      s.buildFirstSduSegment gr info = (s₁.advanceNextSo s.st.txNext (gr - s.headMinSize),
          amWriteDataPduHeader (s.dataHeader p .firstSegment s.st.txNext 0) ++
            slice info.sdu 0 (gr - s.headMinSize)) := by
  unfold buildFirstSduSegment
  rw [if_neg (by omega), if_neg (by omega)]
  dsimp only
  set s' : TxAm := { s with snUnderSegmentation := some s.st.txNext }
  set r := s'.getPollingBit s.st.txNext false (gr - s.headMinSize)
  have hhdr : s'.dataHeader r.2 .firstSegment s.st.txNext info.nextSo =
      s.dataHeader r.2 .firstSegment s.st.txNext 0 := by rw [hso]; rfl
  rw [hhdr]
  have hlen : (amWriteDataPduHeader (s.dataHeader r.2 .firstSegment s.st.txNext 0)).length =
      s.headMinSize := length_write_so_zero rfl
  have hcopy : copySegments info.sdu (s.dataHeader r.2 .firstSegment s.st.txNext 0)
      (gr - s.headMinSize) gr = slice info.sdu 0 (gr - s.headMinSize) :=
    copySegments_eq (by rw [dataHeader_so]; omega) (by omega)
  have hl : (slice info.sdu 0 (gr - s.headMinSize)).length = gr - s.headMinSize := length_slice (by omega)
  rw [hcopy, hl, if_neg (by omega)]
  exact ⟨r.1, r.2, sameCore_getPollingBit _ _ _ _, rfl⟩

lemma buildContinuedSduSegment_small {s : TxAm} {segSn : ℕ}
    (h0 : 0 < info.nextSo) (h1 : info.nextSo < info.sdu.length) (h2 : gr ≤ s.headMaxSize) :
    s.buildContinuedSduSegment gr segSn info = (s, []) := by
  unfold buildContinuedSduSegment
  rw [if_neg (by omega), if_neg (by omega), if_pos h2]

lemma copySegments_nextSo (s : TxAm) (info : TxAmSduInfo) (p : Bool) (si : SiField) {n : ℕ}
    (hn : info.nextSo + n ≤ info.sdu.length) (hfit : n + s.headMaxSize ≤ gr) :
    copySegments info.sdu (s.dataHeader p si s.st.txNext info.nextSo) n gr =
        slice info.sdu (info.nextSo % 2 ^ 16) n ∧ (slice info.sdu (info.nextSo % 2 ^ 16) n).length = n := by
  have hle := length_write_le (s.dataHeader p si s.st.txNext info.nextSo)
  have hmax : amPduHeaderMaxSize (s.dataHeader p si s.st.txNext info.nextSo).snSize = s.headMaxSize := rfl
  have hmod := mod_le info.nextSo (2 ^ 16)
  exact ⟨copySegments_eq (by rw [dataHeader_so]; omega) (by omega), length_slice (by omega)⟩

lemma buildContinuedSduSegment_middle {s : TxAm} (segSn : ℕ)
    (h0 : 0 < info.nextSo) (h1 : info.nextSo < info.sdu.length) (h2 : s.headMaxSize < gr)
    (h3 : gr < info.sdu.length - info.nextSo + s.headMaxSize) :
    ∃ s₁ p, SameCore s s₁ ∧
      s.buildContinuedSduSegment gr segSn info = (s₁.advanceNextSo segSn (gr - s.headMaxSize),
          amWriteDataPduHeader (s.dataHeader p .middleSegment s.st.txNext info.nextSo) ++
            slice info.sdu (info.nextSo % 2 ^ 16) (gr - s.headMaxSize)) := by
  have hlast : ¬(info.sdu.length - info.nextSo + s.headMaxSize ≤ gr) := by omega
  unfold buildContinuedSduSegment
  rw [if_neg (by omega), if_neg (by omega), if_neg (by omega)]
  simp only [hlast, if_false]
  set r := s.getPollingBit s.st.txNext false (gr - s.headMaxSize)
  obtain ⟨hcopy, hl⟩ := s.copySegments_nextSo info r.2 .middleSegment
    (show info.nextSo + (gr - s.headMaxSize) ≤ info.sdu.length by omega) (show _ ≤ gr by omega)
  rw [hcopy, hl, if_neg (by omega)]
  exact ⟨r.1, r.2, sameCore_getPollingBit _ _ _ _, rfl⟩

lemma buildContinuedSduSegment_last {s : TxAm} (segSn : ℕ)
    (h0 : 0 < info.nextSo) (h1 : info.nextSo < info.sdu.length) (h2 : s.headMaxSize < gr)
    (h3 : info.sdu.length - info.nextSo + s.headMaxSize ≤ gr) :
    ∃ s₁ p, SameCore { s with snUnderSegmentation := none } s₁ ∧
      s.buildContinuedSduSegment gr segSn info =
        ((s₁.advanceNextSo segSn (info.sdu.length - info.nextSo)).advanceTxNext,
          amWriteDataPduHeader (s.dataHeader p .lastSegment s.st.txNext info.nextSo) ++
            slice info.sdu (info.nextSo % 2 ^ 16) (info.sdu.length - info.nextSo)) := by
  unfold buildContinuedSduSegment
  rw [if_neg (by omega), if_neg (by omega), if_neg (by omega)]
  simp only [h3, if_true]
  set s' : TxAm := { s with snUnderSegmentation := none }
  set r := s'.getPollingBit s.st.txNext false (info.sdu.length - info.nextSo)
  obtain ⟨hcopy, hl⟩ := s.copySegments_nextSo info r.2 .lastSegment
    (by omega) h3
  have hhdr : s'.dataHeader r.2 .lastSegment s.st.txNext info.nextSo =
      s.dataHeader r.2 .lastSegment s.st.txNext info.nextSo := rfl
  rw [hhdr, hcopy, hl, if_neg (by omega)]
  exact ⟨r.1, r.2, sameCore_getPollingBit _ _ _ _, rfl⟩

lemma buildFullSduPdu_spec (s : TxAm) (info : TxAmSduInfo) (h0 : info.sdu ≠ [])
    (h1 : info.sdu.length + s.headMinSize ≤ gr) :
    ∃ s₁ p, SameCore s s₁ ∧
      s.buildFullSduPdu gr info = (s₁.advanceTxNext,
          amWriteDataPduHeader (s.dataHeader p .fullSdu s.st.txNext 0) ++ info.sdu) := by
  unfold buildFullSduPdu
  dsimp only
  set r := s.getPollingBit s.st.txNext false 0
  have hlen : (amWriteDataPduHeader (s.dataHeader r.2 .fullSdu s.st.txNext 0)).length =
      s.headMinSize := length_write_so_zero rfl
  have hcopy : copySegments info.sdu (s.dataHeader r.2 .fullSdu s.st.txNext 0) info.sdu.length
      gr = info.sdu := by
    rw [copySegments_eq (by rw [dataHeader_so]; omega) (by omega)]
    exact slice_zero_length info.sdu
  rw [hcopy, if_neg (by simpa using h0)]
  exact ⟨r.1, r.2, sameCore_getPollingBit _ _ _ _, rfl⟩

lemma buildNewPdu_cases {s : TxAm} (h : s.buildNewPdu gr = .ok r) : (SameCore s r.1 ∧ r.2 = []) ∨
      ∃ sdu q w s₁, s.sduQueue.read = (some sdu, q) ∧ s.isTxWindowFull = false ∧
        s.headMinSize < gr ∧
        SduWindow.addSn s.txWindow s.st.txNext (ofSdu sdu) = .ok w ∧
        SameCore { s with sduQueue := q, txWindow := w, sduLog := s.sduLog ++ [sdu] } s₁ ∧
        r = if sdu.buf.length + s₁.headMinSize > gr then
            s₁.buildFirstSduSegment gr (TxAmSduInfo.ofSdu sdu)
          else s₁.buildFullSduPdu gr (ofSdu sdu) := by
  unfold buildNewPdu at h
  split at h
  · cases h; exact .inl ⟨refl _, rfl⟩
  rename_i hg
  split at h
  · cases h; exact .inl ⟨refl _, rfl⟩
  rename_i hf
  split at h
  next q hread =>
    cases h
    refine .inl ⟨⟨rfl, rfl, rfl, rfl, rfl, rfl, fun _ => rfl, rfl, ?_⟩, rfl⟩
    intro x hx
    have hsub := SduQueue.readFrom_suffix s.sduQueue s.sduQueue.queue
    rw [← SduQueue.read, hread] at hsub
    exact hsub.subset (by simpa using hx)
  next sdu q hread =>
    obtain ⟨w, hw, h⟩ := bind_eq_ok.mp h
    cases h
    exact .inr ⟨sdu, q, w, _, hread, by simpa using hf, by omega, hw, sameCore_notifyTransfer _ _, rfl⟩

section Build

variable {s s' : TxAm} {A N : ℕ}

variable {info : TxAmSduInfo} {len grantLen gr : ℕ} {s₁ : TxAm}

lemma TxWin.addSn {q : SduQueue} {w : SduWindow TxAmSduInfo} {sdu : Sdu}
    (h : TxWin s A N N) (hlt : N < A + s.amWindowSize) (hq : ∀ x ∈ q.queue, x ∈ s.sduQueue.queue)
    (hw : SduWindow.addSn s.txWindow s.st.txNext info = .ok w) :
    TxWin { s with sduQueue := q, txWindow := w, sduLog := s.sduLog ++ [sdu] } A N (N + 1) ∧
      ∀ k, w.get? k = if k = N % s.mod then some info else s.txWindow.get? k := by
  have hmod := s.mod_eq
  have hle := h.le
  obtain ⟨-, rfl⟩ := SduWindow.addSn_eq_ok hw
  rw [h.txNext]
  -- the slot of `N` is free: the window covers less than `AM_Window_Size` consecutive counters
  have hspace : s.txWindow.hasSpace (N % s.mod) = true := by
    refine CircularMap.hasSpace_of_window ?_ ?_ hle (by rw [h.capacity]; exact hlt)
      (h.get?_eq_none le_rfl (by omega))
    · rw [h.capacity]
      exact ⟨2, by omega⟩
    · intro k hk
      obtain ⟨a, h1, h2, h3⟩ := (h.mem k).mp hk
      exact ⟨a, h1, by rw [h.capacity]; omega, h3⟩
  rw [CircularMap.overwrite_eq_insert hspace]
  refine ⟨⟨⟨h.txNextAck, by omega, ?_, ?_, ?_⟩, h.txNext, h.le, by omega, ?_, fun x hx => h.queue_ne x (hq x hx)⟩,
    CircularMap.get?_insert hspace info⟩
  · exact (CircularMap.capacity_insert _ _ _).trans h.capacity
  · change (s.txWindow.insert (N % s.mod) info).count = N + 1 - A
    rw [CircularMap.count_insert hspace, h.count]
    omega
  · intro k
    change ((s.txWindow.insert (N % s.mod) info).get? k).isSome ↔ ∃ a, A ≤ a ∧ a < N + 1 ∧ a % s.mod = k
    rw [CircularMap.get?_insert hspace]
    split
    next hk => exact ⟨fun _ => ⟨N, hle, by omega, hk.symm⟩, fun _ => rfl⟩
    next hk =>
      rw [h.mem]
      constructor
      · rintro ⟨a, h1, h2, h3⟩
        exact ⟨a, h1, by omega, h3⟩
      · rintro ⟨a, h1, h2, h3⟩
        have hne : a ≠ N := fun e => hk (by rw [← h3, e])
        exact ⟨a, h1, by omega, h3⟩
  · change (s.sduLog ++ [sdu]).length = N + 1
    rw [List.length_append, h.log]
    rfl

lemma TxWin.advanceNextSo {T : ℕ} (h : TxWin s A N T) (sn len : ℕ) : TxWin (s.advanceNextSo sn len) A N T := by
  refine ⟨{ h with mem := ?_ }, h.txNext, h.le, h.le_top, h.log, h.queue_ne⟩
  intro k
  refine Iff.trans ?_ (h.mem k)
  simp only [TxAm.advanceNextSo, CircularMap.get?_modify]
  split
  next hk => rw [hk, isSome_map]
  · rfl

lemma TxWin.advanceTxNext {T : ℕ} (h : TxWin s A N T) (hlt : N < T) : TxWin s.advanceTxNext A (N + 1) T := by
  refine ⟨{ h with }, ?_, h.le.trans (by omega), hlt, h.log, h.queue_ne⟩
  change (s.st.txNext + 1) % s.mod = (N + 1) % s.mod
  rw [h.txNext, succ_mod]

lemma TxWin.setSeg {T : ℕ} (h : TxWin s A N T) (o : Option ℕ) : TxWin { s with snUnderSegmentation := o } A N T :=
  ⟨{ h with }, h.txNext, h.le, h.le_top, h.log, h.queue_ne⟩

lemma TxWin.lt_of_not_full (h : TxWin s A N N) (hf : s.isTxWindowFull = false) : N < A + s.amWindowSize := by
  have h1 := h.top_le
  have h2 := h.count
  have h3 := h.capacity
  have h4 := h.le
  simp only [isTxWindowFull, Bool.or_eq_false_iff, CircularMap.full, beq_eq_false_iff_ne, ne_eq] at hf
  omega

lemma TxInv.of_win (h : TxWin s A N N) (hs : s.snUnderSegmentation = none) : TxInv s A N where
  toTxWin := by rw [top, hs]; exact h
  seg := .inl hs
  progress := by simp [hs]

lemma TxInv.of_win_seg (h : TxWin s A N (N + 1)) (hs : s.snUnderSegmentation = some (N % s.mod))
    (hp : ∀ info, s.txWindow.get? (N % s.mod) = some info →
      0 < info.nextSo ∧ info.nextSo < info.sdu.length) : TxInv s A N where
  toTxWin := by rw [top, hs]; exact h
  seg := .inr hs
  progress := fun info _ hg => hp info hg

lemma TxInv.win (h : TxInv s A N) (hs : s.snUnderSegmentation = none) : TxWin s A N N := by
  have := h.toTxWin
  rwa [top, hs] at this

lemma TxInv.win_seg (h : TxInv s A N) (hs : s.snUnderSegmentation.isSome) : TxWin s A N (N + 1) := by
  have := h.toTxWin
  rwa [top, if_pos hs] at this

lemma SameCore.get?_advanceNextSo {sn : ℕ} {info' : TxAmSduInfo} (hc : SameCore s s₁) (hg : s.txWindow.get? sn = some info)
    (hg' : (s₁.advanceNextSo sn len).txWindow.get? sn = some info') :
    info'.sdu = info.sdu ∧ info'.nextSo = info.nextSo + len := by
  simp only [advanceNextSo, CircularMap.get?_modify, if_pos, map_eq_some_iff] at hg'
  obtain ⟨i, hi, rfl⟩ := hg'
  obtain ⟨i0, hi0, hsdu, hso⟩ := hc.get? hi
  obtain rfl : info = i0 := some.inj (hg.symm.trans hi0)
  exact ⟨hsdu.symm, congrArg (· + len) hso.symm⟩

lemma TxInv.of_middle (h : TxInv s A N)
    (hs : s.snUnderSegmentation = some (N % s.mod)) (hg : s.txWindow.get? (N % s.mod) = some info)
    (hc : SameCore s s₁) (hlt : info.nextSo + len < info.sdu.length) :
    TxInv (s₁.advanceNextSo (N % s.mod) len) A N := by
  have hsome : s.snUnderSegmentation.isSome := by rw [hs]; rfl
  have hmod : (s₁.advanceNextSo (N % s.mod) len).mod = s.mod := hc.mod
  refine TxInv.of_win_seg (((h.win_seg hsome).of_sameCore hc).advanceNextSo _ _)
    (hc.seg.trans (by rw [hs, hmod])) ?_
  intro info' hg'
  rw [hmod] at hg'
  obtain ⟨hsdu, hnext⟩ := hc.get?_advanceNextSo hg hg'
  have h0 := (h.progress info hsome hg).1
  rw [hsdu, hnext]
  omega

lemma TxInv.of_last (h : TxInv s A N) (hs : s.snUnderSegmentation.isSome)
    (hc : SameCore { s with snUnderSegmentation := none } s₁) :
    TxInv (s₁.advanceNextSo (N % s.mod) len).advanceTxNext A (N + 1) := by
  have hwin := ((h.win_seg hs).setSeg none).of_sameCore hc
  exact TxInv.of_win ((hwin.advanceNextSo _ _).advanceTxNext (by omega)) hc.seg

lemma TxInv.of_first (h : TxWin s A N (N + 1)) (hg : s.txWindow.get? (N % s.mod) = some info) (hso : info.nextSo = 0)
    (hc : SameCore { s with snUnderSegmentation := some s.st.txNext } s₁) (h0 : 0 < len)
    (hlt : len < info.sdu.length) : TxInv (s₁.advanceNextSo s.st.txNext len) A N := by
  have hmod : (s₁.advanceNextSo s.st.txNext len).mod = s.mod := hc.mod
  refine TxInv.of_win_seg (((h.setSeg _).of_sameCore hc).advanceNextSo _ _)
    (hc.seg.trans (by rw [hmod, ← h.txNext])) ?_
  intro info' hg'
  rw [hmod, ← h.txNext] at hg'
  obtain ⟨hsdu, hnext⟩ := hc.get?_advanceNextSo (by rw [h.txNext]; exact hg) hg'
  rw [hsdu, hnext]
  omega

lemma TxInv.of_full (h : TxWin s A N (N + 1)) (hs : s.snUnderSegmentation = none)
    (hc : SameCore s s₁) : TxInv s₁.advanceTxNext A (N + 1) :=
  TxInv.of_win ((h.of_sameCore hc).advanceTxNext (by omega)) (hc.seg.trans hs)

lemma TxInv.of_buildContinued {sn : ℕ} (h : TxInv s A N)
    (hs : s.snUnderSegmentation = some sn) (hg : s.txWindow.get? sn = some info) :
    ∃ N', TxInv (s.buildContinuedSduSegment gr sn info).1 A N' := by
  obtain ⟨rfl, -⟩ := h.get?_seg hs
  have hsome : s.snUnderSegmentation.isSome := by rw [hs]; rfl
  obtain ⟨h0, h1⟩ := h.progress info hsome hg
  rcases Nat.lt_or_ge s.headMaxSize gr with h2 | h2
  · rcases Nat.lt_or_ge gr (info.sdu.length - info.nextSo + s.headMaxSize) with h3 | h3
    · obtain ⟨s₁, p, hc, he⟩ := buildContinuedSduSegment_middle (N % s.mod) h0 h1 h2 h3
      rw [he]
      exact ⟨N, h.of_middle hs hg hc (by omega)⟩
    · obtain ⟨s₁, p, hc, he⟩ := buildContinuedSduSegment_last (N % s.mod) h0 h1 h2 h3
      rw [he]
      exact ⟨N + 1, h.of_last hsome hc⟩
  · rw [buildContinuedSduSegment_small h0 h1 h2]
    exact ⟨N, h⟩

lemma TxInv.read {q : SduQueue} {w : SduWindow TxAmSduInfo} {sdu : Sdu} (h : TxInv s A N)
    (hs : s.snUnderSegmentation = none) (hread : s.sduQueue.read = (some sdu, q))
    (hfull : s.isTxWindowFull = false)
    (hadd : SduWindow.addSn s.txWindow s.st.txNext (ofSdu sdu) = .ok w)
    (hc : SameCore { s with sduQueue := q, txWindow := w, sduLog := s.sduLog ++ [sdu] } s₁) :
    sdu ∈ s.sduQueue.queue ∧ TxWin s₁ A N (N + 1) ∧
      (∀ k, (s₁.txWindow.get? k).map view =
        (if k = N % s.mod then some (ofSdu sdu) else s.txWindow.get? k).map view) := by
  have hwin := h.win hs
  have hsuf := SduQueue.readFrom_suffix s.sduQueue s.sduQueue.queue
  rw [← SduQueue.read, hread] at hsuf
  have hq : ∀ x ∈ q.queue, x ∈ s.sduQueue.queue := fun x hx => hsuf.subset (by simp [hx])
  obtain ⟨hwin0, hget⟩ := hwin.addSn (hwin.lt_of_not_full hfull) hq hadd
  refine ⟨hsuf.subset (by simp), hwin0.of_sameCore hc, fun k => ?_⟩
  rw [hc.entries, ← hget]

lemma TxInv.of_buildNewPdu {r : TxAm × Bytes} (h : TxInv s A N)
    (hs : s.snUnderSegmentation = none) (hb : s.buildNewPdu gr = .ok r) : ∃ N', TxInv r.1 A N' := by
  rcases buildNewPdu_cases hb with ⟨hc, -⟩ | ⟨sdu, q, w, s₁, hread, hfull, hgrant, hadd, hc, rfl⟩
  · exact ⟨N, h.of_sameCore hc⟩
  obtain ⟨hmem, hwin, hget⟩ := h.read hs hread hfull hadd hc
  have hne : sdu.buf ≠ [] := h.queue_ne sdu hmem
  have hmod : s₁.mod = s.mod := hc.mod
  have hhead : s₁.headMinSize = s.headMinSize := hc.headMinSize
  split
  next hlen =>
    obtain ⟨s2, p, hc2, he⟩ := buildFirstSduSegment_spec s₁ (ofSdu sdu) rfl hlen
      (by rw [hhead]; exact hgrant)
    obtain ⟨info, hi, hv⟩ := map_eq_some_iff.mp
      ((hget (N % s.mod)).trans (by rw [if_pos rfl, map_some]))
    simp only [view, ofSdu, Prod.mk.injEq] at hv
    rw [he]
    exact ⟨N, TxInv.of_first hwin (by rw [hmod]; exact hi) hv.2 hc2 (by omega) (by rw [hv.1]; omega)⟩
  next hlen =>
    obtain ⟨s2, p, hc2, he⟩ := buildFullSduPdu_spec s₁ (TxAmSduInfo.ofSdu sdu) hne (not_lt.mp hlen)
    rw [he]
    exact ⟨N + 1, TxInv.of_full hwin (hc.seg.trans hs) hc2⟩

/-- **`pull_pdu` keeps the window invariant.** -/
theorem TxInv.of_pullPdu {status : Option StatusPdu} {r : TxAm × Bytes}
    (h : TxInv s A N) (hp : s.pullPdu status gr = .ok r) : ∃ N', TxInv r.1 A N' := by
  unfold pullPdu at hp
  split at hp
  · cases hp; exact ⟨N, h⟩
  split at hp
  · cases hp; exact ⟨N, h⟩
  split at hp
  · exact ⟨N, h.of_sameCore (sameCore_buildRetxPdu hp)⟩
  cases hs : s.snUnderSegmentation with
  | some sn =>
    obtain ⟨-, info, hg⟩ := h.get?_seg hs
    simp only [hs, map_some, hg] at hp
    cases hp
    exact h.of_buildContinued hs hg
  | none =>
    simp only [hs, map_none] at hp
    have h' : TxInv { s with snUnderSegmentation := none } A N := TxInv.of_win ((h.win hs).setSeg none) rfl
    split at hp
    · cases hp; exact ⟨N, h'⟩
    · exact h'.of_buildNewPdu rfl hp

end Build

end TxAm

end SrsRan.Rlc
