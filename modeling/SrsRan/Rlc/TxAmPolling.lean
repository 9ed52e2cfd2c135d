import SrsRan.Rlc.TxAmSystem

/-!
# Polling in the RLC AM transmitter

A run of the transmitter together with the AMD PDUs it has sent, as far as TS 38.322 Sec. 5.3.3.2 speaks about them.

`get_polling_bit` counts new PDUs and their bytes since the last poll, a whole SDU with zero bytes, because `build_new_pdu`
asks for the length of a buffer it has moved away.  It resets the counters before the PDU is built; as long as no SDU is
empty, the PDU is then sent.
-/

namespace SrsRan.Rlc.TxAm

open Support Lib.Run List Prod

/-- What the counters of `get_polling_bit` are about in an AMD PDU, and whether its grant had room for a whole SDU. -/
structure AmdPdu where
  poll : Bool
  isNew : Bool
  room : Bool
  payload : ℕ
deriving DecidableEq

def amdPdu (snSize : AmSnSize) (isNew room : Bool) (pdu : Bytes) : AmdPdu :=
  let b := (pdu.headD 0).toNat
  let si := SiField.ofBits (b / 2 ^ 4 % 4)
  { poll := b / 2 ^ 6 % 2 = 1
    isNew := isNew
    room := room
    payload := pdu.length - if si.hasSo then amPduHeaderMaxSize snSize else amPduHeaderMinSize snSize }

/-- No SDU is under segmentation, and the next SDU of the queue and its header fit into the grant. -/
def hasRoom (s : TxAm) (grantLen : ℕ) : Bool :=
  (s.snUnderSegmentation.bind s.txWindow.get?).isNone &&
    s.sduQueue.read.1.any fun sdu => sdu.buf.length + s.headMinSize ≤ grantLen

/-- A transmitter, and the PDUs it has sent. -/
structure PollRun where
  tx : TxAm
  sent : List AmdPdu

/-- The data PDU that the call has sent, if any. -/
def sentBy (s : TxAm) (status : Option StatusPdu) (grantLen : ℕ) (pdu : Bytes) : List AmdPdu :=
  if status.isSome ∨ pdu = [] then []
  else [amdPdu s.cfg.snFieldLength s.retxQueue.isEmpty (s.hasRoom grantLen) pdu]

/-- A step of the transmitter, with the AMD PDU that it sends. -/
def PollRun.step (r : PollRun) : TxAction → Except Abort PollRun
  | .pullPdu status grantLen =>
    (r.tx.pullPdu status grantLen).map fun x => ⟨x.1, r.sent ++ sentBy r.tx status grantLen x.2⟩
  | a => (r.tx.step a).map fun s => ⟨s, r.sent⟩

/-! ### Nothing empty is sent -/

/-- No SDU and no retransmission that the transmitter holds is empty. -/
structure Filled (s : TxAm) : Prop where
  queue : ∀ x ∈ s.sduQueue.queue, x.buf ≠ []
  window : ∀ k info, s.txWindow.get? k = some info → info.sdu ≠ []
  retx : ∀ e ∈ s.retxQueue.queue, 0 < e.retx.length

section Filled

variable {s s' : TxAm} {q : RetxQueue} {e : RetxQueueItem} {sn len : ℕ} {x : TxAm × Bytes}

lemma Filled.init (cfg : TxAmConfig) (isSrb : Bool) : (TxAm.init cfg isSrb).Filled :=
  ⟨nofun, nofun, nofun⟩

lemma Filled.of_sameCore (h : s.Filled) (hc : SameCore s s')
    (hr : ∀ e ∈ s'.retxQueue.queue, 0 < e.retx.length) : s'.Filled := by
  refine ⟨fun x hx => h.queue x (hc.queue x hx), fun k info hg => ?_, hr⟩
  obtain ⟨i, hi, hsdu, -⟩ := hc.get? hg
  rw [← hsdu]
  exact h.window k i hi

/-- Frame rule of `Filled`. -/
lemma Filled.of_frame (h : s.Filled) (hf : (s'.sduQueue, s'.txWindow, s'.retxQueue) =
    (s.sduQueue, s.txWindow, s.retxQueue)) : s'.Filled := by
  simp only [Prod.mk.injEq] at hf
  obtain ⟨hq, hw, hr⟩ := hf
  exact ⟨by rw [hq]; exact h.queue, by rw [hw]; exact h.window, by rw [hr]; exact h.retx⟩

lemma mem_pop (he : e ∈ q.pop.queue) : e ∈ q.queue := by
  unfold RetxQueue.pop at he
  split at he
  · exact he
  next e' rest hq =>
    rw [hq]
    exact mem_cons_of_mem _ ((dropWhile_sublist _).subset he)

lemma mem_dropStaleRetx {w : SduWindow TxAmSduInfo} {fuel : ℕ} (he : e ∈ (dropStaleRetx w fuel q).queue) :
    e ∈ q.queue := by
  induction fuel generalizing q with
  | zero => exact he
  | succ fuel ih =>
    unfold dropStaleRetx at he
    split at he
    · split at he
      · exact he
      · exact mem_pop (ih he)
    · exact he

lemma pos_of_tryPush {retx : AmdRetx} {q' : RetxQueue} (h : ∀ e ∈ q.queue, 0 < e.retx.length)
    (hretx : 0 < retx.length) (hq : q.tryPush retx = some q') : ∀ e ∈ q'.queue, 0 < e.retx.length := by
  unfold RetxQueue.tryPush at hq
  split at hq
  · cases hq
  · cases hq
    intro e he
    rcases mem_append.mp he with he | he
    · exact h e he
    · rw [mem_singleton.mp he]
      exact hretx

lemma Filled.pop (h : s.Filled) : Filled { s with retxQueue := s.retxQueue.pop } :=
  ⟨h.queue, h.window, fun e he => h.retx e (mem_pop he)⟩

/-- The bounds are those of at least one byte, whatever a report asks for. -/
lemma sanitizeBounds_pos (soStart sduLength : ℕ) {soEnd : ℕ} (h : soEnd < 2 ^ 16) :
    0 < (sanitizeBounds soStart soEnd sduLength).2.1 + 1 - (sanitizeBounds soStart soEnd sduLength).1 := by
  unfold sanitizeBounds predU16
  dsimp only
  split <;> split <;> split <;> dsimp only <;> omega

lemma nackBounds_lt {nack : StatusNack} {info : TxAmSduInfo} {seg : Bool} {b : ℕ × ℕ} (hn : nack.soEnd < 2 ^ 16)
    (h : nackBounds nack info seg = some b) : b.2 < 2 ^ 16 := by
  have hpred : ∀ n, predU16 n < 2 ^ 16 := fun n => Nat.mod_lt _ (by decide)
  have hend : (if nack.hasSo then nack.soEnd else predU16 info.sdu.length) < 2 ^ 16 := by
    split
    · exact hn
    · exact hpred _
  unfold nackBounds at h
  dsimp only at h
  generalize (if nack.hasSo then nack.soEnd else predU16 info.sdu.length) = soEnd at h hend
  generalize (if nack.hasSo then nack.soStart else 0) = soStart at h
  split at h
  · split at h
    · cases h; exact hpred _
    split at h
    · cases h
    split at h
    · cases h
    split at h
    · cases h
    · cases h; exact hpred _
  · cases h
    exact hend

lemma soEnd_lt_of_mem_expandNack {mod ackSn : ℕ} {nack n : StatusNack} (h : nack.soEnd < 2 ^ 16)
    (hn : n ∈ expandNack mod ackSn nack) : n.soEnd < 2 ^ 16 := by
  unfold expandNack at hn
  split at hn
  · obtain ⟨i, -, rfl⟩ := mem_map.mp hn
    unfold rangeItem
    split
    · dsimp only
      split
      · exact h
      · decide
    · exact (by decide : soEndOfSdu < 2 ^ 16)
  · rw [mem_singleton.mp hn]
    exact h

lemma Filled.getPollingBit (h : s.Filled) (sn : ℕ) (isRetx : Bool) (n : ℕ) :
    (s.getPollingBit sn isRetx n).1.Filled := by
  refine h.of_frame ?_
  cases isRetx <;> rfl

lemma Filled.advanceNextSo (h : s.Filled) (sn n : ℕ) : (s.advanceNextSo sn n).Filled := by
  refine ⟨h.queue, fun k info hg => ?_, h.retx⟩
  rw [TxAm.advanceNextSo, CircularMap.get?_modify] at hg
  split at hg
  · obtain ⟨i, hi, rfl⟩ := Option.map_eq_some_iff.mp hg
    exact h.window _ i hi
  · exact h.window k info hg

lemma Filled.updateRetx {retx : AmdRetx} {info : TxAmSduInfo} {payloadLen : ℕ} (h : s.Filled)
    (hle : payloadLen ≤ retx.length) : (s.updateRetx retx info payloadLen).Filled := by
  refine ⟨h.queue, h.window, ?_⟩
  unfold TxAm.updateRetx
  dsimp only
  split
  · exact h.pop.retx
  next hne =>
    unfold RetxQueue.replaceFront
    split
    · exact h.retx
    next e rest hq =>
      refine forall_mem_cons.mpr ⟨Nat.sub_pos_of_lt (by omega), fun y hy => h.retx y ?_⟩
      rw [hq]
      exact mem_cons_of_mem _ hy

lemma Filled.dropStaleRetx (h : s.Filled) (w : SduWindow TxAmSduInfo) (fuel : ℕ) :
    Filled { s with retxQueue := dropStaleRetx w fuel s.retxQueue } :=
  ⟨h.queue, h.window, fun e he => h.retx e (mem_dropStaleRetx he)⟩

end Filled

/-! ### The counters -/

def counters (s : TxAm) : TxAmConfig × ℕ × ℕ := (s.cfg, s.st.pduWithoutPoll, s.st.byteWithoutPoll)

/-- A call that keeps the counters, and leaves nothing empty. -/
structure Quiet (s s' : TxAm) : Prop where
  counters : s'.counters = s.counters
  filled : s.Filled → s'.Filled

section Status

variable {s s' t : TxAm} {sn : ℕ} {l : Option ℕ}

lemma Quiet.trans (h : Quiet s t) (h' : Quiet t s') : Quiet s s' :=
  ⟨h'.counters.trans h.counters, fun hf => h'.filled (h.filled hf)⟩

lemma Quiet.of_frame (h : (s'.counters, s'.sduQueue, s'.txWindow, s'.retxQueue) =
    (s.counters, s.sduQueue, s.txWindow, s.retxQueue)) : Quiet s s' := by
  simp only [Prod.mk.injEq] at h
  exact ⟨h.1, fun hf => hf.of_frame (by rw [h.2.1, h.2.2.1, h.2.2.2])⟩

lemma Quiet.of_sameCore (hc : SameCore s s') (h : (s'.counters, s'.retxQueue) = (s.counters, s.retxQueue)) :
    Quiet s s' := by
  simp only [Prod.mk.injEq] at h
  refine ⟨h.1, fun hf => hf.of_sameCore hc ?_⟩
  rw [h.2]
  exact hf.retx

lemma quiet_updateMacBufferState (s : TxAm) (l : Option ℕ) (force : Bool) :
    Quiet s (s.updateMacBufferState l force) := by
  refine ⟨?_, fun hf => hf.of_sameCore (sameCore_updateMacBufferState s l force) ?_⟩
  all_goals
    unfold updateMacBufferState
    dsimp only
    split
  · rfl
  · rfl
  · exact fun e he => hf.retx e (mem_dropStaleRetx he)
  · exact fun e he => hf.retx e (mem_dropStaleRetx he)

lemma quiet_notifyTransfer (s : TxAm) (sdu : Sdu) : Quiet s (s.notifyTransfer sdu) := by
  unfold notifyTransfer
  split
  · split <;> exact .of_frame rfl
  · exact .of_frame rfl

lemma quiet_incrementRetxCount (h : s.incrementRetxCount sn = .ok s') : Quiet s s' := by
  refine .of_sameCore (sameCore_incrementRetxCount h) ?_
  obtain ⟨_, -, h⟩ := bind_eq_ok.mp h
  obtain ⟨_, -, h⟩ := bind_eq_ok.mp h
  cases h
  split <;> rfl

lemma quiet_rewindRetxCount (h : s.rewindRetxCount sn = .ok s') : Quiet s s' := by
  refine .of_sameCore (sameCore_rewindRetxCount h) ?_
  unfold rewindRetxCount at h
  split at h
  · cases h; rfl
  split at h
  · rw [decrementRetxCount] at h
    cases ha : SduWindow.access s.txWindow sn with
    | error e => rw [ha] at h; cases h
    | ok info => rw [ha] at h; cases h; rfl
  · cases h; rfl

lemma quiet_clearRetxQueue {fuel : ℕ} (h : clearRetxQueue fuel s = .ok s') : Quiet s s' := by
  induction fuel generalizing s with
  | zero => cases h; exact .of_frame rfl
  | succ fuel ih =>
    unfold clearRetxQueue at h
    split at h
    · cases h; exact .of_frame rfl
    obtain ⟨s₁, h1, h⟩ := bind_eq_ok.mp h
    have hpop : Quiet s₁ { s₁ with retxQueue := s₁.retxQueue.pop } := ⟨rfl, Filled.pop⟩
    exact ((quiet_rewindRetxCount h1).trans hpop).trans (ih h)

lemma quiet_handleNack {nack : StatusNack} {r : TxAm × Bool} (hn : nack.soEnd < 2 ^ 16)
    (h : s.handleNack nack = .ok r) : Quiet s r.1 := by
  unfold handleNack at h
  split at h
  · cases h; exact .of_frame rfl
  split at h
  · cases h; exact .of_frame rfl
  obtain ⟨info, -, h⟩ := bind_eq_ok.mp h
  split at h
  · cases h; exact .of_frame rfl
  next soStart soEnd hb =>
    dsimp only at h
    split at h
    next q hq =>
      cases h
      have hpos := sanitizeBounds_pos soStart info.sdu.length (nackBounds_lt hn hb)
      exact ⟨rfl, fun hf => ⟨hf.queue, hf.window, pos_of_tryPush hf.retx hpos hq⟩⟩
    · cases h; exact .of_frame rfl

lemma quiet_nackLoop {nacks : List StatusNack} {prev : Option ℕ} (hn : ∀ n ∈ nacks, n.soEnd < 2 ^ 16)
    (h : nackLoop nacks s prev = .ok s') : Quiet s s' := by
  induction nacks generalizing s prev with
  | nil => cases h; exact .of_frame rfl
  | cons nack rest ih =>
    obtain ⟨hnack, hrest⟩ := forall_mem_cons.mp hn
    obtain ⟨r, h1, h⟩ := bind_eq_ok.mp h
    split at h
    · obtain ⟨s2, h2, h⟩ := bind_eq_ok.mp h
      exact ((quiet_handleNack hnack h1).trans (quiet_incrementRetxCount h2)).trans (ih hrest h)
    · exact (quiet_handleNack hnack h1).trans (ih hrest h)

lemma quiet_ackLoop {fuel stop : ℕ} {d d' : Option ℕ} {r : TxAm × Option ℕ × Option ℕ}
    (h : ackLoop fuel s sn stop d d' = .ok r) : Quiet s r.1 := by
  induction fuel generalizing s sn d d' with
  | zero => cases h; exact .of_frame rfl
  | succ fuel ih =>
    unfold ackLoop at h
    split at h
    · split at h
      · obtain ⟨w, hw, h⟩ := bind_eq_ok.mp h
        have hrest : Quiet s { s with txWindow := w, st := { s.st with txNextAck := (sn + 1) % s.mod } } := by
          refine ⟨rfl, fun hf => ⟨hf.queue, fun k info hg => ?_, hf.retx⟩⟩
          unfold SduWindow.removeSn at hw
          split at hw
          · cases hw
            rw [CircularMap.get?_erase] at hg
            split at hg
            · cases hg
            · exact hf.window k info hg
          · cases hw
        dsimp only at h
        split at h
        · exact hrest.trans (ih h)
        · exact hrest.trans (ih h)
      · cases h; exact .of_frame rfl
    · cases h; exact .of_frame rfl

lemma quiet_handleStatusPdu {status : StatusPdu} (hn : ∀ n ∈ status.nacks, n.soEnd < 2 ^ 16)
    (h : s.handleStatusPdu status l = .ok s') : Quiet s s' := by
  unfold handleStatusPdu at h
  dsimp only at h
  split at h
  · obtain ⟨r, h1, h⟩ := bind_eq_ok.mp h
    obtain ⟨s2, h2, h⟩ := bind_eq_ok.mp h
    obtain ⟨s3, h3, h⟩ := bind_eq_ok.mp h
    cases h
    have hstart : Quiet s r.1 := by
      refine Quiet.trans ?_ (quiet_ackLoop h1)
      split <;> exact .of_frame rfl
    have hdel : Quiet r.1 (r.1.notifyDelivered r.2.1 r.2.2) := by
      cases r.2.1 <;> cases r.2.2 <;> exact .of_frame rfl
    have hsn : Quiet s2 { s2 with retxSn := none } := .of_frame rfl
    refine ((hstart.trans hdel).trans ((quiet_clearRetxQueue h2).trans hsn)).trans ?_
    refine (quiet_nackLoop (fun n hm => ?_) h3).trans (quiet_updateMacBufferState s3 l true)
    obtain ⟨m, hm1, hm2⟩ := mem_flatMap.mp hm
    exact soEnd_lt_of_mem_expandNack (hn m hm1) hm2
  · cases h
    split <;> exact .of_frame rfl

lemma Filled.retransmitFirst {info : TxAmSduInfo} (hf : s.Filled) (hinfo : info.sdu ≠ [])
    (h : s.retransmitFirst info = .ok s') : s'.counters = s.counters ∧ s'.Filled := by
  unfold TxAm.retransmitFirst at h
  split at h
  next q hq =>
    have hpush : Filled { s with retxQueue := q } :=
      ⟨hf.queue, hf.window, pos_of_tryPush hf.retx (length_pos_of_ne_nil hinfo) hq⟩
    have hquiet := quiet_incrementRetxCount h
    exact ⟨hquiet.counters, hquiet.filled hpush⟩
  · cases h; exact ⟨rfl, hf⟩

lemma Filled.onExpiredPollRetransmitTimer (hf : s.Filled) (h : s.onExpiredPollRetransmitTimer l = .ok s') :
    s'.counters = s.counters ∧ s'.Filled := by
  have hstop : Filled { s with pollRetransmitTimerRunning := false } := hf.of_frame rfl
  unfold TxAm.onExpiredPollRetransmitTimer at h
  dsimp only at h
  split at h
  · split at h
    · cases h; exact ⟨rfl, hstop⟩
    split at h
    · cases h; exact ⟨rfl, hstop⟩
    next info hinfo =>
      obtain ⟨s₁, h1, h⟩ := bind_eq_ok.mp h
      cases h
      obtain ⟨hc, hf1⟩ := hstop.retransmitFirst (hf.window _ info hinfo) h1
      have hupdate := quiet_updateMacBufferState s₁ l true
      exact ⟨hupdate.counters.trans hc, (hupdate.filled hf1).of_frame rfl⟩
  · cases h; exact ⟨rfl, hf.of_frame rfl⟩

/-- **Every call but `pull_pdu`** keeps the counters, and leaves nothing empty if the upper layer hands over no empty SDU. -/
lemma Filled.step {a : TxAction} (hf : s.Filled) (ha : ∀ status len, a ≠ .pullPdu status len) (hne : s.NonEmptySdu a)
    (h : s.step a = .ok s') : s'.counters = s.counters ∧ s'.Filled := by
  cases a with
  | handleSdu now buf isRetx =>
    cases h
    unfold handleSdu
    dsimp only
    split
    next q hq =>
      refine ⟨rfl, fun x hx => ?_, hf.window, hf.retx⟩
      have hqueue := SduQueue.queue_write hq
      rw [hqueue] at hx
      rcases mem_append.mp hx with hx | hx
      · exact hf.queue x hx
      · rw [mem_singleton.mp hx]
        exact hne
    · exact ⟨rfl, hf⟩
  | discardSdu pdcpSn =>
    cases h
    unfold discardSdu
    split
    next q hq =>
      refine ⟨rfl, fun x hx => ?_, hf.window, hf.retx⟩
      rw [SduQueue.queue_tryDiscard hq] at hx
      exact hf.queue x hx
    · exact ⟨rfl, hf⟩
  | pullPdu status len => exact absurd rfl (ha status len)
  | handleControlPdu pdu l =>
    rw [TxAm.step] at h
    split at h
    next status hst =>
      have hr : StatusInRange s status := .of_unpack hst
      have hquiet := quiet_handleStatusPdu (fun n hn => (hr.nacks n hn).soEnd_lt) h
      exact ⟨hquiet.counters, hquiet.filled hf⟩
    · cases h; exact ⟨rfl, hf⟩
  | onExpiredPollRetransmitTimer l => exact hf.onExpiredPollRetransmitTimer h
  | updateMacBufferState l force =>
    cases h
    have hquiet := quiet_updateMacBufferState s l force
    exact ⟨hquiet.counters, hquiet.filled hf⟩

end Status

/-! ### The laws for the PDUs sent so far -/

def newPdus (l : List AmdPdu) : ℕ := l.countP AmdPdu.isNew

def newBytes (p : AmdPdu → Bool) (l : List AmdPdu) : ℕ := ((l.filter fun x => x.isNew && p x).map AmdPdu.payload).sum

/-- None of the PDUs polls. -/
def Silent (l : List AmdPdu) : Prop := ∀ x ∈ l, x.poll = false

/-- The counters bound what was sent since the last poll. -/
structure PollInv (r : PollRun) : Prop where
  pdus : ∀ l, l <:+ r.sent → Silent l → newPdus l ≤ r.tx.st.pduWithoutPoll
  bytes : ∀ l, l <:+ r.sent → Silent l → newBytes (!·.room) l ≤ r.tx.st.byteWithoutPoll
  pduLaw : 0 < r.tx.cfg.pollPdu → ∀ l, l <:+: r.sent → Silent l → newPdus l < r.tx.cfg.pollPdu.toNat
  byteLaw : 0 < r.tx.cfg.pollByte → ∀ l, l <:+: r.sent → Silent l →
    newBytes (!·.room) l < r.tx.cfg.pollByte.toNat

section Invariant

variable {s s' t : TxAm} {sent : List AmdPdu}

lemma PollInv.quiet (h : PollInv ⟨s, sent⟩) (hcfg : s'.cfg = s.cfg)
    (h1 : s.st.pduWithoutPoll ≤ s'.st.pduWithoutPoll) (h2 : s.st.byteWithoutPoll ≤ s'.st.byteWithoutPoll) :
    PollInv ⟨s', sent⟩ := by
  refine ⟨fun l hl hs => (h.pdus l hl hs).trans h1, fun l hl hs => (h.bytes l hl hs).trans h2, ?_, ?_⟩
  · intro hpos
    change 0 < s'.cfg.pollPdu at hpos
    change ∀ l, l <:+: sent → Silent l → newPdus l < s'.cfg.pollPdu.toNat
    rw [hcfg] at hpos ⊢
    exact h.pduLaw hpos
  · intro hpos
    change 0 < s'.cfg.pollByte at hpos
    change ∀ l, l <:+: sent → Silent l → newBytes _ l < s'.cfg.pollByte.toNat
    rw [hcfg] at hpos ⊢
    exact h.byteLaw hpos

lemma PollInv.of_counters (h : PollInv ⟨s, sent⟩) (hc : s'.counters = s.counters) : PollInv ⟨s', sent⟩ := by
  simp only [counters, Prod.mk.injEq] at hc
  exact h.quiet hc.1 hc.2.1.ge hc.2.2.ge

variable {sn n len : ℕ} {isRetx room : Bool} {x : TxAm × Bytes}

lemma getPollingBit_false (h : (t.getPollingBit sn false n).2 = false) :
    (t.getPollingBit sn false n).1.counters = (t.cfg, t.st.pduWithoutPoll + 1, t.st.byteWithoutPoll + n) ∧
    (0 < t.cfg.pollPdu → t.st.pduWithoutPoll + 1 < t.cfg.pollPdu.toNat) ∧
    (0 < t.cfg.pollByte → t.st.byteWithoutPoll + n < t.cfg.pollByte.toNat) := by
  have hreq : (t.countPdu n).pollRequired false = false := h
  refine ⟨?_, ?_, ?_⟩
  · simp only [getPollingBit, counters, Bool.false_eq_true, if_false, hreq]
    rfl
  · intro hpos
    by_contra hge
    simp [pollRequired, countPdu, hpos, not_lt.mp hge] at hreq
  · intro hpos
    by_contra hge
    simp [pollRequired, countPdu, hpos, not_lt.mp hge] at hreq

lemma getPollingBit_retx_false (h : (t.getPollingBit sn true n).2 = false) :
    (t.getPollingBit sn true n).1.counters = t.counters := by
  have hreq : t.pollRequired true = false := h
  simp [getPollingBit, counters, hreq]

lemma newPdus_concat (l : List AmdPdu) (x : AmdPdu) : newPdus (l ++ [x]) = newPdus l + if x.isNew then 1 else 0 := by
  simp [newPdus, countP_append, countP_singleton]

lemma newBytes_concat (p : AmdPdu → Bool) (l : List AmdPdu) (x : AmdPdu) :
    newBytes p (l ++ [x]) = newBytes p l + if x.isNew && p x then x.payload else 0 := by
  rw [newBytes, filter_append, map_append, List.sum_append, newBytes]
  split <;> simp_all

section Stretches

variable {x : AmdPdu} {P : List AmdPdu → Prop} (hend : ∀ l, l <:+ sent → Silent l → x.poll = false → P (l ++ [x]))
include hend

/-- A last stretch of the longer history is empty, or it ends with the new PDU. -/
lemma Silent.of_suffix_concat (hnil : P []) : ∀ l, l <:+ sent ++ [x] → Silent l → P l := by
  intro l hl hsil
  rcases suffix_concat_iff.mp hl with rfl | ⟨l', rfl, hl'⟩
  · exact hnil
  · exact hend l' hl' (fun y hy => hsil y (by simp [hy])) (hsil x (by simp))

/-- A stretch of the longer history is old, or it ends with the new PDU. -/
lemma Silent.of_infix_concat (hold : ∀ l, l <:+: sent → Silent l → P l) :
    ∀ l, l <:+: sent ++ [x] → Silent l → P l := by
  intro l hl hsil
  rcases infix_concat_iff.mp hl with hl | hl
  · exact of_suffix_concat hend (hold [] nil_infix nofun) l hl hsil
  · exact hold l hl hsil

end Stretches

lemma PollInv.send {x : AmdPdu} (h : PollInv ⟨s, sent⟩)
    (hc : t.counters = s.counters) (hs' : s'.counters = (t.getPollingBit sn isRetx n).1.counters)
    (hp : x.poll = (t.getPollingBit sn isRetx n).2) (hnew : x.isNew = !isRetx)
    (hlen : x.isNew = true → x.room = false → x.payload ≤ n) : PollInv ⟨s', sent ++ [x]⟩ := by
  have hcfg : s'.cfg = s.cfg := by
    have h1 : s'.cfg = (t.getPollingBit sn isRetx n).1.cfg := congrArg Prod.fst hs'
    have h2 : t.cfg = s.cfg := congrArg Prod.fst hc
    rw [h1, ← h2]
    cases isRetx <;> rfl
  -- what ends with the new PDU
  have hlast : ∀ l, l <:+ sent → Silent l → x.poll = false →
      newPdus (l ++ [x]) ≤ s'.st.pduWithoutPoll ∧ newBytes (!·.room) (l ++ [x]) ≤ s'.st.byteWithoutPoll ∧
      (0 < s.cfg.pollPdu → newPdus (l ++ [x]) < s.cfg.pollPdu.toNat) ∧
      (0 < s.cfg.pollByte → newBytes (!·.room) (l ++ [x]) < s.cfg.pollByte.toNat) := by
    intro l hl hsil hx
    have h1 : newPdus l ≤ s.st.pduWithoutPoll := h.pdus l hl hsil
    have h2 : newBytes (!·.room) l ≤ s.st.byteWithoutPoll := h.bytes l hl hsil
    rw [hp] at hx
    rw [newPdus_concat, newBytes_concat, hnew]
    cases isRetx with
    | true =>
      rw [getPollingBit_retx_false hx, hc] at hs'
      simp only [counters, Prod.mk.injEq] at hs'
      simp only [Bool.not_true, Bool.false_and, Bool.false_eq_true, if_false, Nat.add_zero, hs'.2.1, hs'.2.2]
      exact ⟨h1, h2, fun hpos => h.pduLaw hpos l hl.isInfix hsil, fun hpos => h.byteLaw hpos l hl.isInfix hsil⟩
    | false =>
      obtain ⟨hcnt, hlim1, hlim2⟩ := getPollingBit_false hx
      rw [hcnt] at hs'
      simp only [counters, Prod.mk.injEq] at hs' hc
      rw [hc.1, hc.2.1] at hlim1
      rw [hc.1, hc.2.2] at hlim2
      have hx' : (if (!false && !x.room) = true then x.payload else 0) ≤ n := by
        split
        next hw => exact hlen hnew (by simpa using hw)
        · exact Nat.zero_le n
      rw [hs'.2.1, hs'.2.2, hc.2.1, hc.2.2]
      refine ⟨Nat.add_le_add_right h1 1, Nat.add_le_add h2 hx', fun hpos => ?_, fun hpos => ?_⟩
      · exact (Nat.add_le_add_right h1 1).trans_lt (hlim1 hpos)
      · exact (Nat.add_le_add h2 hx').trans_lt (hlim2 hpos)
  refine ⟨Silent.of_suffix_concat (fun l h1 h2 h3 => (hlast l h1 h2 h3).1) (Nat.zero_le _),
    Silent.of_suffix_concat (fun l h1 h2 h3 => (hlast l h1 h2 h3).2.1) (Nat.zero_le _), ?_, ?_⟩
  · dsimp only
    rw [hcfg]
    exact fun hpos => Silent.of_infix_concat (fun l h1 h2 h3 => (hlast l h1 h2 h3).2.2.1 hpos) (h.pduLaw hpos)
  · dsimp only
    rw [hcfg]
    exact fun hpos => Silent.of_infix_concat (fun l h1 h2 h3 => (hlast l h1 h2 h3).2.2.2 hpos) (h.byteLaw hpos)

/-! ### `pull_pdu` -/

def headerLength (snSize : AmSnSize) (si : SiField) : ℕ :=
  if si.hasSo then amPduHeaderMaxSize snSize else amPduHeaderMinSize snSize

lemma length_write_le_headerLength {h : AmPduHeader} (hso : h.si.hasSo = true) :
    (amWriteDataPduHeader h).length ≤ headerLength h.snSize h.si := by
  rw [headerLength, if_pos hso]
  exact length_write_le h

lemma amWriteDataPduHeader_ne_nil (h : AmPduHeader) : amWriteDataPduHeader h ≠ [] := by
  cases hs : h.snSize <;> simp [amWriteDataPduHeader, hs]

/-- A PDU was built after `get_polling_bit`, and unless there was room for a whole SDU its payload was counted. -/
def Polls (s s' : TxAm) (pdu : Bytes) (isRetx room : Bool) : Prop :=
  ∃ (t : TxAm) (sn n : ℕ) (si : SiField) (sn' so : ℕ) (payload : Bytes), t.counters = s.counters ∧
    s'.counters = (t.getPollingBit sn isRetx n).1.counters ∧
    pdu = amWriteDataPduHeader (t.dataHeader (t.getPollingBit sn isRetx n).2 si sn' so) ++ payload ∧
    (isRetx = false → room = false → pdu.length ≤ n + headerLength t.cfg.snFieldLength si)

/-- What a call that returns `x` does to the counters; it leaves nothing empty. -/
structure Counted (s : TxAm) (x : TxAm × Bytes) (isRetx room : Bool) : Prop where
  counted : (x.1.counters = s.counters ∧ x.2 = []) ∨ Polls s x.1 x.2 isRetx room
  filled : x.1.Filled

lemma Counted.of_counters (h : Counted t x isRetx room) (ht : t.counters = s.counters) : Counted s x isRetx room := by
  refine ⟨?_, h.filled⟩
  rcases h.counted with ⟨h1, h2⟩ | ⟨u, sn, n, si, sn', so, payload, h1, h2⟩
  · exact .inl ⟨h1.trans ht, h2⟩
  · exact .inr ⟨u, sn, n, si, sn', so, payload, h1.trans ht, h2⟩

lemma Counted.none (hf : t.Filled) (ht : t.counters = s.counters) : Counted s (t, []) isRetx room :=
  ⟨.inl ⟨ht, rfl⟩, hf⟩

section Build

variable (hf : s.Filled)

include hf

lemma counted_buildContinued (len segSn : ℕ) (info : TxAmSduInfo) :
    Counted s (s.buildContinuedSduSegment len segSn info) false room := by
  have hseg : Filled { s with snUnderSegmentation := none } := hf.of_frame rfl
  unfold buildContinuedSduSegment
  split
  · exact .none hseg rfl
  split
  · exact .none hseg rfl
  split
  · exact .none hf rfl
  next h0 h1 h2 =>
  dsimp only
  set last : Prop := info.sdu.length - info.nextSo + s.headMaxSize ≤ len
  set n := if last then info.sdu.length - info.nextSo else len - s.headMaxSize with hn
  set si := if last then SiField.lastSegment else SiField.middleSegment with hsi
  have hlen : info.nextSo + n ≤ info.sdu.length ∧ n + s.headMaxSize ≤ len ∧ 0 < n := by
    rw [hn]
    split <;> omega
  have hso : si.hasSo = true := by
    rw [hsi]
    split <;> rfl
  set t : TxAm := if last then { s with snUnderSegmentation := none } else s with ht
  obtain ⟨hft, hcnt, hhdr⟩ : t.Filled ∧ t.counters = s.counters ∧
      ∀ p, t.dataHeader p si t.st.txNext info.nextSo = s.dataHeader p si s.st.txNext info.nextSo := by
    rw [ht]
    split
    · exact ⟨hseg, rfl, fun _ => rfl⟩
    · exact ⟨hf, rfl, fun _ => rfl⟩
  obtain ⟨hcopy, hl⟩ := s.copySegments_nextSo info (t.getPollingBit t.st.txNext false n).2 si hlen.1 hlen.2.1
  have hsent := (hft.getPollingBit t.st.txNext false n).advanceNextSo segSn n
  rw [hhdr, hcopy, hl, if_neg (by omega), ← hhdr]
  refine ⟨.inr ⟨t, t.st.txNext, n, si, _, _, _, hcnt, ?_, rfl, fun _ _ => ?_⟩, ?_⟩
  · dsimp only
    split <;> rfl
  · rw [length_append, hl, Nat.add_comm]
    exact Nat.add_le_add_left (length_write_le_headerLength hso) _
  · dsimp only
    split
    · exact hsent.of_frame rfl
    · exact hsent

/-- The first segment of a long SDU fills the grant. -/
lemma counted_buildFirst {sdu : Sdu} (h1 : len < (TxAmSduInfo.ofSdu sdu).sdu.length + s.headMinSize) (h2 : s.headMinSize < len) :
    Counted s (s.buildFirstSduSegment len (.ofSdu sdu)) false room := by
  have hseg : Filled { s with snUnderSegmentation := some s.st.txNext } := hf.of_frame rfl
  unfold buildFirstSduSegment
  rw [if_neg (not_le.mpr h1), if_neg (not_le.mpr h2)]
  dsimp only
  set t : TxAm := { s with snUnderSegmentation := some s.st.txNext }
  set n := len - s.headMinSize with hn
  set hdr := t.dataHeader (t.getPollingBit t.st.txNext false n).2 .firstSegment t.st.txNext (TxAmSduInfo.ofSdu sdu).nextSo
  have hhdr : (amWriteDataPduHeader hdr).length = s.headMinSize := length_write_so_zero rfl
  have hle : hdr.so + n ≤ sdu.buf.length := by
    change 0 + n ≤ (TxAmSduInfo.ofSdu sdu).sdu.length
    omega
  have hcopy : copySegments sdu.buf hdr n len = slice sdu.buf hdr.so n := copySegments_eq hle (by omega)
  have hl := length_slice hle
  change Counted s (if (copySegments sdu.buf hdr n len).length = 0 ∨ (copySegments sdu.buf hdr n len).length ≠ n then _
    else (_, amWriteDataPduHeader hdr ++ copySegments sdu.buf hdr n len)) false room
  rw [hcopy, hl, if_neg (by omega)]
  refine ⟨.inr ⟨t, t.st.txNext, n, .firstSegment, _, _, _, rfl, rfl, rfl, fun _ _ => ?_⟩,
    (hseg.getPollingBit _ _ _).advanceNextSo _ _⟩
  rw [length_append, hl, hhdr, Nat.add_comm]
  exact le_rfl

lemma counted_buildFull {sdu : Sdu} (hsdu : sdu.buf ≠ []) (h : sdu.buf.length + s.headMinSize ≤ len)
    (hroom : room = true) : Counted s (s.buildFullSduPdu len (.ofSdu sdu)) false room := by
  have hbit := hf.getPollingBit s.st.txNext false 0
  unfold buildFullSduPdu
  dsimp only
  set hdr := s.dataHeader (s.getPollingBit s.st.txNext false 0).2 .fullSdu s.st.txNext 0
  have hhdr : (amWriteDataPduHeader hdr).length = s.headMinSize := length_write_so_zero rfl
  have hcopy : copySegments sdu.buf hdr sdu.buf.length len = sdu.buf :=
    (copySegments_eq (Nat.zero_add _).le (by omega)).trans (slice_zero_length _)
  change Counted s (if (copySegments sdu.buf hdr sdu.buf.length len).length = 0 then _
    else (_, amWriteDataPduHeader hdr ++ copySegments sdu.buf hdr sdu.buf.length len)) false room
  rw [hcopy, if_neg (by simpa using hsdu)]
  exact ⟨.inr ⟨s, s.st.txNext, 0, .fullSdu, _, _, _, rfl, rfl, rfl, fun _ hr => absurd (hroom.symm.trans hr) (by decide)⟩,
    hbit.of_frame rfl⟩

lemma counted_buildNewPdu (h : s.buildNewPdu len = .ok x)
    (hroom : room = s.sduQueue.read.1.any fun sdu => sdu.buf.length + s.headMinSize ≤ len) :
    Counted s x false room := by
  have hsuffix := SduQueue.readFrom_suffix s.sduQueue s.sduQueue.queue
  rw [← SduQueue.read] at hsuffix
  unfold buildNewPdu at h
  split at h
  · cases h; exact .none hf rfl
  next hgrant =>
  split at h
  · cases h; exact .none hf rfl
  split at h
  next q hread =>
    cases h
    rw [hread] at hsuffix
    refine .none ⟨fun y hy => hf.queue y (hsuffix.subset (by simpa using hy)), hf.window, hf.retx⟩ rfl
  next sdu q hread =>
  obtain ⟨w, hw, h⟩ := bind_eq_ok.mp h
  cases h
  rw [hread] at hsuffix
  obtain ⟨-, rfl⟩ := SduWindow.addSn_eq_ok hw
  have hsdu : sdu.buf ≠ [] := hf.queue sdu (hsuffix.subset (by simp))
  have hadd : Filled { s with
      sduQueue := q
      txWindow := s.txWindow.overwrite s.st.txNext (TxAmSduInfo.ofSdu sdu)
      sduLog := s.sduLog ++ [sdu] } := by
    refine ⟨fun y hy => hf.queue y (hsuffix.subset (by simp [hy])), fun k info hg => ?_, hf.retx⟩
    rcases CircularMap.get?_overwrite_cases hg with rfl | hg
    · exact hsdu
    · exact hf.window k info hg
  obtain ⟨hs1, hf1⟩ := quiet_notifyTransfer _ sdu
  have hf1 := hf1 hadd
  have hmin := congrArg (fun c : TxAmConfig × ℕ × ℕ => amPduHeaderMinSize c.1.snFieldLength) hs1
  change headMinSize _ = s.headMinSize at hmin
  split
  next hlong => exact (counted_buildFirst hf1 hlong (by omega)).of_counters hs1
  next hshort =>
    have hfit : sdu.buf.length + s.headMinSize ≤ len := by
      rw [← hmin]
      exact not_lt.mp hshort
    refine (counted_buildFull hf1 hsdu (not_lt.mp hshort) ?_).of_counters hs1
    simp [hroom, hread, hfit]

lemma counted_emitRetx {payloadLen : ℕ} {retx : AmdRetx} {info : TxAmSduInfo} (hpos : 0 < payloadLen)
    (hle : retx.so + payloadLen ≤ info.sdu.length) (hgrant : payloadLen + s.getRetxExpectedHdrLen retx ≤ len)
    (h : s.emitRetx len retx info payloadLen = .ok x) : Counted s x true room := by
  unfold emitRetx at h
  dsimp only at h
  split at h
  · cases h
  next hhdr =>
  cases h
  have hmod := Nat.mod_le retx.so (2 ^ 16)
  rw [copySegments_eq (by rw [dataHeader_so]; omega) (by omega), length_slice (by rw [dataHeader_so]; omega),
    if_neg (by omega)]
  exact ⟨.inr ⟨s, retx.sn, 0, _, _, _, _, rfl, rfl, rfl, nofun⟩, hf.getPollingBit _ _ _⟩

lemma counted_buildRetxOf {retx : AmdRetx} {info : TxAmSduInfo} (hpos : 0 < retx.length)
    (h : s.buildRetxOf len retx info = .ok x) : Counted s x true room := by
  have hsn : Filled { s with retxSn := some retx.sn } := hf.of_frame rfl
  unfold buildRetxOf at h
  dsimp only at h
  split at h
  · cases h; exact .none hsn.pop rfl
  split at h
  · cases h; exact .none hsn rfl
  next hfits hgrant =>
  change ¬ len ≤ s.getRetxExpectedHdrLen retx at hgrant
  have hle := Nat.min_le_left retx.length (len - s.getRetxExpectedHdrLen retx)
  have hle' := Nat.min_le_right retx.length (len - s.getRetxExpectedHdrLen retx)
  refine (counted_emitRetx (hsn.updateRetx hle) (lt_min hpos (Nat.sub_pos_of_lt (not_le.mp hgrant))) (by omega) ?_
    h).of_counters rfl
  change _ + s.getRetxExpectedHdrLen retx ≤ len
  exact Nat.le_trans (Nat.add_le_add_right hle' _) (by omega)

lemma counted_buildRetxPdu (h : s.buildRetxPdu len = .ok x) : Counted s x true room := by
  have hdrop := hf.dropStaleRetx s.txWindow s.retxQueue.size
  unfold buildRetxPdu at h
  dsimp only at h
  split at h
  · cases h; exact .none hdrop rfl
  next retx hfront =>
  obtain ⟨e, he, rfl⟩ := Option.map_eq_some_iff.mp hfront
  obtain ⟨info, -, h⟩ := bind_eq_ok.mp h
  exact (counted_buildRetxOf hdrop (hdrop.retx e (mem_of_mem_head? he)) h).of_counters rfl

lemma counted_pullPdu (h : s.pullPdu none len = .ok x) :
    Counted s x (!s.retxQueue.isEmpty) (s.hasRoom len) := by
  have hseg : Filled { s with snUnderSegmentation := none } := hf.of_frame rfl
  unfold pullPdu at h
  split at h
  · cases h; exact .none hf rfl
  dsimp only at h
  split at h
  next hq =>
    rw [hq]
    exact counted_buildRetxPdu hf h
  rename_i hq
  rw [Bool.eq_false_iff.mpr hq]
  split at h
  · cases h
    exact counted_buildContinued hf _ _ _
  next hnot =>
  split at h
  · cases h; exact .none hseg rfl
  · have hnone : s.snUnderSegmentation.bind s.txWindow.get? = none := by
      cases hsn : s.snUnderSegmentation with
      | none => rfl
      | some sn =>
        cases hg : s.txWindow.get? sn with
        | none => exact hg
        | some info => exact absurd (by rw [hsn, Option.map_some, hg]) (hnot sn info)
    refine (counted_buildNewPdu hseg h ?_).of_counters rfl
    rw [hasRoom, hnone]
    rfl

end Build

lemma amdPdu_write (snSize : AmSnSize) (isNew room : Bool) (hdr : AmPduHeader) (payload : Bytes) :
    amdPdu snSize isNew room (amWriteDataPduHeader hdr ++ payload) =
      { poll := hdr.p
        isNew := isNew
        room := room
        payload := (amWriteDataPduHeader hdr ++ payload).length - headerLength snSize hdr.si } := by
  obtain ⟨r, rest, hr, hb⟩ : ∃ r rest, r < 2 ^ 4 ∧ amWriteDataPduHeader hdr =
      byte (hdr.dc.toNumber * 2 ^ 7 + hdr.p.toNat * 2 ^ 6 + hdr.si.toNumber * 2 ^ 4 + r) :: rest := by
    cases hs : hdr.snSize with
    | size12bits => exact ⟨hdr.sn / 2 ^ 8 % 2 ^ 4, _, by omega, by simp [amWriteDataPduHeader, hs]; rfl⟩
    | size18bits => exact ⟨hdr.sn / 2 ^ 16 % 2 ^ 2, _, by omega, by simp [amWriteDataPduHeader, hs]; rfl⟩
  have hd : hdr.dc.toNumber < 2 := by cases hdr.dc <;> decide
  have hpn : hdr.p.toNat < 2 := by cases hdr.p <;> decide
  obtain ⟨-, h2, h3, -⟩ := fixed_fields hd hpn hdr.si.toNumber_lt hr
  have hp : decide (hdr.p.toNat = 1) = hdr.p := by cases hdr.p <;> rfl
  simp only [amdPdu, hb, cons_append, headD_cons, toNat_byte, h2, h3, hp, SiField.ofBits_toNumber, headerLength]

/-- **A call of `pull_pdu`** keeps the laws, and leaves nothing empty. -/
theorem PollInv.pull {status : Option StatusPdu} {pdu : Bytes} (h : PollInv ⟨s, sent⟩) (hf : s.Filled)
    (hp : s.pullPdu status len = .ok (s', pdu)) : s'.Filled ∧ PollInv ⟨s', sent ++ sentBy s status len pdu⟩ := by
  cases status with
  | some status =>
    obtain rfl : s' = s := by
      unfold pullPdu at hp
      split at hp <;> cases hp <;> rfl
    exact ⟨hf, by simpa [sentBy] using h⟩
  | none =>
    obtain ⟨hcnt, hf'⟩ := counted_pullPdu hf hp
    refine ⟨hf', ?_⟩
    rcases hcnt with ⟨hc, hnil⟩ | ⟨t, sn, n, si, sn', so, payload, ht, hc, hpdu, hlen⟩
    · rw [sentBy, if_pos (.inr hnil), append_nil]
      exact h.of_counters hc
    · dsimp only at hpdu hlen
      have hne : pdu ≠ [] := by
        rw [hpdu]
        simp [amWriteDataPduHeader_ne_nil]
      rw [sentBy, if_neg (by simpa using hne)]
      have ht' : t.cfg = s.cfg := congrArg fst ht
      have hx := amdPdu_write s.cfg.snFieldLength s.retxQueue.isEmpty (s.hasRoom len)
        (t.dataHeader (t.getPollingBit sn (!s.retxQueue.isEmpty) n).2 si sn' so) payload
      rw [← hpdu] at hx
      refine h.send ht hc (by rw [hx]; rfl) (by rw [hx]; simp) ?_
      rw [hx]
      intro hnew hroom
      have hlen' := hlen (by simpa using hnew) hroom
      rw [ht'] at hlen'
      exact Nat.sub_le_iff_le_add.mpr hlen'

end Invariant

/-! ### Every run -/

/-- The runs in which the upper layer hands over no empty SDU. -/
def ReachPolling (cfg : TxAmConfig) (isSrb : Bool) (r : PollRun) : Prop :=
  Reach PollRun.step (fun r a => r.tx.NonEmptySdu a) ⟨init cfg isSrb, []⟩ r

lemma PollInv.init (cfg : TxAmConfig) (isSrb : Bool) : PollInv ⟨init cfg isSrb, []⟩ := by
  refine ⟨fun l hl _ => ?_, fun l hl _ => ?_, fun hpos l hl _ => ?_, fun hpos l hl _ => ?_⟩
  · rw [suffix_nil.mp hl]; exact Nat.zero_le _
  · rw [suffix_nil.mp hl]; exact Nat.zero_le _
  · rw [infix_nil.mp hl]; exact Int.pos_iff_toNat_pos.mp hpos
  · rw [infix_nil.mp hl]; exact Int.pos_iff_toNat_pos.mp hpos

lemma PollRun.step_cases {r r' : PollRun} {a : TxAction} (h : r.step a = .ok r') :
    (∃ status len x, a = .pullPdu status len ∧ r.tx.pullPdu status len = .ok x ∧
      r' = ⟨x.1, r.sent ++ sentBy r.tx status len x.2⟩) ∨
    (∀ status len, a ≠ .pullPdu status len) ∧ r.tx.step a = .ok r'.tx ∧ r'.sent = r.sent := by
  by_cases ha : ∃ status len, a = .pullPdu status len
  · obtain ⟨status, len, rfl⟩ := ha
    cases hp : r.tx.pullPdu status len with
    | error e => rw [PollRun.step, hp] at h; cases h
    | ok x =>
      rw [PollRun.step, hp] at h
      exact .inl ⟨status, len, x, rfl, hp, (Except.ok.inj h).symm⟩
  · have hne : ∀ status len, a ≠ .pullPdu status len := fun status len he => ha ⟨status, len, he⟩
    have h' : (r.tx.step a).map (fun s => (⟨s, r.sent⟩ : PollRun)) = .ok r' := by
      cases a with
      | pullPdu status len => exact absurd rfl (hne status len)
      | _ => exact h
    cases hs : r.tx.step a with
    | error e => rw [hs] at h'; cases h'
    | ok s =>
      rw [hs] at h'
      cases h'
      exact .inr ⟨hne, rfl, rfl⟩

lemma ReachPolling.pollInv {cfg : TxAmConfig} {isSrb : Bool} {r : PollRun} (h : ReachPolling cfg isSrb r) :
    r.tx.Filled ∧ PollInv r := by
  refine h.invariant (P := fun r => r.tx.Filled ∧ PollInv r) ⟨Filled.init cfg isSrb, PollInv.init cfg isSrb⟩ ?_
  rintro ⟨s, sent⟩ a ⟨s', sent'⟩ ⟨hf, hi⟩ hne hs
  rcases PollRun.step_cases hs with ⟨status, len, x, rfl, hp, hr⟩ | ⟨hpull, hstep, hr⟩
  · cases hr
    exact hi.pull hf hp
  · cases hr
    obtain ⟨hc, hf'⟩ := hf.step hpull hne hstep
    exact ⟨hf', hi.of_counters hc⟩

/-- **Poll laws**, in every run whose SDUs are not empty: fewer than pollPDU new PDUs are sent between two polls, and fewer
than pollByte new bytes as long as no grant has room for a whole SDU. -/
theorem poll_laws_of_reach {cfg : TxAmConfig} {isSrb : Bool} {r : PollRun} (h : ReachPolling cfg isSrb r)
    {l : List AmdPdu} (hl : l <:+: r.sent) (hs : Silent l) :
    (0 < r.tx.cfg.pollPdu → newPdus l < r.tx.cfg.pollPdu.toNat) ∧
    (0 < r.tx.cfg.pollByte → (∀ x ∈ l, x.isNew = true → x.room = false) →
      newBytes (fun _ => true) l < r.tx.cfg.pollByte.toNat) := by
  have hi := h.pollInv.2
  refine ⟨fun hpos => hi.pduLaw hpos l hl hs, fun hpos hseg => ?_⟩
  have hsame : newBytes (fun _ => true) l = newBytes (!·.room) l := by
    unfold newBytes
    congr 2
    refine filter_congr fun x hx => ?_
    cases hn : x.isNew with
    | false => rfl
    | true => simp [hseg x hx hn]
  rw [hsame]
  exact hi.byteLaw hpos l hl hs

instance (s : TxAm) (a : TxAction) : Decidable (s.NonEmptySdu a) := by
  cases a <;> unfold NonEmptySdu <;> infer_instance

def pollByteConfig : TxAmConfig := { exampleConfig with pollPdu := 0, pollByte := 4 }

/-- An SDU that is sent in segments. -/
theorem poll_laws_segments : ∃ r, ReachPolling pollByteConfig false r ∧
    r.sent.map AmdPdu.poll = [false, false, false, true] ∧ newBytes (fun _ => true) (r.sent.take 3) < 4 := by
  obtain ⟨r, hr, h1, h2, h3⟩ : ∃ r, ReachPolling pollByteConfig false r ∧
      r.sent.map AmdPdu.poll = [false, false, false, true] ∧ r.tx.cfg = pollByteConfig ∧
        ∀ x ∈ r.sent.take 3, x.poll = false ∧ (x.isNew = true → x.room = false) :=
    Reach.exists_run [.handleSdu 0 [1, 2, 3, 4, 5, 6] false, .pullPdu none 3, .pullPdu none 5, .pullPdu none 5,
      .pullPdu none 5] (by decide +kernel)
  have hlaw := (poll_laws_of_reach hr ( take_prefix 3 _).isInfix fun x hx => (h3 x hx).1).2
  rw [h2] at hlaw
  exact ⟨r, hr, h1, hlaw (by decide) fun x hx => (h3 x hx).2⟩

/-- Three whole SDUs of three bytes each are sent between two polls, nine bytes where pollByte is four. -/
theorem poll_byte_fails_whole : ∃ r, ReachPolling pollByteConfig false r ∧
    ∃ x l y, r.sent = x :: l ++ [y] ∧ x.poll = true ∧ Silent l ∧ y.poll = true ∧
      newBytes (fun _ => true) l = 9 := by
  obtain ⟨r, hr, hv⟩ : ∃ r, ReachPolling pollByteConfig false r ∧
      r.sent = ⟨true, true, true, 1⟩ :: List.replicate 3 ⟨false, true, true, 3⟩ ++ [⟨true, true, true, 3⟩] :=
    Reach.exists_run [.handleSdu 0 [1] false, .pullPdu none 9, .handleSdu 0 [1, 2, 3] false,
      .handleSdu 0 [1, 2, 3] false, .handleSdu 0 [1, 2, 3] false, .handleSdu 0 [1, 2, 3] false, .pullPdu none 9,
      .pullPdu none 9, .pullPdu none 9, .pullPdu none 9] (by decide +kernel)
  refine ⟨r, hr, _, _, _, hv, rfl, ?_, rfl, rfl⟩
  intro x hx
  rw [eq_of_mem_replicate hx]

end SrsRan.Rlc.TxAm
