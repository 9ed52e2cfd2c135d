import SrsRan.Rlc.RxAmReassembly
import SrsRan.Rlc.RxAmSystem

/-!
# Delivery by the RLC AM receiver

SDUs are numbered, and PDUs with parts of them are lost, repeated and reordered on their way.  The receiver knows the numbers
modulo the SN size only, so a PDU has to arrive while its number is near RX_Next (`InTime`).
-/

namespace SrsRan.Rlc.RxAm

open Support Lib.SeqNum Lib.Run Option Nat
open SrsRan.Rlc.RxAm.RxSduData (segmentSet)

/-- What a notification says of an SDU that is complete -/
def outcome : RxNotification → Option (Option Bytes)
  | .newSdu sdu => some (some sdu)
  | .lostPdu => some none
  | _ => none

/-- The complete SDUs in the order of their completion, `none` for one that could not be reassembled. -/
def outcomes (s : RxAm) : List (Option Bytes) := s.notifications.filterMap outcome

/-- An entry that holds pieces of the SDU. -/
def PartOf (sdu : Bytes) (e : RxAmSduInfo) : Prop := ∃ l, e.sduData = .segments l ∧ SegmentsOf sdu l

/-- The SDU is delivered, or the pool had no block for its chain, or room for fewer slices than the SDU has bytes. -/
def Delivered (sdu : Bytes) (mem : Option ℕ) (o : Option Bytes) : Prop :=
  o = some sdu ∨ o = none ∧ ∀ n ∈ mem, n < max 1 sdu.length

/-- `ds` are the SDUs that were completed, and `rooms` the memory there was for each of them; an incomplete SDU of the
window has segments of its own. -/
structure RxContent (sdus : ℕ → Bytes) (s : RxAm) (R M : ℕ) (ds : List ℕ) (rooms : List (Option ℕ)) : Prop where
  size : ∀ x, (sdus x).length < 2 ^ 16
  entry : ∀ x e, R ≤ x → x < M → s.rxWindow.get? (x % s.mod) = some e → e.fullyReceived = false → PartOf (sdus x) e
  nodup : ds.Nodup
  mem : ∀ x, x ∈ ds ↔ x < R ∨ R ≤ x ∧ x < M ∧ s.Received x
  length_rooms : rooms.length = s.outcomes.length
  outcomes : List.Forall₂ (fun x o => Delivered (sdus x) o.2 o.1) ds (s.outcomes.zip rooms)

/-! ### Steps that complete no SDU -/

/-- What `RxContent` talks about. -/
def frame (s : RxAm) : RxAmConfig × SduWindow RxAmSduInfo × List (Option Bytes) := (s.cfg, s.rxWindow, s.outcomes)

variable {s s' s₁ : RxAm} {R H M : ℕ} {sdus : ℕ → Bytes} {ds : List ℕ} {rooms : List (Option ℕ)}
  {mem : Option ℕ}

lemma frame_notify {n : RxNotification} (h : outcome n = none) : (s.notify n).frame = s.frame := by
  simp [frame, RxAm.outcomes, notify, h]

lemma frame_notifyStatusReportChanged (s : RxAm) : s.notifyStatusReportChanged.frame = s.frame := by
  unfold notifyStatusReportChanged
  split
  · exact frame_notify rfl
  · rfl

lemma RxContent.of_frame (h : RxContent sdus s R M ds rooms) (hf : s'.frame = s.frame) : RxContent sdus s' R M ds rooms := by
  simp only [frame, Prod.mk.injEq] at hf
  obtain ⟨hcfg, hwin, hout⟩ := hf
  have hmod : s'.mod = s.mod := by rw [mod, hcfg, mod]
  have hrec : ∀ x, s'.Received x ↔ s.Received x := by
    intro x
    rw [Received, isFullyReceived, hwin, hmod, Received, isFullyReceived]
  refine ⟨h.size, ?_, h.nodup, ?_, ?_, ?_⟩
  · rw [hwin, hmod]
    exact h.entry
  · simp only [hrec]
    exact h.mem
  · rw [hout]
    exact h.length_rooms
  · rw [hout]
    exact h.outcomes

lemma RxInv.lt_of_get? {x : ℕ} {e : RxAmSduInfo} (h : RxInv s R H M) (hx : x < R + s.mod)
    (he : s.rxWindow.get? (x % s.mod) = some e) : x < M := by
  by_contra hM
  rw [h.get?_eq_none (by omega) hx] at he
  cases he

/-! ### Status reports -/

lemma exists_segmentNacks {sdu : Bytes} {l : List SduSegment} {sn lastSo : ℕ} {haveLast : Bool}
    (hsize : sdu.length < 2 ^ 16) (h : SegmentsOf sdu l) (hlast : ∀ segm ∈ l, lastSo ≤ segm.so) :
    ∃ nacks, segmentNacks sn lastSo haveLast l = .ok nacks := by
  induction l generalizing lastSo haveLast with
  | nil => exact ⟨_, rfl⟩
  | cons segm rest ih =>
    obtain ⟨hseg, hrest, hnext⟩ := SegmentsOf.cons_iff.mp h
    obtain ⟨nacks, hok⟩ : ∃ nacks, segmentNacks sn (segm.so + segm.payload.length)
        (haveLast || segm.si = .lastSegment) rest = .ok nacks := ih hrest hnext
    have hso := hlast segm List.mem_cons_self
    have hle := hseg.le_length
    have hpos := hseg.length_pos
    simp only [segmentNacks]
    rw [if_neg (by omega), hok]
    exact ⟨_, rfl⟩

lemma exists_statusLoop (hn : ∀ sn, ∃ nacks, s.nacksFor sn = .ok nacks) (stopSn fuel sn : ℕ) (status : StatusPdu) :
    ∃ status', s.statusLoop stopSn fuel sn status = .ok status' := by
  induction fuel generalizing sn status with
  | zero => exact ⟨_, rfl⟩
  | succ fuel ih =>
    rw [statusLoop]
    split
    · obtain ⟨nacks, hok⟩ := hn sn
      rw [hok]
      exact ih _ _
    · exact ⟨_, rfl⟩

lemma RxInv.refreshStatusReport (h : RxInv s R H M) (hc : RxContent sdus s R M ds rooms) :
    ∃ status, s.refreshStatusReport = .ok (s.storeStatusReport status) := by
  have hn : ∀ sn, ∃ nacks, s.nacksFor sn = .ok nacks := by
    intro sn
    unfold nacksFor
    split
    · exact ⟨_, rfl⟩
    next e he =>
      split
      · exact ⟨_, rfl⟩
      next hf =>
        obtain ⟨x, h1, h2, rfl⟩ := h.mem sn (by rw [he]; rfl)
        obtain ⟨l, hl, hseg⟩ := hc.entry x e h1 h2 he (Bool.eq_false_iff.mpr hf)
        rw [hl]
        exact exists_segmentNacks (hc.size x) hseg fun _ _ => Nat.zero_le _
  obtain ⟨status, hok⟩ := exists_statusLoop hn s.statusStopSn s.mod s.st.rxNext (.reset s.cfg.snFieldLength)
  rw [RxAm.refreshStatusReport, hok]
  exact ⟨_, rfl⟩

/-! ### A segment -/

/-- The payload of a PDU is the SDU, or a segment of it at the place that the header names. -/
def Carries (sdu : Bytes) (header : AmPduHeader) (payload : Bytes) : Prop :=
  if header.si = .fullSdu then payload = sdu else SegmentOf sdu ⟨header.si, header.so, payload⟩
deriving Decidable

/-- A data PDU has a part of an SDU whose number is at most a window before RX_Next and less than two windows after. -/
def InTime (sdus : ℕ → Bytes) (s : RxAm) (R : ℕ) (pdu : Bytes) : Prop :=
  ∀ header, amReadDataPduHeader pdu s.cfg.snFieldLength = some header → ∃ x, R ≤ x + s.amWindowSize ∧
    x < R + s.mod ∧ header.sn = x % s.mod ∧ Carries (sdus x) header (pdu.drop header.getPackedSize)

lemma delivered_slice (sdu : Bytes) (mem : Option ℕ) (full gap : Bool) :
    Delivered sdu mem (reassembleSdu mem ⟨full, gap, .slice sdu⟩) := by
  cases mem with
  | none => exact .inr ⟨rfl, nofun⟩
  | some n =>
    simp only [reassembleSdu, ByteBufferChain.create, ByteBufferChain.append, map_some, bind_some]
    split
    · exact .inl (by simp_all [ByteBufferChain.bytes])
    · split
      · exact .inl (by simp [ByteBufferChain.bytes])
      next hfull =>
        refine .inr ⟨rfl, fun m hm => ?_⟩
        obtain rfl := some.inj hm
        simp only [List.length_nil] at hfull
        omega

/-- Pieces that are disjoint and not empty are at most as many as there are bytes. -/
lemma length_le_of_segmentsOf {sdu : Bytes} {l : List SduSegment} (h : SegmentsOf sdu l) {lo : ℕ} (hlo : lo ≤ sdu.length)
    (hge : ∀ segm ∈ l, lo ≤ segm.so) : lo + l.length ≤ sdu.length := by
  induction l generalizing lo with
  | nil => exact hlo
  | cons segm rest ih =>
    obtain ⟨hseg, hrest, hnext⟩ := SegmentsOf.cons_iff.mp h
    have hrest := ih hrest hseg.le_length hnext
    have hso := hge segm List.mem_cons_self
    have hpos := hseg.length_pos
    rw [List.length_cons]
    omega

lemma storedEntry_content {sdu payload : Bytes} {header : AmPduHeader} {old : Option RxAmSduInfo}
    (hsize : sdu.length < 2 ^ 16) (hpdu : Carries sdu header payload)
    (hold : ∀ e ∈ old, PartOf sdu e) :
    let e := (storedEntry old header payload).1
    (e.fullyReceived = false → PartOf sdu e) ∧
      (e.fullyReceived = true → ∀ mem, Delivered sdu mem (reassembleSdu mem e)) := by
  unfold Carries at hpdu
  unfold storedEntry
  split
  next hsi =>
    rw [if_pos hsi] at hpdu
    rw [hpdu]
    exact ⟨nofun, fun _ mem => delivered_slice ..⟩
  next hsi =>
    rw [if_neg hsi] at hpdu
    have hold' : SegmentsOf sdu (segmentSet (old.getD {}).sduData) := by
      cases old with
      | none => exact ⟨nofun, .nil⟩
      | some e =>
        obtain ⟨l, hl, hs⟩ := hold e rfl
        rw [getD_some, hl]
        exact hs
    have hst := (hold'.storeSegment hsize.le hpdu).1
    refine ⟨fun _ => ⟨_, rfl, hst⟩, fun hf mem => ?_⟩
    have hpos := hpdu.length_pos
    have hle := hpdu.le_length
    rw [Holds.reassembleSdu mem (by omega) ⟨hst, fun _ => Iff.rfl, rfl, rfl⟩ hf]
    split
    · exact .inl rfl
    next hroom =>
      refine .inr ⟨rfl, fun n hn => ?_⟩
      have hpieces := length_le_of_segmentsOf hst (Nat.zero_le _) fun _ _ => Nat.zero_le _
      rw [Nat.zero_add] at hpieces
      exact (not_le.mp fun hn' => hroom ⟨n, hn, hn'⟩).trans_le (hpieces.trans (le_max_right ..))

section Placed

variable {x R' H' : ℕ} {e : RxAmSduInfo}

lemma Placed.outcomes_eq (hp : Placed s s' mem x e R H M R' H') : s'.outcomes =
    s.outcomes ++ if e.fullyReceived then [reassembleSdu mem e] else [] := by
  have hn : s'.notifications = s.notifications ++ if e.fullyReceived then [delivery mem e] else [] :=
    congrArg RxAm.notifications hp.eq
  have hd : outcome (delivery mem e) = some (reassembleSdu mem e) := by
    unfold delivery
    cases reassembleSdu mem e <;> rfl
  rw [RxAm.outcomes, hn, List.filterMap_append]
  cases e.fullyReceived <;> simp [hd, RxAm.outcomes]

variable (h : RxInv s R H M) (hp : Placed s s' mem x e R H M R' H') (h1 : R ≤ x) (h2 : x < R + s.amWindowSize)
  (hx : ¬ s.Received x) (hc : RxContent sdus s R M ds rooms)
include h hp h1 h2 hx hc

lemma Placed.mem_iff (y : ℕ) : y ∈ ds ∨ y = x ∧ e.fullyReceived = true ↔
    y < R' ∨ R' ≤ y ∧ y < max M (x + 1) ∧ s'.Received y := by
  have hmod := s.mod_eq
  have hMR := h.le_window
  have hle := hp.le
  have hle' := hp.next_le
  have hmod' : s'.mod = s.mod := by rw [hp.eq]; rfl
  have hin : y < R + s.mod → s.Received y → y < M := by
    intro hy hr
    cases he : s.rxWindow.get? (y % s.mod) with
    | none =>
      rw [Received, isFullyReceived, he] at hr
      cases hr
    | some e => exact h.lt_of_get? hy he
  rw [hc.mem]
  rcases lt_or_ge y R' with hy | hy
  · -- RX_Next has passed `y`
    have hr := hp.received y
    grind
  · have hr : y < R + s.mod → (s'.Received y ↔ if y = x then e.fullyReceived = true else s.Received y) := by
      intro hlt
      rw [Received, isFullyReceived, hmod', hp.get? y hy hlt]
      split
      · cases he : e.fullyReceived <;> simp [he]
      · rfl
    grind

lemma RxContent.of_placed (hseg : e.fullyReceived = false → PartOf (sdus x) e)
    (hfull : e.fullyReceived = true → ∀ mem, Delivered (sdus x) mem (reassembleSdu mem e)) :
    RxContent sdus s' R' (max M (x + 1)) (ds ++ if e.fullyReceived then [x] else [])
      (rooms ++ if e.fullyReceived then [mem] else []) := by
  have hmod := s.mod_eq
  have hMR := h.le_window
  have hle' := hp.next_le
  have hmod' : s'.mod = s.mod := by rw [hp.eq]; rfl
  have hmem := hp.mem_iff h h1 h2 hx hc
  refine ⟨hc.size, fun y e' h3 h4 hg hf => ?_, ?_, fun y => ?_, ?_, ?_⟩
  · rw [hmod', hp.get? y h3 (by omega)] at hg
    split at hg
    next hy =>
      cases hg
      rw [hy]
      cases he : e.fullyReceived <;> simp_all
    next hy => exact hc.entry y e' (by omega) (h.lt_of_get? (by omega) hg) hg hf
  · -- `x` was not complete
    have hxs : x ∉ ds := by
      rw [hc.mem]
      rintro (hlt | ⟨-, -, hr⟩)
      · omega
      · exact hx hr
    cases e.fullyReceived
    · simpa using hc.nodup
    · exact hc.nodup.append (List.nodup_singleton x) (List.disjoint_singleton.mpr hxs)
  · rw [← hmem, List.mem_append]
    cases e.fullyReceived <;> simp
  · rw [hp.outcomes_eq, List.length_append, List.length_append, hc.length_rooms]
    cases e.fullyReceived <;> rfl
  · rw [hp.outcomes_eq, List.zip_append hc.length_rooms.symm]
    refine List.rel_append hc.outcomes ?_
    cases he : e.fullyReceived with
    | false => exact .nil
    | true => exact .cons (hfull he mem) .nil

end Placed

/-- The receiver after a PDU: RX_Next may have moved, and an SDU may be complete for which there was the memory `mem`. -/
def Moved (sdus : ℕ → Bytes) (rooms : List (Option ℕ)) (mem : Option ℕ) (s s' : RxAm) (R : ℕ) : Prop :=
  ∃ R' H' M' ds' rooms', R ≤ R' ∧ R' < R + s.mod ∧ RxInv s' R' H' M' ∧ RxContent sdus s' R' M' ds' rooms' ∧
    (rooms' = rooms ∨ rooms' = rooms ++ [mem]) ∧ s'.cfg = s.cfg

lemma Moved.of_frame (h : Moved sdus rooms mem s s₁ R) (hf : s'.frame = s₁.frame)
    (hi : ∀ {R H M}, RxInv s₁ R H M → RxInv s' R H M) : Moved sdus rooms mem s s' R := by
  obtain ⟨R', H', M', ds', rooms', h1, h2, h3, hc, hrooms, hcfg⟩ := h
  exact ⟨R', H', M', ds', rooms', h1, h2, hi h3, hc.of_frame hf, hrooms, (congrArg Prod.fst hf).trans hcfg⟩

lemma Moved.notifyStatusReportChanged (h : Moved sdus rooms mem s s' R) : Moved sdus rooms mem s s'.notifyStatusReportChanged R :=
  h.of_frame (frame_notifyStatusReportChanged s') RxInv.of_notifyStatusReportChanged

/-- The call returns, unless it starts a timer that has no duration. -/
def Returns (sdus : ℕ → Bytes) (rooms : List (Option ℕ)) (mem : Option ℕ) (s : RxAm) (R : ℕ) (result : Except Abort RxAm) : Prop :=
  result = .error (.assertion "Calling timer::run with invalid duration") ∨ ∃ s', result = .ok s' ∧ Moved sdus rooms mem s s' R

lemma Moved.finishPdu {changed requested : Bool} (h : Moved sdus rooms mem s s₁ R) :
    Returns sdus rooms mem s R (s₁.finishPdu changed requested) := by
  unfold RxAm.finishPdu
  split
  · have ⟨R', H', M', ds', rooms', _, _, hi, hc, _⟩ := h
    obtain ⟨status, hok⟩ := hi.refreshStatusReport hc
    rw [hok]
    refine .inr ⟨_, rfl, Moved.notifyStatusReportChanged ?_⟩
    exact h.of_frame rfl fun hi => hi.congr rfl rfl rfl rfl
  · exact .inr ⟨_, rfl, h⟩

section Arrive

variable (h : RxInv s R H M) (hc : RxContent sdus s R M ds rooms)
include h hc

lemma RxContent.moved : Moved sdus rooms mem s s R := by
  have hpos := s.mod_pos
  exact ⟨R, H, M, ds, rooms, le_rfl, by omega, h, hc, .inl rfl, rfl⟩

lemma RxContent.finishExpiry : Returns sdus rooms mem s R s.finishExpiry := by
  unfold RxAm.finishExpiry
  rw [h.highestStatus]
  rcases h.restartReassemblyTimer h.le_highest h.highest_le with herr | ⟨b, t, hok, hinv⟩
  · rw [herr]
    exact .inl rfl
  · rw [hok, ok_bind]
    obtain ⟨status, hr⟩ := hinv.refreshStatusReport (hc.of_frame rfl)
    rw [hr]
    refine .inr ⟨_, rfl, Moved.notifyStatusReportChanged ?_⟩
    exact (RxContent.moved hinv (hc.of_frame rfl)).of_frame rfl fun hi => hi.congr rfl rfl rfl rfl

variable {x : ℕ} {header : AmPduHeader}

lemma RxContent.placePdu {payload : Bytes} (h1 : R ≤ x) (h2 : x < R + s.amWindowSize) (hsn : header.sn = x % s.mod)
    (hrec : ¬ s.Received x) (hpdu : Carries (sdus x) header payload) :
    s.placePdu mem header payload = .error (.assertion "Calling timer::run with invalid duration") ∨
      ∃ r, s.placePdu mem header payload = .ok r ∧ Moved sdus rooms mem s r.1 R := by
  have hmod := s.mod_eq
  refine (h.placePdu mem payload h1 h2 hsn).imp_right ?_
  rintro ⟨s1, R', H', hok, hp⟩
  have hold : ∀ e ∈ s.rxWindow.get? header.sn, PartOf (sdus x) e := by
    rw [hsn]
    intro e he
    refine hc.entry x e h1 (h.lt_of_get? (by omega) he) he ?_
    rw [Received, isFullyReceived, he] at hrec
    exact Bool.eq_false_iff.mpr hrec
  obtain ⟨hseg, hfull⟩ := storedEntry_content (hc.size x) hpdu hold
  have hle' := hp.le
  have hMR := h.le_window
  refine ⟨_, hok, R', H', _, _, _, hp.next_le, by omega, hp.toRxInv, hc.of_placed h hp h1 h2 hrec hseg hfull, ?_, by rw [hp.eq]⟩
  cases (storedEntry (s.rxWindow.get? header.sn) header payload).1.fullyReceived
  · exact .inl (List.append_nil _)
  · exact .inr rfl

/-- **A data PDU arrives**, with a part of an SDU whose number is near RX_Next. -/
theorem RxContent.handleDataPdu {pdu : Bytes} (hpdu : InTime sdus s R pdu) :
    Returns sdus rooms mem s R (s.handleDataPdu mem pdu) := by
  have hmod := s.mod_eq
  have hsame : Moved sdus rooms mem s s R := hc.moved h
  unfold RxAm.handleDataPdu
  split
  · exact .inr ⟨s, rfl, hsame⟩
  next header hread =>
    obtain ⟨x, h1, h2, hsn, hcar⟩ := hpdu header hread
    split
    · exact .inr ⟨s, rfl, hsame⟩
    split
    · exact hsame.finishPdu
    next hin =>
      simp only [Bool.or_eq_true, Bool.not_eq_eq_eq_not, Bool.not_true, not_or, Bool.not_eq_false] at hin
      obtain ⟨y, h3, h4, hxy⟩ := h.unwrap_sn (amRead_sn_lt hread) hin.1
      rw [hsn] at hxy hin
      -- an SDU from before RX_Next would be taken for one beyond the window
      obtain rfl : x = y := by
        rcases lt_or_ge x R with hlt | hge
        · have := eq_of_mod_eq (b := R) ((add_mod_right x s.mod).trans hxy) (by omega) (by omega) h3 (by omega)
          omega
        · exact eq_of_mod_eq hxy hge h2 h3 (by omega)
      rcases hc.placePdu h h3 h4 hsn hin.2 hcar with herr | ⟨r, hr, hmoved⟩
      · rw [herr]
        exact .inl rfl
      · rw [hr]
        exact hmoved.finishPdu

end Arrive

/-! ### Runs of the receiver -/

structure Reception where
  rx : RxAm
  /-- history: the number of SDUs that RX_Next has passed -/
  passed : ℕ
  /-- history: for each SDU that was complete, the memory there was for its chain -/
  rooms : List (Option ℕ)

namespace Reception

/-- The memory of the pool when a PDU is handled -/
def room : RxAction → Option ℕ
  | .handlePdu mem _ => mem
  | _ => none

/-- A step of the receiver, with the delivered SDUs recorded. -/
def step (l : Reception) (a : RxAction) : Except Abort Reception := do
  let rx ← l.rx.step a
  .ok ⟨rx, l.passed + l.rx.rxModBase rx.st.rxNext,
    l.rooms ++ List.replicate (rx.outcomes.length - l.rx.outcomes.length) (room a)⟩

/-- Control PDUs, timers and the calls of the transmitter are not restricted. -/
def Genuine (sdus : ℕ → Bytes) (l : Reception) : RxAction → Prop
  | .handlePdu _ pdu => StatusPdu.isControlPdu pdu = true ∨ InTime sdus l.rx l.passed pdu
  | _ => True

variable {l l' : Reception} {a : RxAction}

lemma returns_step (h : RxInv l.rx l.passed H M) (hc : RxContent sdus l.rx l.passed M ds rooms) (ht : l.Genuine sdus a) :
    Returns sdus rooms (room a) l.rx l.passed (l.rx.step a) := by
  have hsame : Moved sdus rooms (room a) l.rx l.rx l.passed := hc.moved h
  cases a with
  | handlePdu mem pdu =>
    rw [RxAm.step, RxAm.handlePdu]
    split
    · exact .inr ⟨_, rfl, hsame⟩
    split
    · refine .inr ⟨_, rfl, ?_⟩
      unfold handleControlPdu
      split
      · exact hsame.of_frame (frame_notify rfl) fun hi => hi.congr rfl rfl rfl rfl
      · exact hsame
    next hctrl => exact hc.handleDataPdu h (ht.resolve_left hctrl)
  | expireReassemblyTimer =>
    rw [RxAm.step]
    split
    next hrun =>
      obtain ⟨H', hinv, heq⟩ := h.onExpiredReassemblyTimer_eq hrun
      rw [heq]
      exact RxContent.finishExpiry hinv (hc.of_frame rfl)
    · exact .inr ⟨_, rfl, hsame⟩
  | expireStatusProhibitTimer =>
    refine .inr ⟨_, rfl, Moved.notifyStatusReportChanged ?_⟩
    exact hsame.of_frame rfl fun hi => hi.congr rfl rfl rfl rfl
  | getStatusPdu => exact .inr ⟨_, rfl, hsame.of_frame rfl fun hi => hi.congr rfl rfl rfl rfl⟩

variable {cfg : RxAmConfig}

lemma content_of_reach (hsize : ∀ x, (sdus x).length < 2 ^ 16) (h : Reach step (Genuine sdus) ⟨init cfg, 0, []⟩ l) :
    ∃ H M ds, RxInv l.rx l.passed H M ∧ RxContent sdus l.rx l.passed M ds l.rooms := by
  refine h.invariant (P := fun l => ∃ H M ds, RxInv l.rx l.passed H M ∧ RxContent sdus l.rx l.passed M ds l.rooms) ?_ ?_
  · refine ⟨0, 0, [], .init cfg, hsize, ?_, .nil, fun x => ⟨nofun, ?_⟩, rfl, .nil⟩
    · exact fun x e _ h => absurd h (Nat.not_lt_zero x)
    · exact fun h => absurd (h.elim id fun h => h.2.1) (Nat.not_lt_zero x)
  · rintro l a l' ⟨H, M, ds, hi, hc⟩ ht hs
    obtain ⟨rx, hrx, hs⟩ := bind_eq_ok.mp hs
    cases hs
    obtain herr | ⟨_, hok, R', H', M', ds', rooms', h1, h2, hi', hc', hrooms, hcfg⟩ := returns_step hi hc ht
    · rw [herr] at hrx
      cases hrx
    cases hok.symm.trans hrx
    have hmod : rx.mod = l.rx.mod := by rw [mod, hcfg, mod]
    have hpassed : l.passed + l.rx.rxModBase rx.st.rxNext = R' := by
      rw [hi.rxModBase h1 h2 (by rw [hi'.rxNext, hmod, mod_mod])]
      omega
    -- as many rooms were noted as there are outcomes
    have hnoted : l.rooms ++ List.replicate (rx.outcomes.length - l.rx.outcomes.length) (room a) = rooms' := by
      rw [← hc'.length_rooms, ← hc.length_rooms]
      rcases hrooms with rfl | rfl
      · simp
      · simp [List.replicate_one]
    exact ⟨H', M', ds', by rw [hpassed]; exact hi', by rw [hpassed, hnoted]; exact hc'⟩

def segments : List Bytes := [[0xa0, 0, 0, 2, 3], [0x90, 0, 1, 2]]

def fromSegments (l : Reception) : RxAction → Bool
  | .handlePdu _ pdu => l.rx.cfg.snFieldLength = .size12bits && l.passed ≤ 1 && pdu ∈ segments
  | _ => false

lemma genuine_of_fromSegments (l : Reception) (a : RxAction) (h : fromSegments l a = true) :
    Genuine (fun _ => [1, 2, 3]) l a := by
  cases a with
  | handlePdu mem pdu =>
    simp only [fromSegments, segments, Bool.and_eq_true, decide_eq_true_eq, List.mem_cons, List.not_mem_nil, or_false] at h
    obtain ⟨⟨hcfg, hp⟩, hpdu⟩ := h
    have hwin := l.rx.window_ge
    have hpos := l.rx.mod_pos
    refine .inr fun header hread => ⟨0, by omega, by omega, ?_⟩
    rw [hcfg] at hread
    rcases hpdu with rfl | rfl
    · cases hread
      exact ⟨rfl, by decide⟩
    · cases hread
      exact ⟨rfl, by decide⟩
  | _ => cases h

lemma reach_segments : ∃ l, Reach step (Genuine fun _ => [1, 2, 3]) ⟨init exampleConfig, 0, []⟩ l ∧
    decide (l.rx.outcomes = [some [1, 2, 3]] ∧ l.passed = 1 ∧ fromSegments l (.handlePdu none [0x90, 0, 1, 2])) = true :=
  Reach.exists_of_run genuine_of_fromSegments (by decide +kernel : (run step fromSegments _
    ((segments ++ segments).map (.handlePdu (some 8)))).any _ = true)

/-- **No abort.**  The only assertion that PDUs of a transmitter can violate is the one about the duration of a timer. -/
theorem rxAm_returns_or_invalid_timer (hsize : ∀ x, (sdus x).length < 2 ^ 16)
    (h : Reach step (Genuine sdus) ⟨init cfg, 0, []⟩ l) (ht : l.Genuine sdus a) : (∃ l', l.step a = .ok l') ∨
      l.step a = .error (.assertion "Calling timer::run with invalid duration") := by
  obtain ⟨H, M, ds, hi, hc⟩ := content_of_reach hsize h
  rcases returns_step hi hc ht with herr | ⟨rx, hok, -⟩
  · exact .inr (by rw [step, herr]; rfl)
  · exact .inl (by rw [step, hok]; exact ⟨_, rfl⟩)

/-- After an SDU of two segments. -/
theorem rxAm_returns_segments : ∃ l : Reception, l.passed = 1 ∧
    ((∃ l', l.step (.handlePdu none [0x90, 0, 1, 2]) = .ok l') ∨ l.step (.handlePdu none [0x90, 0, 1, 2]) =
      .error (.assertion "Calling timer::run with invalid duration")) := by
  obtain ⟨l, hr, hl⟩ := reach_segments
  obtain ⟨-, hp, ha⟩ := of_decide_eq_true hl
  exact ⟨l, hp, rxAm_returns_or_invalid_timer (fun _ => by decide) hr (genuine_of_fromSegments _ _ ha)⟩

end Reception

end SrsRan.Rlc.RxAm
