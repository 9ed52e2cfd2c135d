import Mathlib.Data.List.TakeWhile
import SrsRan.Rlc.TxAmInvariant

/-!
# Status reports move TX_Next_Ack

What `handle_status_pdu` does to a state that satisfies `TxInv s A N`.  After its checks `ack_sn` stands for some `K` with `A
< K ≤ N + 1`, and every NACK for a range of counters in `[A, K)`.
-/

namespace SrsRan.Rlc.TxAm

open Support Lib.SeqNum Lib.Run List Option Nat

variable {s s' : TxAm} {A N T K : ℕ} {status : StatusPdu}

/-! ### The checks -/

/-- `ack_sn` is the residue of `K`, and each NACK asks for counters in `[A, K)`. -/
structure Accepted (s : TxAm) (status : StatusPdu) (A N K : ℕ) : Prop where
  lt : A < K
  le : K ≤ N + 1
  ack : status.ackSn % s.mod = K % s.mod
  nacks : ∀ n ∈ status.nacks, ∃ x, A ≤ x ∧ x < K ∧ x + n.range ≤ K ∧ n.nackSn % s.mod = x % s.mod

variable {l : List StatusNack} {n m : StatusNack} {x : ℕ}

lemma validNacks_fst {ackSn : ℕ} (h : (s.validNacks ackSn l).1 = true) : ∀ n ∈ l, (s.validNack ackSn n).1 = true := by
  induction l with
  | nil => intro n hn; cases hn
  | cons n rest ih =>
    simp only [validNacks] at h
    split at h
    next hn =>
      intro m hm
      rcases mem_cons.mp hm with rfl | hm
      · exact hn
      · exact ih h m hm
    next hn => exact absurd h hn

lemma validNack_lt {ackSn : ℕ} (h : (s.validNack ackSn n).1 = true) : s.txModBase n.nackSn < s.txModBase ackSn ∧
      (n.hasNackRange = true → s.txModBase (nackRangeLast n) < s.txModBase ackSn) := by
  unfold validNack at h
  split at h
  · cases h
  rename_i h1
  split at h
  · cases h
  rename_i h2
  refine ⟨by omega, fun hr => ?_⟩
  simp only [hr, Bool.true_and, decide_eq_true_eq] at h2
  omega

lemma nackRangeLast_mod (hsn : n.nackSn < s.mod) (hr : 0 < n.nackRange)
    (hr' : n.nackRange < 2 ^ 8) : nackRangeLast n = n.nackSn + (n.nackRange - 1) := by
  have hmod : s.mod ≤ 2 ^ 18 := by
    rw [TxAm.mod]
    cases s.cfg.snFieldLength <;> decide
  unfold nackRangeLast
  omega

/-- **The checks of `handle_status_pdu`** in terms of unwrapped counters. -/
theorem TxWin.accepted (h : TxWin s A N T) (hr : ∀ n ∈ status.nacks, n.InRange s.cfg.snFieldLength)
    (hacc : (s.statusAccepted status).1 = true) : ∃ K, Accepted s status A N K := by
  have hmod := s.mod_eq
  have hwin := s.window_ge
  have htop := h.top_le
  have hle := h.le_top
  unfold statusAccepted at hacc
  split at hacc
  · cases hacc
  rename_i hack
  split at hacc
  · cases hacc
  rename_i hnext
  simp only [Bool.not_eq_true, Bool.not_eq_false', validAckSn, Bool.and_eq_true, decide_eq_true_eq] at hack
  obtain ⟨K, hK1, hK2, hK3, hK4⟩ := h.unwrap status.ackSn
  have hnext' : s.txModBase (s.st.txNext + 1) = N + 1 - A :=
    h.txModBase (by have := h.le; omega) (by omega) (by rw [h.txNext, succ_mod])
  refine ⟨K, by omega, by have := h.le; omega, hK3, ?_⟩
  intro n hn
  obtain ⟨hsn, hrange⟩ := hr n hn
  obtain ⟨h1, h2⟩ := validNack_lt (validNacks_fst hacc n hn)
  obtain ⟨x, hx1, hx2, hx3, hx4⟩ := h.unwrap n.nackSn
  refine ⟨x, hx1, by omega, ?_, hx3⟩
  unfold StatusNack.range
  split
  next hrg =>
    rcases Nat.eq_zero_or_pos n.nackRange with h0 | h0
    · omega
    · have h3 := h2 hrg
      rw [nackRangeLast_mod hsn h0 (by omega), h.txModBase (a := x + (n.nackRange - 1)) (by omega) (by omega)
        (by rw [add_mod, hx3, ← add_mod])] at h3
      omega
  · omega

/-! ### The ACK loop -/

/-- The state after the ACK part of a report, which has removed all SDUs below `A'`. -/
structure AckedTo (s s' : TxAm) (A' T : ℕ) : Prop extends TxRange s' A' T where
  cfg : s'.cfg = s.cfg
  txNext : s'.st.txNext = s.st.txNext
  seg : s'.snUnderSegmentation = s.snUnderSegmentation
  entries : ∀ a, A' ≤ a → a < T →
    (s'.txWindow.get? (a % s.mod)).map TxAmSduInfo.view = (s.txWindow.get? (a % s.mod)).map TxAmSduInfo.view
  sduLog : s'.sduLog = s.sduLog
  queue : ∀ x ∈ s'.sduQueue.queue, x ∈ s.sduQueue.queue

lemma AckedTo.mod (h : AckedTo s s' K T) : s'.mod = s.mod := by rw [TxAm.mod, h.cfg, TxAm.mod]

lemma AckedTo.of_sameCore_left {s0 : TxAm} (hc : SameCore s0 s) (h : AckedTo s s' K T) : AckedTo s0 s' K T where
  toTxRange := h.toTxRange
  cfg := h.cfg.trans hc.cfg
  txNext := h.txNext.trans hc.txNext
  seg := h.seg.trans hc.seg
  entries := fun a h1 h2 => by rw [← hc.mod, h.entries a h1 h2, hc.entries]
  sduLog := h.sduLog.trans hc.sduLog
  queue := fun x hx => hc.queue x (h.queue x hx)

lemma TxRange.of_sameCore (h : TxRange s A T) (hc : SameCore s s') : TxRange s' A T where
  txNextAck := by rw [hc.txNextAck, hc.mod, h.txNextAck]
  start_le := h.start_le
  capacity := by rw [hc.capacity, h.capacity, amWindowSize, amWindowSize, hc.cfg]
  count := by rw [hc.count, h.count]
  mem := by intro k; rw [hc.isSome, hc.mod, h.mem]

lemma AckedTo.of_sameCore_right {s2 : TxAm} (h : AckedTo s s' K T) (hc : SameCore s' s2) : AckedTo s s2 K T where
  toTxRange := h.toTxRange.of_sameCore hc
  cfg := hc.cfg.trans h.cfg
  txNext := hc.txNext.trans h.txNext
  seg := hc.seg.trans h.seg
  entries := fun a h1 h2 => by rw [hc.entries, h.entries a h1 h2]
  sduLog := hc.sduLog.trans h.sduLog
  queue := fun x hx => h.queue x (hc.queue x hx)

lemma TxRange.removeFirst (h : TxRange s A T) (hlt : A < T) :
    AckedTo s { s with txWindow := s.txWindow.erase (A % s.mod),
                       st := { s.st with txNextAck := (A % s.mod + 1) % s.mod } } (A + 1) T := by
  have hmod := s.mod_eq
  have htop := h.top_le
  have hne : ∀ a, A + 1 ≤ a → a < T → a % s.mod ≠ A % s.mod := by
    intro a h1 h2 he
    have := eq_of_mod_eq he (by omega) (by omega : a < A + s.mod) le_rfl (by omega)
    omega
  refine ⟨⟨succ_mod A, hlt, ?_, ?_, ?_⟩, rfl, rfl, rfl, ?_, rfl, fun _ hx => hx⟩
  · exact (CircularMap.capacity_erase _ _).trans h.capacity
  · change (s.txWindow.erase (A % s.mod)).count = T - (A + 1)
    rw [CircularMap.count_erase (h.isSome_of le_rfl hlt), h.count]
    omega
  · intro k
    change ((s.txWindow.erase (A % s.mod)).get? k).isSome ↔ ∃ a, A + 1 ≤ a ∧ a < T ∧ a % s.mod = k
    rw [CircularMap.get?_erase]
    split
    next hk =>
      simp only [isSome_none, Bool.false_eq_true, false_iff]
      rintro ⟨a, h1, h2, h3⟩
      exact hne a h1 h2 (h3.trans hk)
    next hk =>
      rw [h.mem]
      constructor
      · rintro ⟨a, h1, h2, h3⟩
        have : a ≠ A := fun e => hk (by rw [← h3, e])
        exact ⟨a, by omega, h2, h3⟩
      · rintro ⟨a, h1, h2, h3⟩
        exact ⟨a, by omega, h2, h3⟩
  · intro a h1 h2
    change Option.map _ ((s.txWindow.erase (A % s.mod)).get? (a % s.mod)) = _
    rw [CircularMap.get?_erase, if_neg (hne a h1 h2)]

lemma AckedTo.trans {s2 : TxAm} {K' : ℕ} (h : AckedTo s s' K T) (h' : AckedTo s' s2 K' T)
    (hle : K ≤ K') : AckedTo s s2 K' T where
  toTxRange := h'.toTxRange
  cfg := h'.cfg.trans h.cfg
  txNext := h'.txNext.trans h.txNext
  seg := h'.seg.trans h.seg
  entries := fun a h1 h2 => by
    have h3 := h'.entries a h1 h2
    rw [h.mod] at h3
    rw [h3, h.entries a (by omega) h2]
  sduLog := h'.sduLog.trans h.sduLog
  queue := fun x hx => h.queue x (h'.queue x hx)

lemma TxRange.acked_refl (h : TxRange s A T) : AckedTo s s A T :=
  ⟨h, rfl, rfl, rfl, fun _ _ _ => rfl, rfl, fun _ hx => hx⟩

/-- **The ACK loop** removes the SDUs up to the counter `S` that `stop_sn` stands for, or up to the end
of the window. -/
theorem ackLoop_spec (fuel stop : ℕ) (d d' : Option ℕ) {S : ℕ} (h : TxRange s A T) (hS : A ≤ S)
    (hS' : S < A + s.mod) (hstop : stop % s.mod = S % s.mod) (hfuel : S - A ≤ fuel) :
    ∃ r, ackLoop fuel s (A % s.mod) stop d d' = .ok r ∧ AckedTo s r.1 (min S T) T := by
  -- induction on the fuel; TX_Next_Ack moves with the loop, so the distance to `stop_sn` shrinks
  induction fuel generalizing s A d d' with
  | zero =>
    refine ⟨_, rfl, ?_⟩
    rw [show min S T = A by have := h.start_le; omega]
    exact h.acked_refl
  | succ fuel ih =>
    have hle := h.start_le
    have hbase : s.txModBase (A % s.mod) = 0 := by
      rw [h.txModBase (a := A) le_rfl (by omega) (mod_mod _ _), Nat.sub_self]
    have hstop' : s.txModBase stop = S - A := h.txModBase hS hS' hstop
    simp only [ackLoop, hbase, hstop']
    split
    next hlt =>
      rcases hle.lt_or_eq with hT | rfl
      · obtain ⟨info, hinfo⟩ := isSome_iff_exists.mp (h.isSome_of le_rfl hT)
        have hrem : SduWindow.removeSn s.txWindow (A % s.mod) = .ok (s.txWindow.erase (A % s.mod)) := by
          rw [SduWindow.removeSn, SduWindow.hasSn_eq, hinfo]
          rfl
        have hstep := h.removeFirst hT
        set s1 : TxAm := { s with txWindow := s.txWindow.erase (A % s.mod),
                                  st := { s.st with txNextAck := (A % s.mod + 1) % s.mod } }
        have hsn : (A % s.mod + 1) % s1.mod = (A + 1) % s1.mod := succ_mod (m := s.mod) A
        have key : ∀ e e', ∃ r, ackLoop fuel s1 ((A % s.mod + 1) % s1.mod) stop e e' = .ok r ∧
            AckedTo s r.1 (min S T) T := by
          intro e e'
          obtain ⟨r, hr, hack⟩ := ih e e' hstep.toTxRange (by omega)
            (by rw [hstep.mod]; omega) (by rw [hstep.mod]; exact hstop) (by omega)
          rw [hsn]
          exact ⟨r, hr, hstep.trans hack (by omega)⟩
        rw [hinfo]
        simp only [hrem]
        split
        · exact key d (info.pdcpSn.or d')
        · exact key (info.pdcpSn.or d) d'
      · -- the window is empty: "Could not find ACK'ed sn"
        rw [h.get?_eq_none le_rfl (by have := s.mod_pos; omega)]
        refine ⟨_, rfl, ?_⟩
        rw [Nat.min_eq_right hS]
        exact h.acked_refl
    · refine ⟨_, rfl, ?_⟩
      rw [show min S T = A by omega]
      exact h.acked_refl

/-! ### The NACK loop -/

theorem rewindRetxCount_ok (s : TxAm) (sn : ℕ) : ∃ s', s.rewindRetxCount sn = .ok s' := by
  unfold rewindRetxCount
  split
  · exact ⟨_, rfl⟩
  split
  next hsn =>
    rw [SduWindow.hasSn_eq] at hsn
    obtain ⟨info, hinfo⟩ := isSome_iff_exists.mp hsn
    rw [decrementRetxCount, SduWindow.access_of_get? hinfo]
    exact ⟨_, rfl⟩
  · exact ⟨_, rfl⟩

lemma clearRetxQueue_ok (fuel : ℕ) (s : TxAm) : ∃ s', clearRetxQueue fuel s = .ok s' := by
  induction fuel generalizing s with
  | zero => exact ⟨s, rfl⟩
  | succ fuel ih =>
    simp only [clearRetxQueue]
    split
    · exact ⟨s, rfl⟩
    next retx _ =>
      obtain ⟨s1, h1⟩ := s.rewindRetxCount_ok retx.sn
      rw [h1]
      exact ih _

lemma incrementRetxCount_ok {sn : ℕ} (h : (s.txWindow.get? sn).isSome) : ∃ s', s.incrementRetxCount sn = .ok s' := by
  obtain ⟨info, hinfo⟩ := isSome_iff_exists.mp h
  rw [incrementRetxCount, SduWindow.access_of_get? hinfo]
  change ∃ s', checkSnReachedMaxRetx _ sn = .ok s'
  rw [checkSnReachedMaxRetx, SduWindow.access_of_get? (by
    rw [CircularMap.get?_modify, if_pos rfl, hinfo, map_some])]
  exact ⟨_, rfl⟩

lemma rangeItem_nackSn (m : ℕ) (n : StatusNack) (sn : ℕ) : (rangeItem m n sn).nackSn = sn := by
  unfold rangeItem; split <;> rfl

lemma rangeItem_hasNackRange (m : ℕ) (n : StatusNack) (sn : ℕ) : (rangeItem m n sn).hasNackRange = false := by
  unfold rangeItem; split <;> rfl

section Expand

variable (hack : status.ackSn < s.mod) (ha : status.ackSn % s.mod = K % s.mod) (hx : n.nackSn % s.mod = x % s.mod)
  (h1 : x < K) (h2 : x + n.range ≤ K) (h3 : K < x + s.mod)

include hack ha hx h1 h2 h3

lemma expandNack_eq : expandNack s.mod status.ackSn n =
      if n.hasNackRange then (List.range n.nackRange).map fun i => rangeItem s.mod n ((n.nackSn + i) % s.mod)
      else [n] := by
  unfold expandNack
  split
  next hr =>
    rw [StatusNack.range, if_pos hr] at h2
    rw [takeWhile_eq_self_iff.mpr, List.map_map]
    · rfl
    intro y hy
    obtain ⟨i, hi, rfl⟩ := mem_map.mp hy
    rw [mem_range] at hi
    simp only [ne_eq, decide_not, Bool.not_eq_eq_eq_not, Bool.not_true, decide_eq_false_iff_not]
    intro he
    have hmod : (x + i) % s.mod = K % s.mod := by
      rw [← ha, mod_eq_of_lt hack, ← he, add_mod, ← hx, ← add_mod]
    have := eq_of_mod_eq hmod (by omega : x ≤ x + i) (by omega) h1.le h3
    omega
  · rfl

lemma mem_expandNack (hn : n.nackSn < s.mod) (hm : m ∈ expandNack s.mod status.ackSn n) :
    m.hasNackRange = false ∧ ∃ i < n.range, m.nackSn = (x + i) % s.mod := by
  rw [expandNack_eq hack ha hx h1 h2 h3] at hm
  rw [StatusNack.range]
  split at hm
  next hr =>
    obtain ⟨i, hi, rfl⟩ := mem_map.mp hm
    refine ⟨rangeItem_hasNackRange _ _ _, i, ?_, ?_⟩
    · rw [if_pos hr]; exact mem_range.mp hi
    · rw [rangeItem_nackSn, add_mod, hx, ← add_mod]
  next hr =>
    obtain rfl := mem_singleton.mp hm
    refine ⟨by simpa using hr, 0, by rw [if_neg hr]; exact one_pos, ?_⟩
    rw [add_zero, ← hx, mod_eq_of_lt hn]

lemma exists_mem_expandNack {i : ℕ} (hn : n.nackSn < s.mod) (hi : i < n.range) :
    ∃ m ∈ expandNack s.mod status.ackSn n, m.nackSn = (n.nackSn + i) % s.mod := by
  rw [expandNack_eq hack ha hx h1 h2 h3]
  rw [StatusNack.range] at hi
  split at hi
  next hr =>
    rw [if_pos hr]
    exact ⟨_, mem_map.mpr ⟨i, mem_range.mpr hi, rfl⟩, rangeItem_nackSn _ _ _⟩
  next hr =>
    rw [if_neg hr]
    obtain rfl : i = 0 := by omega
    exact ⟨n, mem_singleton.mpr rfl, (mod_eq_of_lt hn).symm⟩

end Expand

lemma handleNack_ok {y : ℕ} (h : TxWin s A N T) (hr : m.hasNackRange = false)
    (hy : y < T) (hyN : y ≤ N) (hy' : N < y + s.mod) (hsn : m.nackSn = y % s.mod) :
    ∃ r, s.handleNack m = .ok r ∧ (r.2 = true → (s.txWindow.get? m.nackSn).isSome) := by
  have hmod := s.mod_eq
  have htop := h.top_le
  have hle := h.le
  have hself : s.txModBase s.st.txNextAck = 0 := h.txModBase_txNextAck
  unfold handleNack
  rw [hself, h.txModBase_txNext, hr]
  rcases lt_or_ge y A with hlt | hge
  · -- below TX_Next_Ack: the distance from TX_Next_Ack exceeds that of TX_Next
    have hbase : s.txModBase m.nackSn = y + s.mod - A := by
      refine h.txModBase (a := y + s.mod) (by omega) (by omega) ?_
      rw [hsn, mod_mod, add_mod_right]
    rw [hbase]
    refine ⟨(s, false), ?_, fun hf => (nomatch hf)⟩
    rw [if_neg Bool.false_ne_true, if_pos (by omega)]
  · have hbase : s.txModBase m.nackSn = y - A := h.txModBase hge (by omega) (by rw [hsn, mod_mod])
    have hin : (s.txWindow.get? m.nackSn).isSome := by
      rw [hsn]
      exact h.isSome_of hge hy
    obtain ⟨info, hinfo⟩ := isSome_iff_exists.mp hin
    rw [hbase, if_neg Bool.false_ne_true, if_neg (by omega), SduWindow.access_of_get? hinfo, ok_bind]
    split
    · exact ⟨_, rfl, fun _ => hin⟩
    · dsimp only
      split
      · exact ⟨_, rfl, fun _ => hin⟩
      · exact ⟨_, rfl, fun _ => hin⟩

lemma handleNack_txNext (h : TxWin s A N N) (hr : m.hasNackRange = false)
    (hsn : m.nackSn = N % s.mod) : s.handleNack m = .error (.nonExistentId (N % s.mod)) := by
  have hmod := s.mod_eq
  have hwin := s.window_pos
  have htop := h.top_le
  have hself : s.txModBase s.st.txNextAck = 0 := h.txModBase_txNextAck
  have hbase : s.txModBase m.nackSn = N - A := h.txModBase h.le (by omega) (by rw [hsn, mod_mod])
  unfold handleNack
  rw [hself, h.txModBase_txNext, hr, hbase, if_neg Bool.false_ne_true, if_neg (by omega), hsn,
    SduWindow.access_of_get?_none (h.get?_eq_none le_rfl (by omega)), error_bind]

/-- The items of an accepted report, in unwrapped counters. -/
def NackItems (s : TxAm) (N : ℕ) (l : List StatusNack) : Prop :=
  ∀ m ∈ l, m.hasNackRange = false ∧ ∃ y, y ≤ N ∧ N < y + s.mod ∧ m.nackSn = y % s.mod

lemma nackLoop_cons (rest : List StatusNack) (prev : Option ℕ) {r : TxAm × Bool}
    (hr : s.handleNack m = .ok r) (hr' : r.2 = true → (s.txWindow.get? m.nackSn).isSome) :
    ∃ s1 prev', SameCore s s1 ∧ nackLoop (m :: rest) s prev = nackLoop rest s1 prev' := by
  have hc := sameCore_handleNack hr
  rw [nackLoop, hr, ok_bind]
  split
  next hif =>
    rw [Bool.and_eq_true] at hif
    have hin := hr' hif.1
    rw [← hc.isSome] at hin
    obtain ⟨s1, hs1⟩ := incrementRetxCount_ok hin
    rw [hs1, ok_bind]
    exact ⟨s1, _, hc.trans (sameCore_incrementRetxCount hs1), rfl⟩
  · exact ⟨r.1, _, hc, rfl⟩

/-- **The NACK loop succeeds** when all its items are in the window or below it. -/
theorem nackLoop_ok {prev : Option ℕ} (h : TxWin s A N T) (hl : NackItems s N l)
    (hne : T = N → ∀ m ∈ l, m.nackSn ≠ N % s.mod) : ∃ s', nackLoop l s prev = .ok s' := by
  induction l generalizing s prev with
  | nil => exact ⟨s, rfl⟩
  | cons m rest ih =>
    obtain ⟨hr, y, hy, hy', hsn⟩ := hl m (by simp)
    have hlt : y < T := by
      rcases h.le_top.lt_or_eq with hlt | rfl
      · omega
      · refine lt_of_le_of_ne hy ?_
        rintro rfl
        exact hne rfl m (by simp) hsn
    obtain ⟨r, hr1, hr2⟩ := handleNack_ok h hr hlt hy hy' hsn
    obtain ⟨s1, prev', hc, he⟩ := nackLoop_cons rest prev hr1 hr2
    rw [he]
    refine ih (h.of_sameCore hc) ?_ ?_
    · intro m' hm'
      rw [hc.mod]
      exact hl m' (by simp [hm'])
    · intro hT m' hm'
      rw [hc.mod]
      exact hne hT m' (by simp [hm'])

/-- **The NACK loop fails** when an item names TX_Next and TX_Next is not in the window. -/
theorem nackLoop_error {prev : Option ℕ} (h : TxWin s A N N) (hl : NackItems s N l)
    (hex : ∃ m ∈ l, m.nackSn = N % s.mod) : nackLoop l s prev = .error (.nonExistentId (N % s.mod)) := by
  induction l generalizing s prev with
  | nil =>
    obtain ⟨m, hm, -⟩ := hex
    cases hm
  | cons m rest ih =>
    obtain ⟨hr, y, hy, hy', hsn⟩ := hl m (by simp)
    rcases hy.lt_or_eq with hlt | rfl
    · obtain ⟨r, hr1, hr2⟩ := handleNack_ok h hr hlt hy hy' hsn
      obtain ⟨s1, prev', hc, he⟩ := nackLoop_cons rest prev hr1 hr2
      rw [he, ← hc.mod]
      refine ih (h.of_sameCore hc) ?_ ?_
      · intro m' hm'
        rw [hc.mod]
        exact hl m' (by simp [hm'])
      rw [hc.mod]
      obtain ⟨m', hm', he'⟩ := hex
      rcases mem_cons.mp hm' with rfl | hm'
      · rw [hsn] at he'
        have := eq_of_mod_eq he' le_rfl (by have := s.mod_pos; omega) hy hy'
        omega
      · exact ⟨m', hm', he'⟩
    · rw [nackLoop, handleNack_txNext h hr hsn, error_bind]

/-! ### The whole report -/

lemma Accepted.stop (ha : Accepted s status A N K) : ∃ S, A ≤ S ∧ S ≤ K ∧
    stopSn status % s.mod = S % s.mod ∧ (S ≤ N ∨ (status.nacks = [] ∧ S = N + 1 ∧ K = N + 1)) := by
  have hle := ha.le
  unfold stopSn
  split
  next hn =>
    refine ⟨K, ha.lt.le, le_rfl, ha.ack, ?_⟩
    rcases lt_or_ge N K with h | h
    · exact .inr ⟨hn, by omega, by omega⟩
    · exact .inl h
  next n l hn =>
    obtain ⟨x, h1, h2, -, h4⟩ := ha.nacks n (by rw [hn]; simp)
    exact ⟨x, h1, h2.le, h4, .inl (by omega)⟩

lemma processStatus_eq {S : ℕ} (h : TxWin s A N T) (hS : A ≤ S) (hS' : S ≤ N + 1)
    (hstop : stopSn status % s.mod = S % s.mod) (l : Option ℕ) :
    ∃ s1, AckedTo s s1 (min S T) T ∧ s.processStatus status l =
      (nackLoop (status.nacks.flatMap (expandNack s1.mod status.ackSn)) s1 none >>= fun s2 =>
        .ok (s2.updateMacBufferState l true)) := by
  have hmod := s.mod_eq
  have hwin := s.window_ge
  have htop := h.top_le
  have hleT := h.le_top
  unfold processStatus
  -- stopping the timer is invisible to the window
  generalize hs0 : (if s.txModBase s.st.pollSn < s.txModBase status.ackSn then
    { s with pollRetransmitTimerRunning := false } else s) = s0
  have hc0 : SameCore s s0 := by
    rw [← hs0]
    split
    · exact .of_frame rfl
    · exact SameCore.refl s
  have hrange := h.toTxRange.of_sameCore hc0
  have hmod0 := hc0.mod
  obtain ⟨r, hr, hack⟩ := ackLoop_spec s0.mod (stopSn status) none none hrange hS
    (by omega) (by rw [hmod0]; exact hstop) (by omega)
  rw [← hrange.txNextAck] at hr
  obtain ⟨s2, hs2⟩ := clearRetxQueue_ok (r.1.notifyDelivered r.2.1 r.2.2).retxQueue.size
    (r.1.notifyDelivered r.2.1 r.2.2)
  refine ⟨{ s2 with retxSn := none }, ?_, ?_⟩
  · refine (hack.of_sameCore_left hc0).of_sameCore_right ?_
    exact ((sameCore_notifyDelivered _ _ _).trans (sameCore_clearRetxQueue hs2)).trans (.of_frame rfl)
  · simp only [hr, ok_bind, hs2]

lemma Accepted.items (ha : Accepted s status A N K) (h : TxWin s A N T)
    (hr : ∀ n ∈ status.nacks, n.InRange s.cfg.snFieldLength) (hack : status.ackSn < s.mod) :
    NackItems s N (status.nacks.flatMap (expandNack s.mod status.ackSn)) := by
  have hmod := s.mod_eq
  have htop := h.top_le
  have hleT := h.le_top
  have hwin := s.window_ge
  intro m hm
  obtain ⟨n, hn, hm⟩ := mem_flatMap.mp hm
  obtain ⟨x, h1, h2, h3, h4⟩ := ha.nacks n hn
  have hle := ha.le
  obtain ⟨h5, i, hi, h6⟩ := mem_expandNack hack ha.ack h4 h2 h3 (by omega) (hr n hn).nackSn_lt hm
  exact ⟨h5, x + i, by omega, by omega, h6⟩

/-- The report NACKs TX_Next. -/
def nacksTxNext (s : TxAm) (status : StatusPdu) : Prop :=
  ∃ n ∈ status.nacks, ∃ i < n.range, (n.nackSn + i) % s.mod = s.st.txNext

instance (s : TxAm) (status : StatusPdu) : Decidable (s.nacksTxNext status) := by
  unfold nacksTxNext; infer_instance

lemma Accepted.exists_item (ha : Accepted s status A N K) (h : TxWin s A N T)
    (hr : ∀ n ∈ status.nacks, n.InRange s.cfg.snFieldLength) (hack : status.ackSn < s.mod) :
    (∃ m ∈ status.nacks.flatMap (expandNack s.mod status.ackSn), m.nackSn = N % s.mod) ↔
      s.nacksTxNext status := by
  have hmod := s.mod_eq
  have htop := h.top_le
  have hleT := h.le_top
  have hwin := s.window_ge
  have hle := ha.le
  unfold nacksTxNext
  rw [h.txNext]
  constructor
  · rintro ⟨m, hm, he⟩
    obtain ⟨n, hn, hm⟩ := mem_flatMap.mp hm
    obtain ⟨x, h1, h2, h3, h4⟩ := ha.nacks n hn
    obtain ⟨-, i, hi, h6⟩ := mem_expandNack hack ha.ack h4 h2 h3 (by omega) (hr n hn).nackSn_lt hm
    exact ⟨n, hn, i, hi, by rw [← he, h6, add_mod, h4, ← add_mod]⟩
  · rintro ⟨n, hn, i, hi, he⟩
    obtain ⟨x, h1, h2, h3, h4⟩ := ha.nacks n hn
    obtain ⟨m, hm, hm'⟩ := exists_mem_expandNack hack ha.ack h4 h2 h3 (by omega) (hr n hn).nackSn_lt hi
    exact ⟨m, mem_flatMap.mpr ⟨n, hn, hm⟩, by rw [hm', he]⟩

/-- The report acknowledges the SDU under segmentation. -/
def overtakes (s : TxAm) (status : StatusPdu) : Prop :=
  (s.statusAccepted status).1 = true ∧ s.snUnderSegmentation.isSome ∧ status.nacks = [] ∧
    s.txModBase status.ackSn = s.txModBase (s.st.txNext + 1)

instance (s : TxAm) (status : StatusPdu) : Decidable (s.overtakes status) := by
  unfold overtakes; infer_instance

lemma AckedTo.txInv {A' : ℕ} (h : TxInv s A N) (ha : AckedTo s s' A' (s.top N)) (hle : A' ≤ N) : TxInv s' A' N where
  toTxWin := by
    have htop : s'.top N = s.top N := by rw [TxAm.top, ha.seg, TxAm.top]
    rw [htop]
    exact ⟨ha.toTxRange, by rw [ha.txNext, h.txNext, ha.mod], hle, h.le_top, by rw [ha.sduLog, h.log],
      fun x hx => h.queue_ne x (ha.queue x hx)⟩
  seg := by rw [ha.seg, ha.mod]; exact h.seg
  progress := by
    intro info hs hg
    rw [ha.seg] at hs
    rw [ha.mod] at hg
    have he := ha.entries N hle (by rw [TxAm.top, if_pos hs]; omega)
    rw [hg, map_some] at he
    obtain ⟨i, hi, hv⟩ := map_eq_some_iff.mp he.symm
    simp only [TxAmSduInfo.view, Prod.mk.injEq] at hv
    rw [← hv.1, ← hv.2]
    exact h.progress i hs hi

/-- The numbers of the report fit into their fields. -/
structure StatusInRange (s : TxAm) (status : StatusPdu) : Prop where
  ack : status.ackSn < s.mod
  nacks : ∀ n ∈ status.nacks, n.InRange s.cfg.snFieldLength

lemma StatusInRange.of_unpack {bytes : Bytes}
    (h : StatusPdu.unpack s.cfg.snFieldLength bytes = some status) : StatusInRange s status :=
  ⟨(StatusPdu.unpack_inRange h).2.1, (StatusPdu.unpack_inRange h).2.2⟩

lemma TxInv.acked (h : TxInv s A N) (hr : StatusInRange s status)
    (hacc : (s.statusAccepted status).1 = true) (ho : ¬ s.overtakes status) (l : Option ℕ) :
    ∃ A' s1, A ≤ A' ∧ A' ≤ N ∧ AckedTo s s1 A' (s.top N) ∧ s.processStatus status l =
      (nackLoop (status.nacks.flatMap (expandNack s.mod status.ackSn)) s1 none >>= fun s2 =>
        .ok (s2.updateMacBufferState l true)) := by
  obtain ⟨K, ha⟩ := h.toTxWin.accepted hr.nacks hacc
  obtain ⟨S, hS1, hS2, hS3, hS4⟩ := ha.stop
  have hle := ha.le
  have hmod := s.mod_eq
  have hwin := s.window_ge
  have hleT := h.le_top
  have htop := h.top_le
  have hAN := h.le
  obtain ⟨s1, h1, h2⟩ := processStatus_eq h.toTxWin hS1 (hS2.trans hle) hS3 l
  refine ⟨min S (s.top N), s1, by omega, ?_, h1, by rw [h2, h1.mod]⟩
  rcases hS4 with h3 | ⟨h3, h4, h5⟩
  · omega
  · -- without NACKs `ack_sn` may exceed TX_Next by one, but then nothing is under segmentation
    have hseg : ¬ s.snUnderSegmentation.isSome := by
      intro hseg
      refine ho ⟨hacc, hseg, h3, ?_⟩
      rw [h.txModBase (a := N + 1) (by omega) (by omega) (by rw [ha.ack, h5]),
        h.txModBase (a := N + 1) (by omega) (by omega) (by rw [h.txNext, succ_mod])]
    rw [TxAm.top, if_neg hseg]
    omega

/-- **`handle_status_pdu` keeps the window invariant** unless the report overtakes the segmentation. -/
theorem TxInv.of_handleStatusPdu {l : Option ℕ} (h : TxInv s A N) (hr : StatusInRange s status)
    (ho : ¬ s.overtakes status) (hs : s.handleStatusPdu status l = .ok s') : ∃ A', A ≤ A' ∧ TxInv s' A' N := by
  unfold handleStatusPdu at hs
  dsimp only at hs
  split at hs
  next hacc =>
    obtain ⟨A', s1, h1, h2, h3, h4⟩ := h.acked hr hacc ho l
    rw [h4] at hs
    obtain ⟨s2, h5, h6⟩ := bind_eq_ok.mp hs
    cases h6
    refine ⟨A', h1, (h3.txInv h h2).of_sameCore ?_⟩
    exact (sameCore_nackLoop h5).trans (sameCore_updateMacBufferState _ _ _)
  · cases hs
    refine ⟨A, le_rfl, h.of_sameCore ?_⟩
    split
    · exact sameCore_notify _ _
    · exact SameCore.refl s

lemma TxInv.of_overtakes {l : Option ℕ} (h : TxInv s A N) (hr : StatusInRange s status)
    (ho : s.overtakes status) (hs : s.handleStatusPdu status l = .ok s') : AckedTo s s' (N + 1) (N + 1) := by
  obtain ⟨hacc, hseg, hn, hbase⟩ := ho
  have hmod := s.mod_eq
  have hwin := s.window_ge
  have htopeq : s.top N = N + 1 := by rw [TxAm.top, if_pos hseg]
  have htop := h.top_le
  have hAN := h.le
  obtain ⟨K, ha⟩ := h.toTxWin.accepted hr.nacks hacc
  have hle := ha.le
  have hlt := ha.lt
  have hK : K = N + 1 := by
    rw [h.txModBase (a := K) (by omega) (by omega) ha.ack,
      h.txModBase (a := N + 1) (by omega) (by omega) (by rw [h.txNext, succ_mod])] at hbase
    omega
  have hstop : stopSn status % s.mod = (N + 1) % s.mod := by
    rw [stopSn, hn, ← hK]
    exact ha.ack
  obtain ⟨s1, h1, h2⟩ := processStatus_eq h.toTxWin (by omega) le_rfl hstop l
  rw [htopeq, Nat.min_self] at h1
  unfold handleStatusPdu at hs
  dsimp only at hs
  rw [if_pos hacc, h2, hn] at hs
  cases hs
  exact h1.of_sameCore_right (sameCore_updateMacBufferState _ _ _)

/-- **When `handle_status_pdu` accesses a missing entry.** -/
theorem TxInv.handleStatusPdu_error (h : TxInv s A N) (hr : StatusInRange s status) (l : Option ℕ)
    (e : Abort) : s.handleStatusPdu status l = .error e ↔
      e = .nonExistentId s.st.txNext ∧ (s.statusAccepted status).1 = true ∧
        s.snUnderSegmentation = none ∧ s.nacksTxNext status := by
  unfold handleStatusPdu
  dsimp only
  split
  next hacc =>
    obtain ⟨K, ha⟩ := h.toTxWin.accepted hr.nacks hacc
    by_cases ho : s.overtakes status
    · -- no NACKs at all
      obtain ⟨-, hseg, hn, -⟩ := ho
      obtain ⟨S, hS1, hS2, hS3, -⟩ := ha.stop
      obtain ⟨s1, -, h2⟩ := processStatus_eq h.toTxWin hS1 (hS2.trans ha.le) hS3 l
      rw [h2, hn]
      simp [nacksTxNext, hn, nackLoop, ok_bind]
    · obtain ⟨A', s1, h1, h2, h3, h4⟩ := h.acked hr hacc ho l
      have hinv := h3.txInv h h2
      have hitems := ha.items h.toTxWin hr.nacks hr.ack
      have hex := ha.exists_item h.toTxWin hr.nacks hr.ack
      rw [h4]
      by_cases hcrash : s.snUnderSegmentation = none ∧ s.nacksTxNext status
      · have hwin : TxWin s1 A' N N := hinv.win (by rw [h3.seg]; exact hcrash.1)
        rw [nackLoop_error hwin (by unfold NackItems; rw [h3.mod]; exact hitems)
          (by rw [h3.mod]; exact hex.mpr hcrash.2), error_bind, h3.mod, h.txNext]
        simp [hacc, hcrash, eq_comm]
      · have hok : ∃ s', nackLoop (status.nacks.flatMap (expandNack s.mod status.ackSn)) s1 none = .ok s' := by
          refine nackLoop_ok hinv.toTxWin (by unfold NackItems; rw [h3.mod]; exact hitems) ?_
          intro hT m hm he
          refine hcrash ⟨?_, hex.mp ⟨m, hm, by rw [he, h3.mod]⟩⟩
          rw [TxAm.top, h3.seg] at hT
          by_contra hne
          rw [if_pos (isSome_iff_ne_none.mpr hne)] at hT
          omega
        obtain ⟨s2, hs2⟩ := hok
        rw [hs2, ok_bind]
        simp only [reduceCtorEq, false_iff, not_and]
        intro _ _ h5 h6
        exact hcrash ⟨h5, h6⟩
  next hacc => simp [hacc]

end SrsRan.Rlc.TxAm
