import SrsRan.Rlc.RxAmSystem

/-!
# Trimming the status report of the RLC AM receiver

The NACKs of a report are ordered by the distance of their SNs from RX_Next (`Ordered`): a NACK ends at the latest where the
next one begins, and it can end at that very SN.  `trim` compares the first SNs of the NACKs only, so when it gives up the
second one the range stays, and covers the SN that becomes ACK_SN.
-/

namespace SrsRan.Rlc

open Support Lib.SeqNum Lib.Run List Nat

/-- The NACK names the number. -/
def StatusNack.Covers (m : ℕ) (n : StatusNack) (sn : ℕ) : Prop := ∃ i < n.range, (n.nackSn + i) % m = sn

/-- The NACK names the byte of the SDU as missing. -/
def StatusNack.Reports (m : ℕ) (n : StatusNack) (sn b : ℕ) : Prop :=
  ∃ i < n.range, (n.nackSn + i) % m = sn ∧
    (n.hasSo = true → (i = 0 → n.soStart ≤ b) ∧ (i + 1 = n.range → n.soEnd = soEndOfSdu ∨ b ≤ n.soEnd))

/-- The range of `a` ends with the number of `b`. -/
def StatusNack.EndsAt (m : ℕ) (a b : StatusNack) : Prop := 1 < a.range ∧ (a.nackSn + a.range - 1) % m = b.nackSn

lemma StatusNack.Reports.covers {m sn b : ℕ} {n : StatusNack} (h : n.Reports m sn b) : n.Covers m sn := by
  obtain ⟨i, hi, hsn, -⟩ := h
  exact ⟨i, hi, hsn⟩

/-! ### The loop of `trim` -/

section Trim

open StatusPdu

variable {snSize : AmSnSize} {cap : ℕ}

lemma nacksSize_cons (n : StatusNack) (l : List StatusNack) :
    nacksSize snSize (n :: l) = nackSize snSize n + nacksSize snSize l := by
  rw [nacksSize, map_cons, sum_cons]
  rfl

lemma nackSize_pos (snSize : AmSnSize) (n : StatusNack) : 0 < nackSize snSize n := by
  cases snSize <;> simp [nackSize]

lemma trimLoop_cases (hmax : statusPduSizeofHeaderAckSn ≤ cap) (l : List StatusNack) :
    ∀ size ack, size = statusPduSizeofHeaderAckSn + nacksSize snSize l →
      (trimLoop snSize cap l size ack).2.1 ≤ cap ∧
      (trimLoop snSize cap l size ack = (l, size, ack) ∧ (∀ k ∈ l.head?, k.nackSn ≠ ack) ∨
        ∃ pre n, l = pre ++ n :: (trimLoop snSize cap l size ack).1 ∧
          (trimLoop snSize cap l size ack).2.2 = n.nackSn ∧
          ∀ k ∈ (trimLoop snSize cap l size ack).1.head?, k.nackSn ≠ n.nackSn) := by
  induction l with
  | nil =>
    intro size ack hsize
    refine ⟨?_, .inl ⟨rfl, fun k hk => ?_⟩⟩
    · rw [trimLoop, hsize]
      exact hmax
    · cases hk
  | cons n rest ih =>
    intro size ack hsize
    rw [nacksSize_cons] at hsize
    rw [trimLoop]
    split
    · obtain ⟨hle, heq | ⟨pre, k, h1, h2⟩⟩ := ih (size - nackSize snSize n) n.nackSn (by omega)
      · refine ⟨hle, .inr ⟨[], n, ?_, ?_, ?_⟩⟩
        all_goals rw [heq.1]
        · rfl
        · exact heq.2
      · refine ⟨hle, .inr ⟨n :: pre, k, ?_, h2⟩⟩
        rw [cons_append, ← h1]
    next hstop =>
      rw [not_or, not_lt] at hstop
      refine ⟨hstop.1, .inl ⟨rfl, fun k hk => ?_⟩⟩
      cases hk
      exact hstop.2

lemma trimLoop_exact {b : StatusNack} {q : List StatusNack} (hq : ∀ k ∈ q.head?, k.nackSn ≠ b.nackSn)
    (p : List StatusNack) :
    ∀ size ack, size = statusPduSizeofHeaderAckSn + nacksSize snSize (p ++ b :: q) →
      trimLoop snSize (statusPduSizeofHeaderAckSn + nacksSize snSize q) (p ++ b :: q) size ack =
        (q, statusPduSizeofHeaderAckSn + nacksSize snSize q, b.nackSn) := by
  induction p with
  | nil =>
    intro size ack hsize
    have hb := nackSize_pos snSize b
    rw [nil_append, nacksSize_cons] at hsize
    rw [nil_append, trimLoop, if_pos (.inl (by omega)),
      show size - nackSize snSize b = statusPduSizeofHeaderAckSn + nacksSize snSize q by omega]
    cases q with
    | nil => rfl
    | cons k q => exact if_neg (not_or.mpr ⟨lt_irrefl _, hq k rfl⟩)
  | cons n p ih =>
    intro size ack hsize
    have hb := nackSize_pos snSize b
    rw [cons_append, nacksSize_cons, nacksSize_append, nacksSize_cons] at hsize
    rw [cons_append, trimLoop, if_pos (.inl (by omega))]
    exact ih _ _ (by rw [nacksSize_append, nacksSize_cons]; omega)

lemma trim_of_lt {s : StatusPdu} (hmax : statusPduSizeofHeaderAckSn ≤ cap)
    (hlt : cap < s.packedSize) : ∃ t, s.trim cap = some t ∧
      trimLoop s.snSize cap s.nacks.reverse s.packedSize s.ackSn = (t.nacks.reverse, t.packedSize, t.ackSn) := by
  unfold StatusPdu.trim
  rw [if_neg (not_le.mpr hlt), if_neg (not_lt.mpr hmax)]
  refine ⟨_, rfl, ?_⟩
  rw [reverse_reverse]

lemma size_reverse (s : StatusPdu) :
    s.packedSize = statusPduSizeofHeaderAckSn + nacksSize s.snSize s.nacks.reverse := by
  rw [s.packedSize_eq, nacksSize, nacksSize, map_reverse, sum_reverse]

/-- **What `trim` leaves**: the report itself, or the NACKs in front of the one whose SN becomes ACK_SN. -/
theorem trim_cases (s : StatusPdu) (hmax : statusPduSizeofHeaderAckSn ≤ cap) :
    ∃ t, s.trim cap = some t ∧ t.packedSize ≤ cap ∧ (t = s ∨
      ∃ n rest, s.nacks = t.nacks ++ n :: rest ∧ t.ackSn = n.nackSn ∧ ∀ k ∈ t.nacks.getLast?, k.nackSn ≠ n.nackSn) := by
  rcases lt_or_ge cap s.packedSize with hlt | hfit
  · obtain ⟨t, ht, hloop⟩ := trim_of_lt hmax hlt
    have hcases := trimLoop_cases hmax s.nacks.reverse s.packedSize s.ackSn (size_reverse s)
    rw [hloop] at hcases
    obtain ⟨hle, heq | ⟨pre, n, h1, h2, h3⟩⟩ := hcases
    · rw [← (Prod.mk.inj (Prod.mk.inj heq.1).2).1] at hlt
      exact absurd hle (not_le.mpr hlt)
    · refine ⟨t, ht, hle, .inr ⟨n, pre.reverse, ?_, h2, ?_⟩⟩
      · rw [← reverse_inj, h1]
        simp
      · rw [← head?_reverse]
        exact h3
  · refine ⟨s, ?_, hfit, .inl rfl⟩
    rw [StatusPdu.trim, if_pos hfit]

lemma trim_exact {s : StatusPdu} {pre post : List StatusNack} {a b : StatusNack}
    (hs : s.nacks = pre ++ a :: b :: post) (hab : a.nackSn ≠ b.nackSn) :
    ∃ t, s.trim (statusPduSizeofHeaderAckSn + nacksSize s.snSize (pre ++ [a])) = some t ∧ a ∈ t.nacks ∧
      t.ackSn = b.nackSn := by
  have hrev : s.nacks.reverse = post.reverse ++ b :: (a :: pre.reverse) := by
    rw [hs]
    simp
  have hsum : nacksSize s.snSize (pre ++ [a]) = nacksSize s.snSize (a :: pre.reverse) := by
    rw [nacksSize_append, nacksSize_singleton, nacksSize_cons, nacksSize, nacksSize, map_reverse, sum_reverse, add_comm]
  have hsize := size_reverse s
  rw [hrev] at hsize
  obtain ⟨t, ht, hloop⟩ := trim_of_lt (s := s) (Nat.le_add_right _ (nacksSize s.snSize (pre ++ [a]))) (by
    have := nackSize_pos s.snSize b
    rw [nacksSize_append, nacksSize_cons] at hsize
    omega)
  rw [hrev, hsum, trimLoop_exact (fun k hk => by cases hk; exact hab) _ _ _ hsize] at hloop
  obtain ⟨h1, h2⟩ := Prod.mk.inj hloop
  refine ⟨t, ht, ?_, (Prod.mk.inj h2).2.symm⟩
  rw [← mem_reverse, ← h1]
  exact mem_cons_self

end Trim

/-! ### The order of the NACKs -/

/-- NACKs in the order of the distances `d` of their SNs, below `B`. -/
structure Ordered (m : ℕ) (d : ℕ → ℕ) (B : ℕ) (l : List StatusNack) : Prop where
  sn_lt : ∀ n ∈ l, n.nackSn < m
  range_pos : ∀ n ∈ l, 0 < n.range
  order : l.Pairwise fun a b => d a.nackSn + a.range ≤ d b.nackSn + 1
  le_bound : ∀ n ∈ l, d n.nackSn + n.range ≤ B

lemma Ordered.nil {m B : ℕ} {d : ℕ → ℕ} : Ordered m d B [] := by
  refine ⟨?_, ?_, List.Pairwise.nil, ?_⟩ <;> simp

lemma Ordered.mono {m B B' : ℕ} {d : ℕ → ℕ} {l : List StatusNack} (h : Ordered m d B l) (hB : B ≤ B') : Ordered m d B' l :=
  { h with le_bound := fun n hn => (h.le_bound n hn).trans hB }

/-- **`push_nack`** keeps the order, also when it merges. -/
theorem Ordered.pushNack {d : ℕ → ℕ} {y : ℕ} {status : StatusPdu} {nack : StatusNack}
    (hd : ∀ sn i, d sn + i < status.snSize.mod → d ((sn + i) % status.snSize.mod) = d sn + i)
    (h : Ordered status.snSize.mod d (y + 1) status.nacks) (hy : y + 1 < status.snSize.mod)
    (hsn : nack.nackSn < status.snSize.mod) (hdist : d nack.nackSn = y) (hr : nack.range = 1) :
    Ordered status.snSize.mod d (y + 1) (status.pushNack nack).nacks := by
  obtain ⟨he, -⟩ | ⟨prev, hsplit, hm, he⟩ := status.pushNack_nacks nack
  · rw [he]
    refine ⟨?_, ?_, pairwise_append.mpr ⟨h.order, pairwise_singleton _ _, ?_⟩, ?_⟩
    · simpa [or_imp, forall_and] using ⟨h.sn_lt, hsn⟩
    · simpa [or_imp, forall_and, hr] using h.range_pos
    · intro a ha b hb
      rw [mem_singleton.mp hb, hdist]
      exact h.le_bound a ha
    · simpa [or_imp, forall_and, hr, hdist] using h.le_bound
  · -- the merged NACK begins where `prev` does and ends with the new SN
    have hdrop : ∀ n ∈ status.nacks.dropLast, n ∈ status.nacks := fun n => mem_of_mem_dropLast
    have hprev : prev ∈ status.nacks := by
      rw [hsplit]
      simp
    have hbound := h.le_bound prev hprev
    obtain ⟨hnext, -⟩ := canBeMerged_iff.mp hm
    have hend : d prev.nackSn + prev.range = y := by
      rw [← hdist, hnext, hd _ _ (by omega)]
    have horder := h.order
    rw [hsplit, pairwise_append] at horder
    have hrange := range_mergeNack prev nack
    rw [he]
    refine ⟨?_, ?_, pairwise_append.mpr ⟨horder.1, pairwise_singleton _ _, ?_⟩, ?_⟩
    · intro n hn
      obtain hn | hn := mem_append.mp hn
      · exact h.sn_lt n (hdrop n hn)
      · rw [mem_singleton.mp hn]
        exact h.sn_lt prev hprev
    · intro n hn
      obtain hn | hn := mem_append.mp hn
      · exact h.range_pos n (hdrop n hn)
      · rw [mem_singleton.mp hn]
        omega
    · intro a ha b hb
      rw [mem_singleton.mp hb]
      exact horder.2.2 a ha prev (mem_singleton_self _)
    · intro n hn
      obtain hn | hn := mem_append.mp hn
      · exact h.le_bound n (hdrop n hn)
      · rw [mem_singleton.mp hn, hrange, hr]
        exact le_of_eq (congrArg (· + 1) hend)

namespace RxAm

variable {s r : RxAm}

lemma rxModBase_add_rxNext (s : RxAm) (sn : ℕ) : (s.rxModBase sn + s.st.rxNext) % s.mod = sn % s.mod :=
  modSub_add_base (Nat.two_pow_pos 32) (AmSnSize.mod_dvd _) _ _

lemma rxModBase_add {sn i : ℕ} (h : s.rxModBase sn + i < s.mod) : s.rxModBase ((sn + i) % s.mod) = s.rxModBase sn + i := by
  refine modSub_eq_of_add_mod (m := s.mod) (Nat.two_pow_pos 32) (AmSnSize.mod_dvd _) h ?_
  rw [mod_mod, add_right_comm, add_mod, s.rxModBase_add_rxNext, ← add_mod]

lemma rxModBase_inj {a b : ℕ} (ha : a < s.mod) (hb : b < s.mod) (h : s.rxModBase a = s.rxModBase b) : a = b := by
  rw [← mod_eq_of_lt ha, ← mod_eq_of_lt hb, ← s.rxModBase_add_rxNext a, h, s.rxModBase_add_rxNext]

lemma rxModBase_lt (sn : ℕ) : s.rxModBase sn < s.mod := modSub_lt s.mod_pos _ _

lemma segmentNacks_sn {sn : ℕ} : ∀ {l : List SduSegment} {lastSo : ℕ} {haveLast : Bool} {nacks : List StatusNack},
    segmentNacks sn lastSo haveLast l = .ok nacks → ∀ n ∈ nacks, n.nackSn = sn ∧ n.range = 1 := by
  intro l
  induction l with
  | nil =>
    intro lastSo haveLast nacks h n hn
    cases h
    cases haveLast with
    | true => cases hn
    | false =>
      rw [mem_singleton.mp hn]
      exact ⟨rfl, rfl⟩
  | cons segm rest ih =>
    intro lastSo haveLast nacks h n hn
    rw [segmentNacks] at h
    split at h
    · cases h
    · obtain ⟨l, hl, h⟩ := bind_eq_ok.mp h
      cases h
      split at hn
      · obtain rfl | hn := mem_cons.mp hn
        · exact ⟨rfl, rfl⟩
        · exact ih hl n hn
      · exact ih hl n hn

lemma nacksFor_sn {sn : ℕ} {nacks : List StatusNack} (h : s.nacksFor sn = .ok nacks) :
    ∀ n ∈ nacks, n.nackSn = sn ∧ n.range = 1 := by
  unfold nacksFor at h
  split at h
  · cases h
    intro n hn
    rw [mem_singleton.mp hn]
    exact ⟨rfl, rfl⟩
  · split at h
    · cases h
      intro n hn
      cases hn
    · split at h
      · exact segmentNacks_sn h
      · cases h

lemma ordered_foldl {sn : ℕ} (hlt : sn < s.mod) (hy : s.rxModBase sn + 1 < s.mod) {nacks : List StatusNack}
    (hn : ∀ n ∈ nacks, n.nackSn = sn ∧ n.range = 1) : ∀ {status : StatusPdu}, status.snSize = s.cfg.snFieldLength →
    Ordered s.mod s.rxModBase (s.rxModBase sn + 1) status.nacks →
      (nacks.foldl StatusPdu.pushNack status).snSize = s.cfg.snFieldLength ∧
        Ordered s.mod s.rxModBase (s.rxModBase sn + 1) (nacks.foldl StatusPdu.pushNack status).nacks := by
  induction nacks with
  | nil => exact fun hs h => ⟨hs, h⟩
  | cons n rest ih =>
    intro status hs h
    obtain ⟨h1, h2⟩ := hn n mem_cons_self
    refine ih (fun k hk => hn k (mem_cons_of_mem _ hk)) ((status.pushNack_snSize n).trans hs) ?_
    have hmod : status.snSize.mod = s.mod := congrArg AmSnSize.mod hs
    rw [← hmod] at h hy hlt ⊢
    exact h.pushNack (fun sn i hi => hmod ▸ rxModBase_add (hmod ▸ hi)) hy (h1 ▸ hlt) (by rw [h1]) h2

lemma statusLoop_ordered {stopSn : ℕ} : ∀ {fuel sn : ℕ} {status status' : StatusPdu}, sn < s.mod →
    s.rxModBase sn ≤ s.rxModBase stopSn → status.snSize = s.cfg.snFieldLength →
    Ordered s.mod s.rxModBase (s.rxModBase sn) status.nacks → s.statusLoop stopSn fuel sn status = .ok status' →
      Ordered s.mod s.rxModBase (s.rxModBase stopSn) status'.nacks := by
  intro fuel
  induction fuel with
  | zero =>
    intro sn status status' hlt hle hs h heq
    cases heq
    exact h.mono hle
  | succ fuel ih =>
    intro sn status status' hlt hle hs h heq
    rw [statusLoop] at heq
    split at heq
    next hstop =>
      obtain ⟨nacks, hnacks, heq⟩ := bind_eq_ok.mp heq
      have hy : s.rxModBase sn + 1 < s.mod := lt_of_le_of_lt hstop (rxModBase_lt stopSn)
      have hnext : s.rxModBase ((sn + 1) % s.mod) = s.rxModBase sn + 1 := rxModBase_add hy
      obtain ⟨h1, h2⟩ := ordered_foldl hlt hy (nacksFor_sn hnacks) hs (h.mono (le_succ _))
      exact ih (mod_lt _ s.mod_pos) (hnext ▸ hstop) h1 (hnext ▸ h2) heq
    · cases heq
      exact h.mono hle

/-- **The NACKs of a report** are ordered, and below ACK_SN. -/
theorem report_ordered (hlt : s.st.rxNext < s.mod) (h : s.refreshStatusReport = .ok r) :
    Ordered s.mod s.rxModBase (s.rxModBase r.statusForExchange.ackSn) r.statusForExchange.nacks := by
  obtain ⟨status, hloop, rfl⟩ := refreshStatusReport_eq h
  have hzero : s.rxModBase s.st.rxNext = 0 :=
    modSub_eq_of_add_mod (m := s.mod) (Nat.two_pow_pos 32) (AmSnSize.mod_dvd _) s.mod_pos (by rw [zero_add])
  change Ordered s.mod s.rxModBase (s.rxModBase s.statusStopSn) status.nacks
  exact statusLoop_ordered hlt (hzero ▸ Nat.zero_le _) rfl .nil hloop

/-- What is expected of a trimmed report. -/
structure Trimmed (s : RxAm) (before after : StatusPdu) (maxPackedSize : ℕ) : Prop where
  size_le : after.packedSize ≤ maxPackedSize
  below : ∀ n ∈ after.nacks, ∀ sn, n.Covers s.mod sn → s.rxModBase sn < s.rxModBase after.ackSn
  same : ∀ sn b, s.rxModBase sn < s.rxModBase after.ackSn →
    ((∃ n ∈ after.nacks, n.Reports s.mod sn b) ↔ ∃ n ∈ before.nacks, n.Reports s.mod sn b)

section Report

variable {report : StatusPdu} {B : ℕ}

lemma dist_of_covers {n : StatusNack} {sn : ℕ} (hn : s.rxModBase n.nackSn + n.range < s.mod) (h : n.Covers s.mod sn) :
    s.rxModBase n.nackSn ≤ s.rxModBase sn ∧ s.rxModBase sn < s.rxModBase n.nackSn + n.range := by
  obtain ⟨i, hi, rfl⟩ := h
  rw [rxModBase_add (by omega)]
  omega

lemma le_of_not_endsAt {a b : StatusNack} (ha : s.rxModBase a.nackSn + a.range < s.mod) (hb : b.nackSn < s.mod)
    (hlt : a.nackSn < s.mod) (hpos : 0 < a.range) (horder : s.rxModBase a.nackSn + a.range ≤ s.rxModBase b.nackSn + 1)
    (hne : a.nackSn ≠ b.nackSn) (hends : ¬ a.EndsAt s.mod b) :
    s.rxModBase a.nackSn + a.range ≤ s.rxModBase b.nackSn := by
  by_contra hgt
  have hlast : s.rxModBase ((a.nackSn + (a.range - 1)) % s.mod) = s.rxModBase b.nackSn := by
    rw [rxModBase_add (by omega)]
    omega
  have heq := rxModBase_inj (mod_lt _ s.mod_pos) hb hlast
  rcases lt_or_ge 1 a.range with hr | hr
  · refine hends ⟨hr, ?_⟩
    rw [Nat.add_sub_assoc hpos]
    exact heq
  · rw [show a.range - 1 = 0 by omega, add_zero, mod_eq_of_lt hlt] at heq
    exact hne heq

lemma kept_below {kept rest : List StatusNack} {n : StatusNack} (hB : B < s.mod)
    (h : Ordered s.mod s.rxModBase B (kept ++ n :: rest)) (hlast : ∀ k ∈ kept.getLast?, k.nackSn ≠ n.nackSn)
    (hends : ∀ a b, [a, b] <:+: kept ++ n :: rest → ¬ a.EndsAt s.mod b) :
    ∀ k ∈ kept, s.rxModBase k.nackSn + k.range ≤ s.rxModBase n.nackSn := by
  intro k hk
  obtain ⟨front, z, rfl⟩ : ∃ front z, kept = front ++ [z] := ⟨_, _, (dropLast_append_getLast (ne_nil_of_mem hk)).symm⟩
  have hz : z ∈ front ++ [z] ++ n :: rest := by simp
  have hbound := h.le_bound z hz
  have hzn : s.rxModBase z.nackSn + z.range ≤ s.rxModBase n.nackSn := by
    refine le_of_not_endsAt (by omega) (h.sn_lt n (by simp)) (h.sn_lt z hz) (h.range_pos z hz) ?_ (hlast z (by simp))
      (hends z n ⟨front, rest, by simp⟩)
    exact (pairwise_append.mp h.order).2.2 z (by simp) n mem_cons_self
  obtain hk | hk := mem_append.mp hk
  · have hkz := (pairwise_append.mp (pairwise_append.mp h.order).1).2.2 k hk z (mem_singleton_self z)
    have hpos := h.range_pos z hz
    omega
  · rw [mem_singleton.mp hk]
    exact hzn

lemma trimmed_of_not_endsAt {cap : ℕ}
    (h : Ordered s.mod s.rxModBase (s.rxModBase report.ackSn) report.nacks)
    (hends : ∀ a b, [a, b] <:+: report.nacks → ¬ a.EndsAt s.mod b) (hmax : statusPduSizeofHeaderAckSn ≤ cap) :
    ∃ t, report.trim cap = some t ∧ s.Trimmed report t cap := by
  have hdist : ∀ n ∈ report.nacks, ∀ sn, n.Covers s.mod sn →
      s.rxModBase n.nackSn ≤ s.rxModBase sn ∧ s.rxModBase sn < s.rxModBase n.nackSn + n.range :=
    fun n hn sn => dist_of_covers (lt_of_le_of_lt (h.le_bound n hn) (rxModBase_lt _))
  obtain ⟨t, ht, hsize, rfl | ⟨n, rest, hnacks, hack, hlast⟩⟩ := trim_cases report hmax
  · refine ⟨t, ht, hsize, fun n hn sn hc => ?_, fun _ _ _ => Iff.rfl⟩
    exact (hdist n hn sn hc).2.trans_le (h.le_bound n hn)
  · have hkept : ∀ k ∈ t.nacks, k ∈ report.nacks := fun k hk => hnacks ▸ mem_append_left _ hk
    have hord := h
    rw [hnacks] at hord hends
    have hbelow := kept_below (rxModBase_lt _) hord hlast hends
    refine ⟨t, ht, hsize, fun k hk sn hc => ?_, fun sn b hsn => ⟨?_, ?_⟩⟩
    · rw [hack]
      exact (hdist k (hkept k hk) sn hc).2.trans_le (hbelow k hk)
    · rintro ⟨k, hk, hb⟩
      exact ⟨k, hkept k hk, hb⟩
    · -- the NACKs that were given up begin at ACK_SN or behind it
      rintro ⟨k, hk, hb⟩
      have hfrom := (hdist k hk sn hb.covers).1
      rw [hnacks] at hk
      obtain hk | hk := mem_append.mp hk
      · exact ⟨k, hk, hb⟩
      · rw [hack] at hsn
        obtain rfl | hk := mem_cons.mp hk
        · omega
        · have hnk := (pairwise_cons.mp (pairwise_append.mp hord.order).2.1).1 k hk
          have hpos := hord.range_pos n (by simp)
          omega

lemma not_trimmed_of_endsAt {a b : StatusNack}
    (h : Ordered s.mod s.rxModBase (s.rxModBase report.ackSn) report.nacks) (hab : [a, b] <:+: report.nacks)
    (hends : a.EndsAt s.mod b) : ∃ cap, statusPduSizeofHeaderAckSn ≤ cap ∧
      ∀ t, report.trim cap = some t → ¬ s.Trimmed report t cap := by
  obtain ⟨pre, post, hnacks⟩ := hab
  obtain ⟨hr, hlast⟩ := hends
  have ha : a ∈ report.nacks := by
    rw [← hnacks]
    simp
  have hcovers : a.Covers s.mod b.nackSn := ⟨a.range - 1, by omega, by rw [← hlast, Nat.add_sub_assoc hr.le]⟩
  have hne : a.nackSn ≠ b.nackSn := by
    intro heq
    have hbound := h.le_bound a ha
    have hmod := rxModBase_lt (s := s) report.ackSn
    have hd := @rxModBase_add s a.nackSn (a.range - 1) (by omega)
    rw [← Nat.add_sub_assoc hr.le, hlast, heq] at hd
    omega
  obtain ⟨t', ht', hmem, hack⟩ := trim_exact (show report.nacks = pre ++ a :: b :: post by rw [← hnacks]; simp) hne
  refine ⟨statusPduSizeofHeaderAckSn + nacksSize report.snSize (pre ++ [a]), Nat.le_add_right _ _, fun t ht htrim => ?_⟩
  obtain rfl : t' = t := Option.some.inj (ht'.symm.trans ht)
  have hlt := htrim.below a hmem _ hcovers
  rw [hack] at hlt
  exact lt_irrefl _ hlt

end Report

/-- **Trimming a status report** is right iff no NACK range ends at the SN at which the NACK behind it begins. -/
theorem trim_report_iff {cfg : RxAmConfig} (hs : Reachable cfg s) (hr : s.refreshStatusReport = .ok r) :
    (∀ maxPackedSize, statusPduSizeofHeaderAckSn ≤ maxPackedSize → ∃ t,
        r.statusForExchange.trim maxPackedSize = some t ∧ s.Trimmed r.statusForExchange t maxPackedSize) ↔
      ∀ a b, [a, b] <:+: r.statusForExchange.nacks → ¬ a.EndsAt s.mod b := by
  obtain ⟨R, H, M, hinv⟩ := hs.rxInv
  have hord := report_ordered (by rw [hinv.rxNext]; exact mod_lt _ s.mod_pos) hr
  constructor
  · intro hall a b hab hends
    obtain ⟨maxPackedSize, hmax, hfail⟩ := not_trimmed_of_endsAt hord hab hends
    obtain ⟨t, ht, htrim⟩ := hall maxPackedSize hmax
    exact hfail t ht htrim
  · intro hends maxPackedSize hmax
    exact trimmed_of_not_endsAt hord hends hmax

/-- The SDU with SN 1 and the end of the SDU with SN 2 have arrived: two NACKs, none of them a range. -/
theorem trim_report_singles : ∃ s r, Reachable exampleConfig s ∧ s.refreshStatusReport = .ok r ∧
    r.statusForExchange.nacks.length = 2 ∧ ∀ maxPackedSize, statusPduSizeofHeaderAckSn ≤ maxPackedSize →
      ∃ t, r.statusForExchange.trim maxPackedSize = some t ∧ s.Trimmed r.statusForExchange t maxPackedSize := by
  have hrun : (run step (fun _ _ => true) (init exampleConfig) [.handlePdu (some 4) [0xa0, 0x02, 0x00, 0x01, 0xbb],
      .handlePdu (some 4) [0x80, 0x01, 0xaa], .expireReassemblyTimer]).any
        (fun s => s.refreshStatusReport.toOption.any fun r => decide (r.statusForExchange.nacks.length = 2 ∧
          ∀ n ∈ r.statusForExchange.nacks, n.range = 1)) = true := by
    decide +kernel
  obtain ⟨s, hs, hv⟩ := Reach.exists_of_run (fun _ _ _ => trivial) hrun
  obtain ⟨r, hr, hv⟩ := (Option.any_eq_true _ _).mp hv
  obtain ⟨hlen, hrange⟩ := of_decide_eq_true hv
  have hok := eq_ok_of_toOption hr
  refine ⟨s, r, hs, hok, hlen, (trim_report_iff hs hok).mpr fun a b hab hends => ?_⟩
  have h1 := hends.1
  rw [hrange a (hab.subset mem_cons_self)] at h1
  exact lt_irrefl _ h1

/-- Of the SDUs 0 and 1 only the second byte of the latter has arrived. ACK_SN is 1, and the NACK left covers both SDUs. -/
theorem trim_report_fails_twoGaps : ∃ s r t n, Reachable exampleConfig s ∧ s.refreshStatusReport = .ok r ∧
    r.statusForExchange.trim 10 = some t ∧ n ∈ t.nacks ∧ n.Covers s.mod t.ackSn := by
  have hrun : (run step (fun _ _ => true) (init exampleConfig) [.handlePdu (some 4) [0xb0, 0x01, 0x00, 0x01, 0xaa],
      .expireReassemblyTimer]).any (fun s => s.refreshStatusReport.toOption.any fun r =>
        (r.statusForExchange.trim 10).any fun t => t.nacks.any fun n =>
          decide (1 < n.range ∧ (n.nackSn + 1) % s.mod = t.ackSn)) = true := by
    decide +kernel
  obtain ⟨s, hs, hv⟩ := Reach.exists_of_run (fun _ _ _ => trivial) hrun
  obtain ⟨r, hr, hv⟩ := (Option.any_eq_true _ _).mp hv
  obtain ⟨t, ht, hv⟩ := (Option.any_eq_true _ _).mp hv
  obtain ⟨n, hn, hv⟩ := any_eq_true.mp hv
  exact ⟨s, r, t, n, hs, eq_ok_of_toOption hr, ht, hn, 1, of_decide_eq_true hv⟩

end RxAm

end SrsRan.Rlc
