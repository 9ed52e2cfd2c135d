import SrsRan.Rlc.AmPdu

/-!
# The STATUS PDU codec

What `pack` writes, `unpack` reads back, although `unpack` sends every parsed NACK through `push_nack` again (`unpack_pack`);
for the PDUs that are `Obtained` by `push_nack` and `trim` this holds whatever the values of the fields that a NACK does not
send.
-/

namespace SrsRan.Rlc

open Support List Option
open AmSnSize (toNumber mod)

/-- The fields fit into their bits. -/
structure StatusNack.InRange (snSize : AmSnSize) (n : StatusNack) : Prop where
  nackSn_lt : n.nackSn < snSize.mod
  soStart_lt : n.soStart < 2 ^ 16
  soEnd_lt : n.soEnd < 2 ^ 16
  nackRange_lt : n.nackRange < 2 ^ 8

/-- The fields that are not sent are as the constructor sets them. -/
structure StatusNack.WellFormed (snSize : AmSnSize) (n : StatusNack) : Prop extends
    n.InRange snSize where
  so_default : n.hasSo = false → n.soStart = 0 ∧ n.soEnd = soEndOfSdu
  range_default : n.hasNackRange = false → n.nackRange = 0

lemma StatusNack.InRange.mergeNack {snSize : AmSnSize} {prev nack : StatusNack}
    (hp : prev.InRange snSize) (hn : nack.InRange snSize)
    (hm : canBeMerged snSize prev nack = true) : (mergeNack prev nack).InRange snSize := by
  have hr := (canBeMerged_iff.mp hm).2.2.2
  rw [← range_mergeNack] at hr
  have hr' : (Rlc.mergeNack prev nack).nackRange ≤ 255 := by
    simpa [StatusNack.range, Rlc.mergeNack] using hr
  refine ⟨hp.nackSn_lt, ?_, ?_, by omega⟩
  · have h1 := hp.soStart_lt
    simp only [Rlc.mergeNack]
    split <;> omega
  · have h1 := hp.soEnd_lt
    have h2 := hn.soEnd_lt
    simp only [Rlc.mergeNack, soEndOfSdu]
    split_ifs <;> omega

lemma StatusNack.WellFormed.mergeNack {snSize : AmSnSize} {prev nack : StatusNack}
    (hp : prev.WellFormed snSize) (hn : nack.WellFormed snSize)
    (hm : canBeMerged snSize prev nack = true) : (mergeNack prev nack).WellFormed snSize := by
  refine ⟨hp.toInRange.mergeNack hn.toInRange hm, ?_, by simp [Rlc.mergeNack]⟩
  intro hso
  have h : prev.hasSo = false ∧ nack.hasSo = false := by simpa [Rlc.mergeNack] using hso
  simpa [Rlc.mergeNack, h.1, h.2] using hp.so_default h.1

namespace StatusPdu

variable {s : StatusPdu} {snSize : AmSnSize} {pdu : Bytes} {e1 : Bool} {n : StatusNack}

lemma pushNack_forall {P : StatusNack → Prop} {nack : StatusNack}
    (hm : ∀ prev, P prev → canBeMerged s.snSize prev nack = true → P (mergeNack prev nack))
    (hs : ∀ n ∈ s.nacks, P n) (hn : P nack) : ∀ n ∈ (s.pushNack nack).nacks, P n := by
  intro n hmem
  rcases s.pushNack_nacks nack with ⟨h, -⟩ | ⟨prev, hsplit, hcan, h⟩
  · rw [h] at hmem
    rcases mem_append.mp hmem with hmem | hmem
    · exact hs n hmem
    · rw [mem_singleton.mp hmem]; exact hn
  · rw [h] at hmem
    rcases mem_append.mp hmem with hmem | hmem
    · exact hs n (dropLast_subset _ hmem)
    · rw [mem_singleton.mp hmem]
      exact hm prev (hs prev (by rw [hsplit]; simp)) hcan

/-! ### Arbitrary bytes -/

lemma unpackNackSn_lt {rest : Bytes} {sn : ℕ} {e2 e3 : Bool}
    (h : unpackNackSn snSize pdu = some (sn, e1, e2, e3, rest)) : sn < snSize.mod := by
  unfold unpackNackSn at h
  split at h
  next b0 b1 rest' =>
    have := b0.toNat_lt
    have := b1.toNat_lt
    split at h
    · cases h
    · simp only [some.injEq, Prod.mk.injEq] at h
      simp only [mod, toNumber, cardinality]
      omega
  next b0 b1 b2 rest' =>
    have := b0.toNat_lt
    have := b1.toNat_lt
    have := b2.toNat_lt
    split at h
    · cases h
    · simp only [some.injEq, Prod.mk.injEq] at h
      simp only [mod, toNumber, cardinality]
      omega
  · cases h

lemma unpackNack_inRange {rest : Bytes} (h : unpackNack snSize pdu = some (n, e1, rest)) : n.InRange snSize := by
  simp only [unpackNack, Option.bind_eq_bind, Option.bind_eq_some_iff, some.injEq, Prod.mk.injEq, Prod.exists] at h
  obtain ⟨sn, e1', e2, e3, r1, h1, n2, r2, h2, n3, r3, h3, rfl, -, -⟩ := h
  have hsn : sn < snSize.mod := unpackNackSn_lt h1
  have hso : n2.nackSn = sn ∧ n2.soStart < 2 ^ 16 ∧ n2.soEnd < 2 ^ 16 ∧ n2.nackRange = 0 := by
    unfold unpackSo at h2
    split at h2
    · simp only [some.injEq, Prod.mk.injEq] at h2
      rw [← h2.1]
      exact ⟨rfl, Nat.two_pow_pos 16, by simp only [soEndOfSdu]; omega, rfl⟩
    next b0 b1 b2 b3 rest' =>
      have := b0.toNat_lt
      have := b1.toNat_lt
      have := b2.toNat_lt
      have := b3.toNat_lt
      simp only [some.injEq, Prod.mk.injEq] at h2
      rw [← h2.1]
      exact ⟨rfl, by simp only; omega, by simp only; omega, rfl⟩
    · cases h2
  unfold unpackRange at h3
  split at h3
  · simp only [some.injEq, Prod.mk.injEq] at h3
    rw [← h3.1]
    exact ⟨by omega, hso.2.1, hso.2.2.1, by omega⟩
  next b rest' =>
    have := b.toNat_lt
    simp only [some.injEq, Prod.mk.injEq] at h3
    rw [← h3.1]
    exact ⟨by simp only; omega, hso.2.1, hso.2.2.1, by simp only; omega⟩
  · cases h3

lemma unpackNacks_inRange {fuel : ℕ} {s' : StatusPdu} (h : unpackNacks fuel s e1 pdu = some s')
    (hs : ∀ n ∈ s.nacks, n.InRange s.snSize) :
    s'.snSize = s.snSize ∧ s'.ackSn = s.ackSn ∧ ∀ n ∈ s'.nacks, n.InRange s.snSize := by
  induction fuel generalizing s e1 pdu with
  | zero =>
    cases e1 with
    | false =>
      obtain rfl : s = s' := by simpa [unpackNacks] using h
      exact ⟨rfl, rfl, hs⟩
    | true => simp [unpackNacks] at h
  | succ fuel ih =>
    cases e1 with
    | false =>
      obtain rfl : s = s' := by simpa [unpackNacks] using h
      exact ⟨rfl, rfl, hs⟩
    | true =>
      simp only [unpackNacks] at h
      split at h
      next n e1' rest hn =>
        have hn' := unpackNack_inRange hn
        have := ih h (by
          rw [pushNack_snSize]
          exact pushNack_forall (fun prev hp hm => hp.mergeNack hn' hm) hs hn')
        simpa using this
      · cases h

lemma unpack_inRange (h : unpack snSize pdu = some s) :
    s.snSize = snSize ∧ s.ackSn < snSize.mod ∧ ∀ n ∈ s.nacks, n.InRange snSize := by
  unfold unpack at h
  split at h
  next ack e1 rest hh =>
    have hack : ack < snSize.mod := by
      unfold unpackHeader at hh
      split at hh
      next b0 b1 b2 rest' =>
        have := b1.toNat_lt
        have := b2.toNat_lt
        split at hh
        · cases hh
        · cases snSize <;> simp only at hh <;> split at hh
          · cases hh
          · simp only [some.injEq, Prod.mk.injEq] at hh
            simp only [mod, toNumber, cardinality]
            omega
          · cases hh
          · simp only [some.injEq, Prod.mk.injEq] at hh
            simp only [mod, toNumber, cardinality]
            omega
      · cases hh
    obtain ⟨h1, h2, h3⟩ := unpackNacks_inRange h (by simp [reset])
    exact ⟨h1, by rw [h2]; exact hack, h3⟩
  · cases h

/-! ### Packed bytes -/

lemma decide_eq_flag {n : ℕ} {x : Bool} (h : n = x.toNat) : decide (n = 1) = x := by
  subst h
  cases x <;> rfl

lemma unpackNackSn_pack {sn : ℕ} (h : sn < snSize.mod) (e1 e2 e3 : Bool) (rest : Bytes) :
    unpackNackSn snSize (packNackSn snSize sn e1 e2 e3 ++ rest) = some (sn, e1, e2, e3, rest) := by
  have key : ∀ x : Bool, x.toNat < 2 := by decide
  have h1 := key e1
  have h2 := key e2
  have h3 := key e3
  cases snSize
  all_goals
    simp only [mod, toNumber, cardinality] at h
    simp only [packNackSn, cons_append, nil_append, unpackNackSn, toNat_byte]
    rw [if_neg (by omega)]
    simp only [some.injEq, Prod.mk.injEq, and_true]
    exact ⟨by omega, decide_eq_flag (by omega), decide_eq_flag (by omega), decide_eq_flag (by omega)⟩

lemma unpackHeader_pack {ack : ℕ} (h : ack < snSize.mod) (e1 : Bool) (rest : Bytes) :
    unpackHeader snSize (packHeader snSize ack e1 ++ rest) = some (ack, e1, rest) := by
  have h1 : e1.toNat < 2 := by cases e1 <;> decide
  cases snSize
  all_goals
    simp only [mod, toNumber, cardinality] at h
    simp only [packHeader, cons_append, nil_append, unpackHeader, isControlPdu, toNat_byte]
    rw [if_neg (by simp only [decide_eq_false_iff_not]; omega), if_neg (by omega)]
    simp only [some.injEq, Prod.mk.injEq, and_true]
    exact ⟨by omega, decide_eq_flag (by omega)⟩

lemma unpackNack_pack (w : n.WellFormed snSize) (e1 : Bool) (rest : Bytes) :
    unpackNack snSize (packNackSn snSize n.nackSn e1 n.hasSo n.hasNackRange ++ packNackFields n ++ rest) =
      some (n, e1, rest) := by
  have hs := w.soStart_lt
  have he := w.soEnd_lt
  have hr := w.nackRange_lt
  have hsplit : ∀ k < 2 ^ 16, k / 2 ^ 8 % 2 ^ 8 * 2 ^ 8 + k % 2 ^ 8 = k := by omega
  have hr' : n.nackRange % 2 ^ 8 = n.nackRange := by omega
  have hd1 := w.so_default
  have hd2 := w.range_default
  rw [unpackNack, append_assoc, unpackNackSn_pack w.nackSn_lt]
  have hso : unpackSo { nackSn := n.nackSn } n.hasSo (packNackFields n ++ rest) =
      some ({ n with hasNackRange := false, nackRange := 0 },
        (if n.hasNackRange then [byte n.nackRange] else []) ++ rest) := by
    cases h : n.hasSo with
    | false =>
      obtain ⟨h1, h2⟩ := hd1 h
      simp [packNackFields, h, h1, h2, unpackSo]
    | true =>
      simp only [packNackFields, h, unpackSo, if_true, cons_append, nil_append, toNat_byte, hsplit _ hs, hsplit _ he]
  have hrange : unpackRange { n with hasNackRange := false, nackRange := 0 } n.hasNackRange
      ((if n.hasNackRange then [byte n.nackRange] else []) ++ rest) = some (n, rest) := by
    obtain ⟨sn, hasSo, so, se, hasRange, range⟩ := n
    cases hasRange with
    | false =>
      obtain rfl : range = 0 := hd2 rfl
      rfl
    | true => simp only [unpackRange, if_true, cons_append, nil_append, toNat_byte, hr']
  simp only [bind_eq_bind, bind_some, hso, hrange]

lemma unpackNacks_pack (fuel : ℕ) (s : StatusPdu) (l : List StatusNack) (hf : l.length ≤ fuel)
    (hw : ∀ n ∈ l, n.WellFormed s.snSize)
    (hc : (s.nacks ++ l).IsChain fun a b => canBeMerged s.snSize a b = false) :
    ∃ s', unpackNacks fuel s (!l.isEmpty) (packNacks s.snSize l) = some s' ∧
      s'.snSize = s.snSize ∧ s'.ackSn = s.ackSn ∧ s'.nacks = s.nacks ++ l := by
  induction l generalizing fuel s with
  | nil => exact ⟨s, by simp [unpackNacks], rfl, rfl, by simp⟩
  | cons n rest ih =>
    obtain ⟨f, rfl⟩ : ∃ f, fuel = f + 1 := ⟨fuel - 1, by simp at hf; omega⟩
    have hn := unpackNack_pack (hw n (by simp)) (!rest.isEmpty) (packNacks s.snSize rest)
    have happ : (s.pushNack n).nacks = s.nacks ++ [n] := by
      rcases s.pushNack_nacks n with ⟨h, -⟩ | ⟨prev, hsplit, hcan, -⟩
      · exact h
      · rw [hsplit, append_assoc, isChain_append] at hc
        have := hc.2.1
        simp [hcan] at this
    obtain ⟨s', h1, h2, h3, h4⟩ := ih f (s.pushNack n) (by simpa using hf)
      (fun m hm => by rw [pushNack_snSize]; exact hw m (by simp [hm]))
      (by simpa [happ] using hc)
    refine ⟨s', ?_, by simpa using h2, by simpa using h3, by rw [h4, happ]; simp⟩
    simp only [isEmpty_cons, Bool.not_false, packNacks, unpackNacks, hn]
    simpa using h1

lemma length_le_packNacks (snSize : AmSnSize) (l : List StatusNack) : l.length ≤ (packNacks snSize l).length := by
  induction l with
  | nil => simp
  | cons n rest ih =>
    cases snSize <;> simp [packNacks, packNackSn] at ih ⊢ <;> omega

/-- **STATUS PDU round trip.**  `unpack` reads back what `pack` wrote. -/
theorem unpack_pack (hack : s.ackSn < s.snSize.mod)
    (hw : ∀ n ∈ s.nacks, n.WellFormed s.snSize) : ∃ s', unpack s.snSize s.pack = some s' ∧
      s'.snSize = s.snSize ∧ s'.ackSn = s.ackSn ∧ s'.nacks = s.nacks := by
  obtain ⟨s', h1, h2, h3, h4⟩ := unpackNacks_pack s.pack.length
    { reset s.snSize with ackSn := s.ackSn } s.nacks
    ((length_le_packNacks s.snSize s.nacks).trans (by simp [pack])) hw (by simpa [reset] using s.unmergeable)
  refine ⟨s', ?_, h2, h3, by simpa [reset] using h4⟩
  rw [unpack, show unpackHeader s.snSize s.pack = _ from unpackHeader_pack hack _ _]
  exact h1

/-! ### Every STATUS PDU built by `push_nack` and `trim` -/

/-- The NACK with the fields that are not sent set as the constructor sets them. -/
def present (n : StatusNack) : StatusNack :=
  { n with
    soStart := if n.hasSo then n.soStart else 0
    soEnd := if n.hasSo then n.soEnd else soEndOfSdu
    nackRange := if n.hasNackRange then n.nackRange else 0 }

lemma present_wellFormed (h : n.InRange snSize) : (present n).WellFormed snSize := by
  obtain ⟨hsn, hs, he, hr⟩ := h
  refine ⟨⟨hsn, ?_, ?_, ?_⟩, fun hso => ?_, fun hrange => ?_⟩
  · simp only [present]; split <;> omega
  · simp only [present, soEndOfSdu]; split <;> omega
  · simp only [present]; split <;> omega
  · have hso' : n.hasSo = false := hso
    simp [present, hso']
  · have hrange' : n.hasNackRange = false := hrange
    simp [present, hrange']

lemma present_eq_self (h : n.WellFormed snSize) : present n = n := by
  have hso := h.so_default
  have hrange := h.range_default
  obtain ⟨sn, hasSo, so, se, hasRange, range⟩ := n
  cases hasSo <;> cases hasRange <;> simp_all [present]

lemma canBeMerged_present (snSize : AmSnSize) (a b : StatusNack) :
    canBeMerged snSize (present a) (present b) = canBeMerged snSize a b := by
  have hrange : ∀ n, (present n).range = n.range := by
    intro n
    cases h : n.hasNackRange <;> simp [StatusNack.range, present, h]
  rw [Bool.eq_iff_iff, canBeMerged_iff, canBeMerged_iff, hrange, hrange]
  cases ha : a.hasSo <;> cases hb : b.hasSo <;> simp [present, ha, hb]

lemma packNacks_present (snSize : AmSnSize) (l : List StatusNack) :
    packNacks snSize (l.map present) = packNacks snSize l := by
  induction l with
  | nil => rfl
  | cons n rest ih =>
    have hfields : packNackFields (present n) = packNackFields n := by
      cases h1 : n.hasSo <;> cases h2 : n.hasNackRange <;> simp [packNackFields, present, h1, h2]
    simp only [map_cons, packNacks, ih, hfields, isEmpty_map]
    rfl

def presented (s : StatusPdu) : StatusPdu where
  snSize := s.snSize
  ackSn := s.ackSn
  nacks := s.nacks.map present
  packedSize := s.packedSize
  packedSize_eq := by
    rw [s.packedSize_eq, nacksSize, nacksSize, List.map_map]
    rfl
  unmergeable := by
    rw [List.isChain_map]
    exact s.unmergeable.imp fun a b h => (canBeMerged_present _ a b).trans h

lemma pack_presented (s : StatusPdu) : s.presented.pack = s.pack := by
  simp [pack, presented, packNacks_present]

lemma length_packNacks (snSize : AmSnSize) (l : List StatusNack) :
    (packNacks snSize l).length = nacksSize snSize l := by
  induction l with
  | nil => rfl
  | cons n rest ih =>
    have hfields : (packNackFields n).length = (if n.hasSo then 4 else 0) + (if n.hasNackRange then 1 else 0) := by
      cases h1 : n.hasSo <;> cases h2 : n.hasNackRange <;> simp [packNackFields, h1, h2]
    have hsize : nacksSize snSize (n :: rest) = nackSize snSize n + nacksSize snSize rest := rfl
    rw [packNacks, length_append, length_append, ih, hfields, hsize]
    cases snSize <;> simp [packNackSn, nackSize] <;> omega

lemma length_pack (s : StatusPdu) : s.pack.length = s.packedSize := by
  rw [pack, length_append, length_packNacks, s.packedSize_eq]
  cases s.snSize <;> rfl

/-- The PDUs made by `push_nack` of NACKs that satisfy `P`, `trim` and setting `ack_sn`. -/
inductive Obtained (snSize : AmSnSize) (P : StatusNack → Prop) : StatusPdu → Prop
  | reset : Obtained snSize P (reset snSize)
  | pushNack {s : StatusPdu} {nack : StatusNack} (h : Obtained snSize P s) (hn : P nack) :
      Obtained snSize P (s.pushNack nack)
  | trim {s s' : StatusPdu} {maxPackedSize : ℕ} (h : Obtained snSize P s)
      (ht : s.trim maxPackedSize = some s') : Obtained snSize P s'
  | setAckSn {s : StatusPdu} (h : Obtained snSize P s) (ack : ℕ) : Obtained snSize P { s with ackSn := ack }

lemma trim_subset {s' : StatusPdu} {maxPackedSize : ℕ} (h : s.trim maxPackedSize = some s') :
    s'.snSize = s.snSize ∧ s'.nacks ⊆ s.nacks := by
  unfold trim at h
  split at h
  · cases h
    exact ⟨rfl, List.Subset.refl _⟩
  split at h
  · cases h
  · cases h
    refine ⟨rfl, fun n hn => ?_⟩
    have hsuf := trimLoop_suffix s.snSize maxPackedSize s.nacks.reverse s.packedSize s.ackSn
    exact mem_reverse.mp (hsuf.subset (mem_reverse.mp hn))

lemma Obtained.forall {P : StatusNack → Prop}
    (hm : ∀ prev nack, P prev → P nack → canBeMerged snSize prev nack = true → P (mergeNack prev nack))
    (h : Obtained snSize P s) : s.snSize = snSize ∧ ∀ n ∈ s.nacks, P n := by
  induction h with
  | reset => exact ⟨rfl, by simp [StatusPdu.reset]⟩
  | @pushNack s nack _ hn ih =>
    obtain ⟨rfl, hs⟩ := ih
    exact ⟨pushNack_snSize s nack, pushNack_forall (fun prev hp hc => hm prev nack hp hn hc) hs hn⟩
  | trim _ ht ih =>
    obtain ⟨hsize, hsub⟩ := trim_subset ht
    exact ⟨hsize.trans ih.1, fun n hn => ih.2 n (hsub hn)⟩
  | setAckSn _ ack ih => exact ih

/-- **Codec of built STATUS PDUs.** Fields that a NACK does not send come back as the constructor sets them. -/
theorem unpack_pack_of_obtained {snSize : AmSnSize} {s : StatusPdu}
    (h : Obtained snSize (StatusNack.InRange snSize) s) (hack : s.ackSn < snSize.mod) :
    s.pack.length = s.packedSize ∧
    ∃ s', unpack snSize s.pack = some s' ∧ s'.ackSn = s.ackSn ∧ s'.nacks = s.nacks.map present ∧
      (Obtained snSize (StatusNack.WellFormed snSize) s → s'.nacks = s.nacks) := by
  obtain ⟨rfl, hs⟩ := h.forall fun _ _ hp hn hc => hp.mergeNack hn hc
  refine ⟨s.length_pack, ?_⟩
  obtain ⟨s', h1, -, h3, h4⟩ := unpack_pack (s := s.presented) hack (by
    intro n hn
    obtain ⟨m, hmem, rfl⟩ := mem_map.mp hn
    exact present_wellFormed (hs m hmem))
  refine ⟨s', by rw [← pack_presented]; exact h1, h3, h4, fun hw => ?_⟩
  obtain ⟨-, hall⟩ := hw.forall fun _ _ hp hn hc => hp.mergeNack hn hc
  rw [h4]
  exact (map_congr_left fun n hn => present_eq_self (hall n hn)).trans (List.map_id _)

/-- A whole SDU and the first bytes of the next one, beyond the wrap-around, make one NACK. -/
theorem unpack_pack_merged : ∃ s,
    Obtained .size12bits (StatusNack.InRange .size12bits) s ∧ s.nacks.length = 1 ∧
      s.pack.length = s.packedSize := by
  have hok : ∀ n : StatusNack, n.nackSn < 4096 → n.soStart < 2 ^ 16 → n.soEnd < 2 ^ 16 →
      n.nackRange < 2 ^ 8 → n.InRange .size12bits := fun n h1 h2 h3 h4 => ⟨h1, h2, h3, h4⟩
  have h : Obtained .size12bits (StatusNack.InRange .size12bits)
      { (((reset .size12bits).pushNack { nackSn := 4095 }).pushNack
        { nackSn := 0, hasSo := true, soStart := 0, soEnd := 9 }) with ackSn := 1 } :=
    .setAckSn (.pushNack (.pushNack .reset (hok _ (by decide) (by decide) (by decide) (by decide)))
      (hok _ (by decide) (by decide) (by decide) (by decide))) 1
  exact ⟨_, h, rfl, (unpack_pack_of_obtained h (by decide)).1⟩

end StatusPdu

end SrsRan.Rlc
