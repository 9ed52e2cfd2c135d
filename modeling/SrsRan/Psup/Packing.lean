import SrsRan.Support.BitCoding

/-!
# The PDU session container

`psup_packing` for DL PDU session information.  `unpack` looks at no result of the decoder, and so takes a container
that ends before the fields its flags announce.  The fields of the value returned are in the container iff the container
has the bits they take.
-/

namespace SrsRan.Psup

open Support Lib
open BitEncoder (flag padding reads_padded)
open BitDecoder (Reads)
open BitString (ofBytes get_lt)

structure DlPduSessionInformation where
  rqi : Bool
  qosFlowId : ℕ
  ppi : Option ℕ
  dlSendingTimeStamp : Option ℕ
  dlQfiSn : Option ℕ
deriving DecidableEq

namespace DlPduSessionInformation

/-! ### Packing -/

def optionalField (val : Option ℕ) (nBits : ℕ) : List (ℕ × ℕ) := val.toList.map (·, nBits)

def fields (v : DlPduSessionInformation) (spare spare' : ℕ) : List (ℕ × ℕ) :=
  [(0, 4), (flag v.dlSendingTimeStamp.isSome, 1), (flag v.dlQfiSn.isSome, 1), (spare, 2), (flag v.ppi.isSome, 1),
    (flag v.rqi, 1), (v.qosFlowId, 6)] ++ (optionalField v.ppi 3 ++ (optionalField (v.ppi.map fun _ => spare') 5 ++
    (optionalField v.dlSendingTimeStamp 64 ++ (optionalField v.dlQfiSn 24 ++ []))))

def pack (v : DlPduSessionInformation) : Bytes :=
  let outBuf := ((⟨[], 0⟩ : BitEncoder).packAll (v.fields 0 0)).bytes
  outBuf ++ padding outBuf.length

/-! ### Unpacking -/

def readUnchecked (d : BitDecoder) (nBits : ℕ) : ℕ × BitDecoder :=
  match d.unpack nBits with
  | .ok r => r
  | .error _ =>
    let left := 8 * (d.buffer.length - d.it) - d.offset
    match d.unpack left with
    | .ok (val, d) => (val <<< (nBits - left), d)
    | .error _ => (0, d)

def readOptional (d : BitDecoder) (present nBits : ℕ) : Option ℕ × BitDecoder :=
  if present ≠ 0 then
    let (val, d) := readUnchecked d nBits
    (some val, d)
  else (none, d)

def unpackOptional (d : BitDecoder) (qmp snp ppp rqi qosFlowId : ℕ) : DlPduSessionInformation :=
  let (ppi, d) := readOptional d ppp 3
  let (_, d) := readOptional d ppp 5
  let (dlSendingTimeStamp, d) := readOptional d qmp 64
  let (dlQfiSn, _) := readOptional d snp 24
  { rqi := rqi ≠ 0, qosFlowId, ppi, dlSendingTimeStamp, dlQfiSn }

def unpack (container : Bytes) : Option DlPduSessionInformation :=
  let (pduType, d) := readUnchecked (.ofPos container 0) 4
  if pduType ≠ 0 then none
  else
    let (qmp, d) := readUnchecked d 1
    let (snp, d) := readUnchecked d 1
    let (_, d) := readUnchecked d 2
    let (ppp, d) := readUnchecked d 1
    let (rqi, d) := readUnchecked d 1
    let (qosFlowId, d) := readUnchecked d 6
    some (unpackOptional d qmp snp ppp rqi qosFlowId)

/-! ### Containers that are long enough -/

/-- The values fit their fields. -/
structure Fits (v : DlPduSessionInformation) : Prop where
  qosFlowId : v.qosFlowId < 2 ^ 6
  ppi : ∀ x ∈ v.ppi, x < 2 ^ 3
  dlSendingTimeStamp : ∀ x ∈ v.dlSendingTimeStamp, x < 2 ^ 64
  dlQfiSn : ∀ x ∈ v.dlQfiSn, x < 2 ^ 24

def nofBits (v : DlPduSessionInformation) : ℕ :=
  16 + (if v.ppi.isSome then 8 else 0) + (if v.dlSendingTimeStamp.isSome then 64 else 0) +
    (if v.dlQfiSn.isSome then 24 else 0)

variable {c : Bytes} {v : DlPduSessionInformation} {p n present : ℕ} {fs : List (ℕ × ℕ)}

lemma readUnchecked_eq (hlen : p + n ≤ 8 * c.length) :
    readUnchecked (.ofPos c p) n = ((ofBytes c).get p n, .ofPos c (p + n)) := by
  rw [readUnchecked, BitDecoder.unpack_ofPos n (by omega), if_pos hlen]

lemma unpack_eq (hlen : 16 ≤ 8 * c.length) : unpack c = if (ofBytes c).get 0 4 ≠ 0 then none
      else some (unpackOptional (.ofPos c 16) ((ofBytes c).get 4 1) ((ofBytes c).get 5 1)
        ((ofBytes c).get 8 1) ((ofBytes c).get 9 1) ((ofBytes c).get 10 6)) := by
  have hread : ∀ p n, p + n ≤ 16 →
      readUnchecked (.ofPos c p) n = ((ofBytes c).get p n, .ofPos c (p + n)) := fun p n hle =>
    readUnchecked_eq (hle.trans hlen)
  simp [unpack, hread]

/-! ### Packed values -/

lemma readOptional_eq {x : Option ℕ} (hfit : ∀ y ∈ x, y < 2 ^ n) (h : Reads c p (optionalField x n ++ fs)) :
    ∃ p', readOptional (.ofPos c p) (flag x.isSome) n = (x, .ofPos c p') ∧ Reads c p' fs := by
  cases x with
  | none => exact ⟨p, rfl, h⟩
  | some y =>
    have h' : Reads c p ((y, n) :: fs) := h
    refine ⟨p + n, ?_, h'.2⟩
    rw [readOptional, if_pos (by simp [flag]), readUnchecked_eq h'.1.1, h'.1.2, Nat.mod_eq_of_lt (hfit y rfl)]

lemma unpack_of_reads (hfit : v.Fits) (h : Reads c 0 (v.fields 0 0)) : unpack c = some v := by
  obtain ⟨⟨-, h0⟩, ⟨-, h4⟩, ⟨-, h5⟩, -, ⟨-, h8⟩, ⟨-, h9⟩, ⟨hlen, h10⟩, h⟩ := h
  have hflag : ∀ x, flag x % 2 ^ 1 = flag x := by decide
  obtain ⟨p1, hr1, h⟩ := readOptional_eq hfit.ppi h
  obtain ⟨p2, hr2, h⟩ := readOptional_eq (by simp) h
  obtain ⟨p3, hr3, h⟩ := readOptional_eq hfit.dlSendingTimeStamp h
  obtain ⟨p4, hr4, -⟩ := readOptional_eq hfit.dlQfiSn h
  rw [Option.isSome_map] at hr2
  rw [unpack_eq hlen, show (ofBytes c).get 0 4 = 0 from h0, show (ofBytes c).get 4 1 = _ from h4.trans (hflag _),
    show (ofBytes c).get 5 1 = _ from h5.trans (hflag _), show (ofBytes c).get 8 1 = _ from h8.trans (hflag _),
    show (ofBytes c).get 9 1 = _ from h9.trans (hflag _),
    show (ofBytes c).get 10 6 = _ from h10.trans (Nat.mod_eq_of_lt hfit.qosFlowId)]
  have hrqi : (!decide (flag v.rqi = 0)) = v.rqi := by cases v.rqi <;> rfl
  simp [unpackOptional, hr1, hr2, hr3, hr4, hrqi]

/-! ### Accepted containers -/

lemma isSome_readOptional (d : BitDecoder) (present n : ℕ) :
    (readOptional d present n).1.isSome = decide (present ≠ 0) := by
  unfold readOptional
  split <;> simp [*]

def optionalBits (present nBits : ℕ) : ℕ := if present ≠ 0 then nBits else 0

lemma reads_readOptional (p present n : ℕ) (hlen : p + optionalBits present n ≤ 8 * c.length) :
    ∃ x, readOptional (.ofPos c p) present n = (x, .ofPos c (p + optionalBits present n)) ∧
      x.isSome = decide (present ≠ 0) ∧
      ∀ fs, Reads c (p + optionalBits present n) fs → Reads c p (optionalField x n ++ fs) := by
  unfold readOptional
  unfold optionalBits at hlen ⊢
  by_cases hp : present ≠ 0
  · simp only [if_pos hp] at hlen ⊢
    rw [readUnchecked_eq hlen, decide_eq_true hp]
    exact ⟨_, rfl, rfl, fun fs h => ⟨⟨hlen, (Nat.mod_eq_of_lt (get_lt _ _)).symm⟩, h⟩⟩
  · simp only [if_neg hp, decide_eq_false hp]
    exact ⟨_, rfl, rfl, fun fs h => h⟩

lemma get_flag (s : BitString) (p : ℕ) : s.get p 1 = flag (decide (s.get p 1 ≠ 0)) % 2 ^ 1 := by
  have hlt : s.get p 1 < 2 := get_lt p 1
  obtain h | h : s.get p 1 = 0 ∨ s.get p 1 = 1 := by omega
  all_goals rw [h]; rfl

lemma reads_of_unpack (h : unpack c = some v) (hlen : v.nofBits ≤ 8 * c.length) : ∃ a b, Reads c 0 (v.fields a b) := by
  have h16 : 16 ≤ 8 * c.length := by unfold nofBits at hlen; omega
  have hget : ∀ p n, (ofBytes c).get p n = (ofBytes c).get p n % 2 ^ n := fun p n =>
    (Nat.mod_eq_of_lt (get_lt p n)).symm
  have hflag := get_flag (ofBytes c)
  rw [unpack_eq h16] at h
  generalize hbits : (ofBytes c).get = get at h hget hflag
  split at h
  · cases h
  next h0 =>
    cases h
    simp only [nofBits, unpackOptional, isSome_readOptional, decide_eq_true_eq] at hlen
    change 16 + optionalBits (get 8 1) 8 + optionalBits (get 4 1) 64 + optionalBits (get 5 1) 24 ≤ _ at hlen
    have hppi : optionalBits (get 8 1) 8 = optionalBits (get 8 1) 3 + optionalBits (get 8 1) 5 := by
      unfold optionalBits
      split <;> rfl
    rw [hppi, ← Nat.add_assoc] at hlen
    obtain ⟨x1, hx1, hs1, hr1⟩ := reads_readOptional (c := c) 16 (get 8 1) 3 (by omega)
    obtain ⟨x2, hx2, hs2, hr2⟩ := reads_readOptional (c := c) (16 + optionalBits (get 8 1) 3) (get 8 1) 5 (by omega)
    obtain ⟨x3, hx3, hs3, hr3⟩ := reads_readOptional (c := c)
      (16 + optionalBits (get 8 1) 3 + optionalBits (get 8 1) 5) (get 4 1) 64 (by omega)
    obtain ⟨x4, hx4, hs4, hr4⟩ := reads_readOptional _ _ _ hlen
    have hspare : x1.map (fun _ => x2.getD 0) = x2 := by
      have heq := hs1.trans hs2.symm
      rcases x1 with _ | y1 <;> rcases x2 with _ | y2 <;> simp at heq ⊢
    have hrest := hr1 _ (hr2 _ (hr3 _ (hr4 [] hlen)))
    refine ⟨get 6 2, x2.getD 0, ?_⟩
    simp only [unpackOptional, hx1, hx2, hx3, hx4, fields, hspare, hs1, hs3, hs4]
    subst hbits
    exact ⟨⟨by omega, not_not.mp h0⟩, ⟨by omega, hflag 4⟩, ⟨by omega, hflag 5⟩, ⟨by omega, hget 6 2⟩,
      ⟨by omega, hflag 8⟩, ⟨by omega, hflag 9⟩, ⟨by omega, hget 10 6⟩, hrest⟩

lemma nofBits_le_of_reads {a b : ℕ} (h : Reads c 0 (v.fields a b)) : v.nofBits ≤ 8 * c.length := by
  have hwidth : BitString.width (v.fields a b) = v.nofBits := by
    rcases v with ⟨rqi, qosFlowId, _ | ppi, _ | timeStamp, _ | sn⟩ <;>
      simp [BitString.width, fields, nofBits, optionalField]
  rw [← List.append_nil (v.fields a b)] at h
  have hle := h.append.2.le
  omega

/-- The bits that the flags of the first octets announce. -/
def announcedBits (c : Bytes) : ℕ :=
  16 + optionalBits ((ofBytes c).get 8 1) 8 + optionalBits ((ofBytes c).get 4 1) 64 + optionalBits ((ofBytes c).get 5 1) 24

lemma nofBits_eq (h : unpack c = some v) (h16 : 16 ≤ 8 * c.length) : v.nofBits = announcedBits c := by
  rw [unpack_eq h16] at h
  split at h
  · cases h
  · cases h
    simp only [nofBits, unpackOptional, isSome_readOptional, decide_eq_true_eq]
    rfl

/-- **The PDU session container.** What is packed is unpacked; accepted fields are in the container iff it has room for
what its flags announce. -/
theorem psup_container_iff (v : DlPduSessionInformation) (container : Bytes) :
    (v.Fits → (v.pack.length + 2) % 4 = 0 ∧ unpack v.pack = some v) ∧
    (unpack container = some v →
      ((∃ spare spare', Reads container 0 (v.fields spare spare')) ↔ announcedBits container ≤ 8 * container.length)) := by
  constructor
  · intro hfit
    obtain ⟨hreads, hlen⟩ := reads_padded (v.fields 0 0) rfl
    exact ⟨hlen, unpack_of_reads hfit hreads⟩
  · intro h
    have h16 : 16 ≤ v.nofBits ∧ 16 ≤ announcedBits container := by
      unfold nofBits announcedBits
      omega
    refine ⟨fun ⟨_, _, hreads⟩ => ?_, fun hle => reads_of_unpack h ?_⟩
    · have hle := nofBits_le_of_reads hreads
      rwa [← nofBits_eq h (h16.1.trans hle)]
    · rwa [nofBits_eq h (h16.2.trans hle)]

/-- Two octets that announce a time stamp are accepted with the time stamp 0. -/
theorem psup_container_truncated : unpack [8, 1] = some ⟨false, 1, none, some 0, none⟩ ∧
    ¬ ∃ spare spare', Reads [8, 1] 0 (fields ⟨false, 1, none, some 0, none⟩ spare spare') :=
  ⟨by decide, fun ⟨_, _, hreads⟩ => absurd (nofBits_le_of_reads hreads) (by decide)⟩

end DlPduSessionInformation

end SrsRan.Psup
