import SrsRan.Lib.OrderedSum
import SrsRan.Phy.LdpcRateMatcher

/-!
# LDPC rate dematching

`ldpc_rate_dematcher_impl` deinterleaves the log-likelihood ratios of the received bits and adds those of one position with a
saturated sum.  For new data the first pass copies, and clears the parts of the output that it does not write.
-/

namespace SrsRan.Phy

open Lib Support List Nat

structure LogLikelihoodRatio where
  value : ℤ
  /-- a finite value, or plus or minus infinity -/
  valid : (-120 ≤ value ∧ value ≤ 120) ∨ value = 127 ∨ value = -127
deriving DecidableEq

namespace LogLikelihoodRatio

instance : Zero LogLikelihoodRatio := ⟨⟨0, .inl (by decide)⟩⟩

def infinity : LogLikelihoodRatio := ⟨127, .inr (.inl rfl)⟩

def finite (v : ℤ) (h : -120 ≤ v ∧ v ≤ 120) : LogLikelihoodRatio := ⟨v, .inl h⟩

variable (a : LogLikelihoodRatio)

def isInf : Bool := a.value = 127 ∨ a.value = -127

/-- `operator+`: infinity absorbs every other value but its opposite. -/
def add (a b : LogLikelihoodRatio) : LogLikelihoodRatio :=
  if a.value = -b.value then 0
  else if a.isInf then a
  else if b.isInf then b
  else if h : -120 ≤ a.value + b.value ∧ a.value + b.value ≤ 120 then finite (a.value + b.value) h
  else if a.value + b.value > 0 then finite 120 (by decide)
  else finite (-120) (by decide)

instance : Add LogLikelihoodRatio := ⟨add⟩

lemma ext_value {a b : LogLikelihoodRatio} (h : a.value = b.value) : a = b := by
  obtain ⟨a, ha⟩ := a
  obtain ⟨b, hb⟩ := b
  cases h
  rfl

lemma isInf_iff : a.isInf = true ↔ a.value = 127 ∨ a.value = -127 := by
  rw [isInf, decide_eq_true_eq]

lemma value_add (a b : LogLikelihoodRatio) : (a + b).value = if a.value = -b.value then 0
    else if a.value = 127 ∨ a.value = -127 then a.value
    else if b.value = 127 ∨ b.value = -127 then b.value
    else max (-120) (min 120 (a.value + b.value)) := by
  show (add a b).value = _
  unfold add
  split
  · rfl
  · simp only [isInf_iff]
    split
    · rfl
    · split
      · rfl
      · split
        · show a.value + b.value = _
          omega
        · split
          · show (120 : ℤ) = _
            omega
          · show (-120 : ℤ) = _
            omega

lemma value_zero : (0 : LogLikelihoodRatio).value = 0 := rfl

lemma add_zero' : a + 0 = a := by
  have hvalid := a.valid
  have h0 : ¬ ((0 : ℤ) = 127 ∨ (0 : ℤ) = -127) := by decide
  apply ext_value
  rw [value_add, value_zero, if_neg h0]
  split_ifs <;> omega

lemma zero_add' : 0 + a = a := by
  have hvalid := a.valid
  have h0 : ¬ ((0 : ℤ) = 127 ∨ (0 : ℤ) = -127) := by decide
  apply ext_value
  rw [value_add, value_zero, if_neg h0]
  split_ifs <;> omega

lemma add_comm' (a b : LogLikelihoodRatio) : a + b = b + a := by
  apply ext_value
  rw [value_add, value_add]
  split_ifs <;> omega

end LogLikelihoodRatio

namespace Ldpc

open LogLikelihoodRatio

abbrev Llr := LogLikelihoodRatio

/-! ### The loop over the buffer -/

variable (out : List Llr)

def mapPart (pos n : ℕ) (f : ℕ → Llr → Llr) : List Llr :=
  out.mapIdx fun i v => if pos ≤ i ∧ i < pos + n then f (i - pos) v else v

def zeroFirst (n : ℕ) : List Llr := mapPart out 0 n fun _ _ => 0

def zeroLast (n : ℕ) : List Llr := mapPart out (out.length - n) n fun _ _ => 0

def fillInfinity (pos n : ℕ) : List Llr := mapPart out pos n fun _ _ => infinity

def copyAt (pos : ℕ) (chunk : List Llr) : List Llr := mapPart out pos chunk.length fun k _ => chunk.getD k 0

def combineAt (pos : ℕ) (chunk : List Llr) : List Llr := mapPart out pos chunk.length fun k v => v + chunk.getD k 0

/-- The body of the loop of `allot_llrs`; none if `buffer_length - tmp_idx` wraps. -/
def allotPass (p : Selection) (copyMode : Bool) (out : List Llr) (tmpIdx : ℕ) (inp : List Llr) :
    Option (List Llr × ℕ × List Llr) :=
  let nofInfoBits := p.nofSystematicBits - p.nofFillerBits
  -- the bits before the filler bits
  let nbitsSystematic := if tmpIdx < nofInfoBits then min (nofInfoBits - tmpIdx) inp.length else 0
  let out :=
    if tmpIdx < nofInfoBits then
      if copyMode then copyAt (zeroFirst out tmpIdx) tmpIdx (inp.take nbitsSystematic)
      else combineAt out tmpIdx (inp.take nbitsSystematic)
    else if copyMode then zeroFirst out nofInfoBits
    else out
  let tmpIdx := tmpIdx + nbitsSystematic
  let inp := inp.drop nbitsSystematic
  -- the filler bits are fixed, and skipped
  let out := if copyMode then fillInfinity out nofInfoBits p.nofFillerBits else out
  let tmpIdx := if tmpIdx < p.nofSystematicBits then p.nofSystematicBits else tmpIdx
  if tmpIdx > p.bufferLength then none
  else
    -- the parity bits
    let nbitsParity := min (p.bufferLength - tmpIdx) inp.length
    let out := if copyMode then copyAt out tmpIdx (inp.take nbitsParity) else combineAt out tmpIdx (inp.take nbitsParity)
    some (out, (tmpIdx + nbitsParity) % p.bufferLength, inp.drop nbitsParity)

def allotLoop (p : Selection) : (fuel : ℕ) → Bool → List Llr → ℕ → List Llr → Option (List Llr × ℕ × Bool)
  | _, copyMode, out, tmpIdx, [] => some (out, tmpIdx, copyMode)
  | 0, _, _, _, _ :: _ => none
  | fuel + 1, copyMode, out, tmpIdx, v :: inp => do
    let (out, tmpIdx, inp) ← allotPass p copyMode out tmpIdx (v :: inp)
    allotLoop p fuel (if inp.isEmpty then copyMode else false) out tmpIdx inp

/-- `allot_llrs`; a pass for every input and one more are enough -/
def allotLlrs (p : Selection) (isNewData : Bool) (out inp : List Llr) : Option (List Llr) := do
  let (out, tmpIdx, copyMode) ← allotLoop p (inp.length + 1) isNewData out p.shiftK0 inp
  return if copyMode = true ∧ tmpIdx ≠ 0 then zeroLast out (p.bufferLength - tmpIdx) else out

def deinterleaveBitsQm (Qm : ℕ) (out inp : List Llr) : List Llr :=
  let K := out.length / Qm
  (List.range K).foldl
    (fun out i => (List.range Qm).foldl (fun out j => out.set (K * j + i) (inp.getD (Qm * i + j) 0)) out) out

def deinterleaveLlrs (modulationOrder : ℕ) (out inp : List Llr) : List Llr :=
  match modulationOrder with
  | 4 => deinterleaveBitsQm 4 out inp
  | 6 => deinterleaveBitsQm 6 out inp
  | 8 => deinterleaveBitsQm 8 out inp
  | _ => deinterleaveBitsQm 2 out inp

def rateDematch (output input : List Llr) (newData : Bool) (cfg : CodeblockMetadata) (aux : List Llr) :
    Option (List Llr) := do
  if cfg.nref > maxCodeblockSize then none
  let p ← init cfg output.length input.length
  if p.modulationOrder = 1 then allotLlrs p newData output input
  else allotLlrs p newData output (deinterleaveLlrs p.modulationOrder aux input)

/-! ### What rate dematching is for -/

namespace Setup

variable (s : Setup)

/-- The inputs of a position, in the order of their transmission. -/
def inputsOf (i : ℕ) : List ℕ := (List.range s.rmLength).filter fun j => s.source j = i

/-- **The soft bit of a position**: the saturated sum of its inputs. -/
def combined (input : List Llr) (i : ℕ) (base : Llr) : Llr := total base ((s.inputsOf i).map fun j => input.getD j 0)

def newSoftBit (input : List Llr) (i : ℕ) : Llr :=
  if s.ring.Gap i then infinity else s.combined input i 0

/-- The rate matcher selects the bits that the selection of TS 38.212 names, in its order. -/
def RateMatches : Prop :=
  ∀ output : BitBuffer, output.size = s.rmLength → ∀ input : List Bool, input.length = s.blockLength →
    ∃ result, rateMatch output input s.metadata = some result ∧ result.size = s.rmLength ∧
      ∀ j < s.rmLength, result.bit j = input.getD (s.source j) false

/-- For new data each soft bit gets the sum of what was received for it. -/
def DematchesNewData : Prop :=
  ∀ output input aux : List Llr, output.length = s.blockLength → input.length = s.rmLength → aux.length = s.rmLength →
    rateDematch output input true s.metadata aux = some ((List.range s.blockLength).map (s.newSoftBit input))

/-- Rate dematching of a retransmission adds to the previous content. -/
def CombinesRetransmission : Prop :=
  ∀ output input aux : List Llr, output.length = s.blockLength → input.length = s.rmLength → aux.length = s.rmLength →
    rateDematch output input false s.metadata aux = some (output.mapIdx (s.combined input))

/-- Every position is written or cleared for new data. -/
def Clears : Prop :=
  0 < s.rmLength ∧ s.bufferLength = s.blockLength ∧ s.shiftK0 ≤ s.nofSystematicBits ∧
    (s.shiftK0 < s.nofInfoBits → s.nofInfoBits ≤ s.shiftK0 + s.rmLength)

/-- Inputs of one position are selected in the order of their transmission. -/
def KeepsOrder : Prop := ∀ j j', j < j' → j' < s.rmLength → s.source j = s.source j' → s.selected j < s.selected j'

/-- The last one of three inputs of one position is also selected last. -/
def KeepsLast : Prop :=
  ∀ j j' j'', j < j' → j' < j'' → j'' < s.rmLength → s.source j = s.source j'' → s.source j' = s.source j'' →
    s.selected j < s.selected j'' ∧ s.selected j' < s.selected j''

end Setup

/-! ### Where the inputs of a chunk go -/

def landing (ps : List ℕ) (vals : List Llr) (i : ℕ) : List Llr := ((ps.zip vals).filter fun q => q.1 = i).map Prod.snd

lemma landing_append {ps : List ℕ} {vals : List Llr} (h : ps.length = vals.length) (ps' : List ℕ) (vals' : List Llr)
    (i : ℕ) : landing (ps ++ ps') (vals ++ vals') i = landing ps vals i ++ landing ps' vals' i := by
  rw [landing, zip_append h, filter_append, map_append]
  rfl

lemma landing_range' (x : ℕ) (vals : List Llr) (i : ℕ) : landing (range' x vals.length) vals i =
    if x ≤ i ∧ i < x + vals.length then [vals.getD (i - x) 0] else [] := by
  induction vals generalizing x with
  | nil =>
    rw [if_neg (by simp)]
    rfl
  | cons v vals ih =>
    have hcons : landing (range' x (v :: vals).length) (v :: vals) i =
        (if x = i then [v] else []) ++ landing (range' (x + 1) vals.length) vals i := by
      rw [length_cons, range'_succ, landing, zip_cons_cons, filter_cons]
      by_cases h : x = i
      · simp [h, landing]
      · simp [h, landing]
    rw [hcons, ih, length_cons]
    rcases Nat.lt_trichotomy x i with hlt | rfl | hgt
    · rw [if_neg (by omega), nil_append]
      by_cases hin : i < x + 1 + vals.length
      · rw [if_pos ⟨by omega, hin⟩, if_pos ⟨by omega, by omega⟩, show i - x = (i - (x + 1)) + 1 by omega]
        rfl
      · rw [if_neg (by omega), if_neg (by omega)]
    · rw [if_pos rfl, if_neg (by omega), if_pos ⟨le_rfl, by omega⟩, Nat.sub_self]
      rfl
    · rw [if_neg (by omega), if_neg (by omega), if_neg (by omega)]
      rfl

lemma landing_map_range {n : ℕ} {vals : List Llr} (h : vals.length = n) (g : ℕ → ℕ) (i : ℕ) :
    landing ((range n).map g) vals i = ((range n).filter fun t => g t = i).map fun t => vals.getD t 0 := by
  have hvals : vals = (range n).map fun t => vals.getD t 0 := by
    apply ext_getElem
    · rw [length_map, length_range, h]
    · intro t h1 _
      rw [getElem_map, getElem_range, getD_eq_getElem _ _ h1]
  conv_lhs => rw [hvals]
  rw [landing, zip_map', filter_map, List.map_map]
  rfl

lemma mapIdx_congr {out : List Llr} {f g : ℕ → Llr → Llr} (h : ∀ i v, f i v = g i v) : out.mapIdx f = out.mapIdx g :=
  mapIdx_eq_mapIdx_iff.mpr fun i hi => h i (out.get ⟨i, hi⟩)

lemma mapPart_zero (pos : ℕ) (f : ℕ → Llr → Llr) : mapPart out pos 0 f = out := by
  have hid : out.mapIdx (fun _ v => v) = out := mapIdx_eq_iff.mpr fun i => (congrFun Option.map_id _).symm
  conv_rhs => rw [← hid]
  apply mapIdx_congr
  intro i v
  exact if_neg (by omega)

lemma combineAt_eq (x : ℕ) (chunk : List Llr) :
    combineAt out x chunk = out.mapIdx fun i v => total v (landing (range' x chunk.length) chunk i) := by
  apply mapIdx_congr
  intro i v
  rw [landing_range']
  split <;> rfl

namespace Setup

variable {s : Setup}

/-! ### One pass -/

section Pass

variable (s) (x n : ℕ)

def systematicCount : ℕ := if x < s.nofInfoBits then min (s.nofInfoBits - x) n else 0

def parityStart : ℕ :=
  if x + s.systematicCount x n < s.nofSystematicBits then s.nofSystematicBits else x + s.systematicCount x n

def parityCount : ℕ := min (s.bufferLength - s.parityStart x n) (n - s.systematicCount x n)

def passPositions : List ℕ :=
  List.range' x (s.systematicCount x n) ++ List.range' (s.parityStart x n) (s.parityCount x n)

def passCount : ℕ := s.systematicCount x n + s.parityCount x n

def passStop : ℕ := (s.parityStart x n + s.parityCount x n) % s.bufferLength

variable (inp : List Llr)

def systematicChunk : List Llr := inp.take (s.systematicCount x inp.length)

def parityChunk : List Llr := (inp.drop (s.systematicCount x inp.length)).take (s.parityCount x inp.length)

def passLanding (i : ℕ) : List Llr := landing (s.passPositions x inp.length) (inp.take (s.passCount x inp.length)) i

def passOut (copyMode : Bool) (out : List Llr) : List Llr :=
  let out :=
    if x < s.nofInfoBits then
      if copyMode then copyAt (zeroFirst out x) x (s.systematicChunk x inp)
      else combineAt out x (s.systematicChunk x inp)
    else if copyMode then zeroFirst out s.nofInfoBits
    else out
  let out := if copyMode then fillInfinity out s.nofInfoBits s.nofFillerBits else out
  if copyMode then copyAt out (s.parityStart x inp.length) (s.parityChunk x inp)
  else combineAt out (s.parityStart x inp.length) (s.parityChunk x inp)

end Pass

lemma passCount_le (x n : ℕ) : s.passCount x n ≤ n := by
  unfold passCount parityCount systematicCount
  split <;> omega

lemma systematic_le_parityStart (x n : ℕ) : s.nofSystematicBits ≤ s.parityStart x n := by
  unfold parityStart
  split <;> omega

lemma systematicCount_le (x n : ℕ) : s.systematicCount x n = 0 ∨ x + s.systematicCount x n ≤ s.nofInfoBits := by
  unfold systematicCount
  split <;> omega

lemma parityStart_le {x : ℕ} (hx : x < s.bufferLength) (n : ℕ) : s.parityStart x n ≤ s.bufferLength := by
  have h2 := info_le (s := s)
  have h3 := systematic_le_buffer (s := s)
  unfold parityStart systematicCount
  split <;> split <;> omega

lemma positions_parity {y : ℕ} (hy : s.nofSystematicBits ≤ y) (hle : y ≤ s.bufferLength) (m : ℕ) :
    s.ring.positions (y % s.bufferLength) m = range' y (min (s.bufferLength - y) m) ++
      s.ring.positions ((y + min (s.bufferLength - y) m) % s.bufferLength) (m - min (s.bufferLength - y) m) := by
  obtain rfl | hlt := Nat.eq_or_lt_of_le hle
  · rw [Nat.sub_self, Nat.zero_min]
    rfl
  · have hchunk := s.ring.positions_chunk hlt (min (s.bufferLength - y) m) (m - min (s.bufferLength - y) m)
      (show y + min (s.bufferLength - y) m ≤ s.bufferLength by omega) ?_
    · rw [Nat.add_sub_cancel' (Nat.min_le_right _ _)] at hchunk
      rw [mod_eq_of_lt hlt]
      exact hchunk
    · intro z hz _ hgap
      have : z < s.nofSystematicBits := hgap.2
      omega

lemma positions_pass {x : ℕ} (hx : x < s.bufferLength) (n : ℕ) : s.ring.positions x n = s.passPositions x n ++
    s.ring.positions (s.passStop x n) (n - s.passCount x n) := by
  have h2 := info_le (s := s)
  have h3 := systematic_le_buffer (s := s)
  have hcount := passCount_le (s := s) x n
  have hle := parityStart_le hx n
  -- the positions before the fillers
  have hfirst : s.ring.positions x n = range' x (s.systematicCount x n) ++
      s.ring.positions ((x + s.systematicCount x n) % s.bufferLength) (n - s.systematicCount x n) := by
    have hchunk := s.ring.positions_chunk hx (s.systematicCount x n) (n - s.systematicCount x n) ?_ ?_
    · rw [Nat.add_sub_cancel' (by unfold passCount at hcount; omega)] at hchunk
      exact hchunk
    · show x + s.systematicCount x n ≤ s.bufferLength
      unfold systematicCount
      split <;> omega
    · intro z _ hz hgap
      have : s.nofInfoBits ≤ z := hgap.1
      unfold systematicCount at hz
      split at hz <;> omega
  rw [hfirst, passPositions, append_assoc]
  congr 1
  unfold passCount at hcount ⊢
  rw [← Nat.sub_sub]
  by_cases hall : n - s.systematicCount x n = 0
  · -- there is nothing left
    have hzero : s.parityCount x n = 0 := by
      unfold parityCount
      omega
    rw [hall, hzero]
    rfl
  · have hge : s.nofInfoBits ≤ x + s.systematicCount x n := by
      by_cases hinfo : x < s.nofInfoBits
      · rw [systematicCount, if_pos hinfo] at hall ⊢
        omega
      · omega
    have hskip : s.ring.positions ((x + s.systematicCount x n) % s.bufferLength) (n - s.systematicCount x n) =
        s.ring.positions (s.parityStart x n % s.bufferLength) (n - s.systematicCount x n) := by
      unfold parityStart
      split
      next hlt =>
        rw [mod_eq_of_lt (hlt.trans_le h3)]
        exact s.ring.positions_of_gap ⟨hge, hlt⟩ _
      · rfl
    rw [hskip, positions_parity (systematic_le_parityStart x n) hle]
    rfl

variable {inp : List Llr}

variable (x : ℕ)

lemma length_parityChunk (inp : List Llr) : (s.parityChunk x inp).length = s.parityCount x inp.length := by
  have hcount := passCount_le (s := s) x inp.length
  unfold passCount at hcount
  rw [parityChunk, length_take, length_drop]
  omega

lemma length_systematicChunk (inp : List Llr) : (s.systematicChunk x inp).length = s.systematicCount x inp.length := by
  have hcount := passCount_le (s := s) x inp.length
  unfold passCount at hcount
  rw [systematicChunk, length_take]
  omega

lemma passLanding_eq (inp : List Llr) (i : ℕ) : s.passLanding x inp i =
    landing (range' x (s.systematicChunk x inp).length) (s.systematicChunk x inp) i ++
      landing (range' (s.parityStart x inp.length) (s.parityChunk x inp).length) (s.parityChunk x inp) i := by
  rw [passLanding, passPositions, passCount, take_add, length_systematicChunk, length_parityChunk]
  apply landing_append
  rw [length_range']
  exact (length_systematicChunk x inp).symm

lemma allotPass_eq {x : ℕ} (hx : x < s.bufferLength) (copyMode : Bool) (out inp : List Llr) :
    allotPass s.selection copyMode out x inp =
      some (s.passOut x inp copyMode out, s.passStop x inp.length, inp.drop (s.passCount x inp.length)) := by
  have hcount : min (s.bufferLength - s.parityStart x inp.length)
      (inp.drop (s.systematicCount x inp.length)).length = s.parityCount x inp.length := by
    rw [length_drop]
    rfl
  unfold passOut parityChunk passStop passCount
  rw [← hcount, ← drop_drop]
  exact if_neg (not_lt.mpr (parityStart_le hx inp.length))

lemma passOut_combine (out inp : List Llr) :
    s.passOut x inp false out = out.mapIdx fun i v => total v (s.passLanding x inp i) := by
  have hfirst : (if x < s.nofInfoBits then combineAt out x (s.systematicChunk x inp) else out) =
      combineAt out x (s.systematicChunk x inp) := by
    split
    · rfl
    next hinfo =>
      rw [systematicChunk, systematicCount, if_neg hinfo]
      exact (mapPart_zero ..).symm
  simp only [passOut, Bool.false_eq_true, if_false, hfirst]
  simp only [combineAt_eq, mapIdx_mapIdx, passLanding_eq, total_append]
  rfl

section NewData

variable (s) (x n : ℕ)

/-- A pass over `n` positions from `x` writes the position. -/
def PassWrites (i : ℕ) : Prop :=
  i < min x s.nofInfoBits ∨ (x ≤ i ∧ i < x + s.systematicCount x n) ∨
    (s.parityStart x n ≤ i ∧ i < s.parityStart x n + s.parityCount x n)

instance (i : ℕ) : Decidable (s.PassWrites x n i) := inferInstanceAs (Decidable (_ ∨ _ ∨ _))

def passBase (i : ℕ) (v : Llr) : Llr :=
  if s.ring.Gap i then infinity else if s.PassWrites x n i then 0 else v

end NewData

lemma copied_position {start stop cleared x n1 y n2 : ℕ} (h1 : n1 = 0 ∨ x + n1 ≤ start) (hle : start ≤ stop) (h2 : stop ≤ y)
    (v a b : Llr) (i : ℕ) :
    (if y ≤ i ∧ i < y + n2 then b
      else if start ≤ i ∧ i < stop then infinity
      else if x ≤ i ∧ i < x + n1 then a
      else if i < cleared then 0
      else v) =
    total (if start ≤ i ∧ i < stop then infinity
        else if i < cleared ∨ (x ≤ i ∧ i < x + n1) ∨ (y ≤ i ∧ i < y + n2) then 0
        else v) ((if x ≤ i ∧ i < x + n1 then [a] else []) ++ if y ≤ i ∧ i < y + n2 then [b] else []) := by
  by_cases hy : y ≤ i ∧ i < y + n2
  · rw [if_pos hy, if_neg (by omega), if_pos (.inr (.inr hy)), if_pos hy]
    -- the chunks are on different sides of the fillers
    rw [if_neg (by omega)]
    exact (zero_add' b).symm
  · rw [if_neg hy, if_neg hy, append_nil]
    by_cases hgap : start ≤ i ∧ i < stop
    · rw [if_pos hgap, if_pos hgap, if_neg (by omega)]
      rfl
    · rw [if_neg hgap, if_neg hgap]
      by_cases hx : x ≤ i ∧ i < x + n1
      · rw [if_pos hx, if_pos (.inr (.inl hx)), if_pos hx]
        exact (zero_add' a).symm
      · rw [if_neg hx, if_neg hx]
        by_cases hlt : i < cleared
        · rw [if_pos hlt, if_pos (.inl hlt)]
          rfl
        · rw [if_neg hlt, if_neg (by tauto)]
          rfl

lemma passOut_copy (out inp : List Llr) : s.passOut x inp true out =
    out.mapIdx fun i v => total (s.passBase x inp.length i v) (s.passLanding x inp i) := by
  have h2 := info_le (s := s)
  have h3 : s.nofInfoBits + s.nofFillerBits = s.nofSystematicBits := Nat.sub_add_cancel s.filler_lt.le
  have hout : (if x < s.nofInfoBits then copyAt (zeroFirst out x) x (s.systematicChunk x inp)
      else zeroFirst out s.nofInfoBits) =
      copyAt (zeroFirst out (min x s.nofInfoBits)) x (s.systematicChunk x inp) := by
    split
    next hinfo => rw [Nat.min_eq_left hinfo.le]
    next hinfo =>
      rw [Nat.min_eq_right (by omega), systematicChunk, systematicCount, if_neg hinfo]
      exact (mapPart_zero ..).symm
  simp only [passOut, if_true, hout]
  simp only [copyAt, fillInfinity, zeroFirst, mapPart, mapIdx_mapIdx]
  apply mapIdx_congr
  intro i v
  rw [passLanding_eq, landing_range', landing_range', length_systematicChunk, length_parityChunk]
  simp only [Function.comp, h3, Nat.zero_le, true_and, Nat.zero_add]
  exact copied_position (systematicCount_le x _) h2 (systematic_le_parityStart x _) v _ _ i

/-! ### The loop -/

lemma allotLoop_nil (p : Selection) (fuel : ℕ) (copyMode : Bool) (out : List Llr) (tmpIdx : ℕ) :
    allotLoop p fuel copyMode out tmpIdx [] = some (out, tmpIdx, copyMode) := by
  cases fuel <;> rfl

lemma allotLoop_succ (p : Selection) (fuel : ℕ) (copyMode : Bool) (out : List Llr) (tmpIdx : ℕ)
    (h : inp ≠ []) : allotLoop p (fuel + 1) copyMode out tmpIdx inp =
      (allotPass p copyMode out tmpIdx inp).bind fun r =>
        allotLoop p fuel (if r.2.2.isEmpty then copyMode else false) r.1 r.2.1 r.2.2 := by
  obtain _ | ⟨v, inp⟩ := inp
  · exact absurd rfl h
  · rfl

lemma length_passPositions (inp : List Llr) :
    (s.passPositions x inp.length).length = (inp.take (s.passCount x inp.length)).length := by
  have hcount := passCount_le (s := s) x inp.length
  rw [passPositions, length_append, length_range', length_range', length_take]
  unfold passCount at hcount ⊢
  omega

lemma landing_positions {x : ℕ} (hx : x < s.bufferLength) (inp : List Llr) (i : ℕ) :
    landing (s.ring.positions x inp.length) inp i = s.passLanding x inp i ++
      landing (s.ring.positions (s.passStop x inp.length) (inp.drop (s.passCount x inp.length)).length)
        (inp.drop (s.passCount x inp.length)) i := by
  rw [passLanding, ← landing_append (length_passPositions x inp), take_append_drop, length_drop, ← positions_pass hx]

lemma passStop_eq_zero {x n : ℕ} (hx : x < s.bufferLength) (h : s.passCount x n < n) : s.passStop x n = 0 := by
  have hle := parityStart_le hx n
  have hfull : s.parityStart x n + s.parityCount x n = s.bufferLength := by
    unfold passCount at h
    unfold parityCount at h ⊢
    omega
  rw [passStop, hfull, mod_self]

lemma passCount_pos {x n : ℕ} (hx : x < s.nofInfoBits) (hn : 0 < n) : 0 < s.passCount x n := by
  unfold passCount systematicCount
  rw [if_pos hx]
  omega

lemma allotLoop_combine {fuel x : ℕ} (hx : x < s.bufferLength) (out inp : List Llr)
    (hf : inp.length + (if x < s.nofInfoBits then 0 else 1) ≤ fuel) :
    ∃ tmpIdx, allotLoop s.selection fuel false out x inp =
      some (out.mapIdx fun i v => total v (landing (s.ring.positions x inp.length) inp i), tmpIdx, false) := by
  have h1 := info_pos (s := s)
  induction fuel generalizing x out inp with
  | zero =>
    obtain rfl : inp = [] := length_eq_zero_iff.mp (by omega)
    refine ⟨x, ?_⟩
    rw [allotLoop_nil]
    exact congrArg (fun l => some (l, x, false)) (mapPart_zero out 0 fun _ v => v).symm
  | succ fuel ih =>
    by_cases hnil : inp = []
    · subst hnil
      refine ⟨x, ?_⟩
      rw [allotLoop_nil]
      exact congrArg (fun l => some (l, x, false)) (mapPart_zero out 0 fun _ v => v).symm
    · have hpos : 0 < inp.length := length_pos_iff.mpr hnil
      rw [allotLoop_succ _ _ _ _ _ hnil, allotPass_eq hx, passOut_combine]
      simp only [Option.bind_some, ite_self, landing_positions hx, total_append]
      generalize hrest : inp.drop (s.passCount x inp.length) = rest
      obtain _ | ⟨w, rest'⟩ := rest
      · refine ⟨_, allotLoop_nil ..⟩
      · -- the next pass starts at the first position
        have hlen : inp.length - s.passCount x inp.length = (w :: rest').length := by
          rw [← hrest, length_drop]
        have hlen' : (w :: rest').length = rest'.length + 1 := rfl
        have hzero := passStop_eq_zero hx (show s.passCount x inp.length < inp.length by omega)
        have hfuel : (w :: rest').length + (if 0 < s.nofInfoBits then 0 else 1) ≤ fuel := by
          rw [if_pos h1]
          split at hf
          next hinfo =>
            have := passCount_pos hinfo hpos
            omega
          · omega
        obtain ⟨tmpIdx, hcode⟩ := ih s.ring.size_pos (out.mapIdx fun i v => total v (s.passLanding x inp i))
          (w :: rest') hfuel
        refine ⟨tmpIdx, ?_⟩
        rw [hzero, hcode, mapIdx_mapIdx]
        rfl

section Cleared

variable (s)

def passEnd : ℕ := (s.parityStart s.shiftK0 s.rmLength + s.parityCount s.shiftK0 s.rmLength) % s.bufferLength

/-- The positions of the first pass, and those set to zero when it was the only one. -/
def Written (i : ℕ) : Prop :=
  s.PassWrites s.shiftK0 s.rmLength i ∨
    (s.passCount s.shiftK0 s.rmLength = s.rmLength ∧ s.passEnd ≠ 0 ∧
      s.blockLength - (s.bufferLength - s.passEnd) ≤ i)

instance (i : ℕ) : Decidable (s.Written i) := inferInstanceAs (Decidable (_ ∨ _))

/-- What the inputs of new data are added to. -/
def cleared (i : ℕ) (v : Llr) : Llr :=
  if s.ring.Gap i then infinity else if s.Written i then 0 else v

end Cleared

lemma passEnd_eq (h : s.passEnd ≠ 0) :
    s.passEnd = s.parityStart s.shiftK0 s.rmLength + s.parityCount s.shiftK0 s.rmLength ∧
      s.passEnd < s.bufferLength := by
  have hle := parityStart_le (s := s) shiftK0_lt s.rmLength
  have hend : s.parityStart s.shiftK0 s.rmLength + s.parityCount s.shiftK0 s.rmLength ≤ s.bufferLength := by
    unfold parityCount
    omega
  unfold passEnd at h ⊢
  obtain heq | hlt := Nat.eq_or_lt_of_le hend
  · rw [heq, mod_self] at h
    exact absurd rfl h
  · rw [mod_eq_of_lt hlt]
    exact ⟨rfl, hlt⟩

lemma landing_pass_behind (hinp : inp.length = s.rmLength) {i : ℕ} (hend : s.passEnd ≠ 0) (hi : s.passEnd ≤ i) :
    s.passLanding s.shiftK0 inp i = [] := by
  have h2 := info_le (s := s)
  obtain ⟨heq, -⟩ := passEnd_eq hend
  have h3 := systematic_le_parityStart (s := s) s.shiftK0 s.rmLength
  have h4 := systematicCount_le (s := s) s.shiftK0 s.rmLength
  rw [passLanding_eq, landing_range', landing_range', length_systematicChunk, length_parityChunk, hinp,
    if_neg (by omega), if_neg (by omega)]
  rfl

lemma cleared_eq_passBase {i : ℕ} (h : ¬ (s.passCount s.shiftK0 s.rmLength = s.rmLength ∧ s.passEnd ≠ 0 ∧
    s.blockLength - (s.bufferLength - s.passEnd) ≤ i)) (v : Llr) :
    s.cleared i v = s.passBase s.shiftK0 s.rmLength i v := by
  have hiff : s.Written i ↔ s.PassWrites s.shiftK0 s.rmLength i := or_iff_left h
  simp [cleared, passBase, hiff]

/-- **New data.**  The inputs are added to what the first pass and the end of the loop have cleared. -/
theorem allotLlrs_new {out : List Llr} (hout : out.length = s.blockLength) (hinp : inp.length = s.rmLength)
    (hpos : 0 < s.rmLength) :
    allotLlrs s.selection true out inp = some (out.mapIdx fun i v =>
      total (s.cleared i v) (landing (s.ring.positions s.shiftK0 inp.length) inp i)) := by
  have hk := shiftK0_lt (s := s)
  have hne : inp ≠ [] := by
    rw [← length_pos_iff]
    omega
  have hloop := allotLoop_succ s.selection inp.length true out s.shiftK0 hne
  rw [allotPass_eq hk, passOut_copy, Option.bind_some] at hloop
  have hcount := passCount_le (s := s) s.shiftK0 inp.length
  by_cases hall : s.passCount s.shiftK0 inp.length = inp.length
  · -- there is one pass only
    have hdrop : inp.drop (s.passCount s.shiftK0 inp.length) = [] := by rw [hall, drop_length]
    have hpositions (i : ℕ) :
        landing (s.ring.positions s.shiftK0 inp.length) inp i = s.passLanding s.shiftK0 inp i := by
      rw [landing_positions hk, hdrop]
      exact append_nil _
    have hend : s.passStop s.shiftK0 inp.length = s.passEnd := by rw [hinp]; rfl
    rw [hdrop] at hloop
    simp only [isEmpty_nil, if_true, allotLoop_nil, hend] at hloop
    have hcode : allotLlrs s.selection true out inp = (allotLoop s.selection (inp.length + 1) true out s.shiftK0 inp).map
        fun r => if r.2.2 = true ∧ r.2.1 ≠ 0 then zeroLast r.1 (s.bufferLength - r.2.1) else r.1 := by
      show (allotLoop s.selection (inp.length + 1) true out s.shiftK0 inp).bind _ = _
      cases allotLoop s.selection (inp.length + 1) true out s.shiftK0 inp <;> rfl
    rw [hcode, hloop]
    simp only [Option.map_some, true_and, hpositions]
    congr 1
    split
    next hne0 =>
      obtain ⟨heq, hlt⟩ := passEnd_eq hne0
      have hB := buffer_le (s := s)
      have h3 := systematic_le_parityStart (s := s) s.shiftK0 s.rmLength
      have hall' : s.passCount s.shiftK0 s.rmLength = s.rmLength := hinp ▸ hall
      rw [zeroLast, mapPart, mapIdx_mapIdx, length_mapIdx, hout]
      apply mapIdx_eq_mapIdx_iff.mpr
      intro i hi
      simp only [Function.comp]
      by_cases hlast : s.blockLength - (s.bufferLength - s.passEnd) ≤ i
      · have hgap : ¬ s.ring.Gap i := fun h => by
          have : i < s.nofSystematicBits := h.2
          omega
        rw [if_pos (by omega), landing_pass_behind hinp hne0 (by omega), cleared, if_neg hgap,
          if_pos (.inr ⟨hall', hne0, hlast⟩)]
        rfl
      · rw [if_neg (by omega), cleared_eq_passBase fun h => hlast h.2.2, hinp]
    next hzero =>
      apply mapIdx_congr
      intro i v
      rw [cleared_eq_passBase fun h => hzero h.2.1, hinp]
  · -- the other passes combine, from the first position on
    have hlt : s.passCount s.shiftK0 inp.length < inp.length := by omega
    have hrest : (inp.drop (s.passCount s.shiftK0 inp.length)).isEmpty = false := by
      rw [isEmpty_eq_false_iff, ← length_pos_iff, length_drop]
      omega
    simp only [passStop_eq_zero hk hlt, hrest, Bool.false_eq_true, if_false] at hloop
    obtain ⟨tmpIdx, hcombine⟩ := allotLoop_combine (s := s) (x := 0) s.ring.size_pos (out.mapIdx fun i v =>
      total (s.passBase s.shiftK0 inp.length i v) (s.passLanding s.shiftK0 inp i)) (inp.drop (s.passCount s.shiftK0 inp.length))
      (show _ ≤ inp.length by rw [if_pos info_pos, length_drop]; omega)
    rw [hcombine] at hloop
    rw [allotLlrs]
    show (allotLoop s.selection (inp.length + 1) true out s.shiftK0 inp).bind _ = _
    rw [hloop, mapIdx_mapIdx]
    simp only [Option.bind_some, Bool.false_eq_true, false_and, if_false]
    refine congrArg some (mapIdx_congr fun i v => ?_)
    have hbase : ¬ (s.passCount s.shiftK0 s.rmLength = s.rmLength ∧ s.passEnd ≠ 0 ∧
        s.blockLength - (s.bufferLength - s.passEnd) ≤ i) := fun h => by
      rw [← hinp] at h
      omega
    rw [landing_positions hk, total_append, passStop_eq_zero hk hlt, cleared_eq_passBase hbase, ← hinp]
    rfl

/-- **A retransmission.**  The inputs are added to the previous content. -/
theorem allotLlrs_combine (out inp : List Llr) : allotLlrs s.selection false out inp =
    some (out.mapIdx fun i v => total v (landing (s.ring.positions s.shiftK0 inp.length) inp i)) := by
  obtain ⟨tmpIdx, hloop⟩ := allotLoop_combine shiftK0_lt out inp
    (show inp.length + (if s.shiftK0 < s.nofInfoBits then 0 else 1) ≤ inp.length + 1 by split <;> omega)
  show (allotLoop s.selection (inp.length + 1) false out s.shiftK0 inp).bind _ = _
  rw [hloop]
  rfl

/-! ### What is left of the previous content -/

lemma firstPass (s : Setup) : ∃ count start parity, s.systematicCount s.shiftK0 s.rmLength = count ∧
    s.parityStart s.shiftK0 s.rmLength = start ∧ s.parityCount s.shiftK0 s.rmLength = parity ∧
    (s.shiftK0 < s.nofInfoBits → count = min (s.nofInfoBits - s.shiftK0) s.rmLength) ∧
    (s.nofInfoBits ≤ s.shiftK0 → count = 0) ∧ start = max s.nofSystematicBits (s.shiftK0 + count) ∧
    parity = min (s.bufferLength - start) (s.rmLength - count) ∧ start ≤ s.bufferLength := by
  refine ⟨_, _, _, rfl, rfl, rfl, ?_, ?_, ?_, rfl, parityStart_le shiftK0_lt _⟩
  · intro h
    exact if_pos h
  · intro h
    exact if_neg (not_lt.mpr h)
  · unfold parityStart
    split <;> omega

/-- **Nothing is left** exactly under the condition. -/
lemma written_iff_clears (hpos : 0 < s.rmLength) : (∀ i < s.blockLength, ¬ s.ring.Gap i → s.Written i) ↔ s.Clears := by
  have h1 := info_pos (s := s)
  have h2 := info_le (s := s)
  have h3 := systematic_le_buffer (s := s)
  have h4 := systematic_lt (s := s)
  have h5 := buffer_le (s := s)
  have h6 := shiftK0_lt (s := s)
  have hgap (i : ℕ) : s.ring.Gap i ↔ s.nofInfoBits ≤ i ∧ i < s.nofSystematicBits := .rfl
  have hend := passEnd_eq (s := s)
  have hfull (h : s.parityStart s.shiftK0 s.rmLength + s.parityCount s.shiftK0 s.rmLength < s.bufferLength) :
      s.passEnd = s.parityStart s.shiftK0 s.rmLength + s.parityCount s.shiftK0 s.rmLength := mod_eq_of_lt h
  obtain ⟨count, start, parity, hcount, hstart, hparity, hbefore, hbehind, hmax, hmin, hle⟩ := firstPass s
  simp only [Clears, Written, PassWrites, passCount, hgap, hcount, hstart, hparity] at *
  constructor
  · intro h
    have hB : s.bufferLength = s.blockLength := by
      by_contra hne
      by_cases hone : count + parity = s.rmLength ∧ s.passEnd ≠ 0
      · -- the end of the output is cleared, and not what follows the pass
        have := h s.passEnd (by omega) (by omega)
        omega
      · have := h s.bufferLength (by omega) (by omega)
        omega
    have hk : s.shiftK0 ≤ s.nofSystematicBits := by
      by_contra hlt
      have := h s.nofSystematicBits h4 (by omega)
      omega
    refine ⟨hpos, hB, hk, fun hinfo => ?_⟩
    by_contra hlt
    have := h (s.shiftK0 + s.rmLength) (by omega) (by omega)
    omega
  · rintro ⟨-, hB, hk, hinfo⟩ i hi hnot
    by_cases hafter : start + parity ≤ i
    · have := hfull (by omega)
      omega
    · omega

/-! ### The order of the inputs -/

section Order

variable (s)

/-- The input that is selected as number `t`: the inverse of `selected`. -/
def arrival (t : ℕ) : ℕ := s.modulationOrder * (t % s.nofSymbols) + t / s.nofSymbols

def selectedOf (i : ℕ) : List ℕ := (List.range s.rmLength).filter fun t => s.ring.pick s.shiftK0 t = i

end Order

lemma selected_arrival {t : ℕ} (ht : t < s.rmLength) : s.selected (s.arrival t) = t := by
  rw [← order_mul_symbols] at ht
  have hrow : t / s.nofSymbols < s.modulationOrder := Nat.div_lt_of_lt_mul (mul_comm s.modulationOrder _ ▸ ht)
  have hmod : s.arrival t % s.modulationOrder = t / s.nofSymbols := by
    rw [arrival, mul_add_mod, mod_eq_of_lt hrow]
  have hdiv : s.arrival t / s.modulationOrder = t % s.nofSymbols := by
    rw [arrival, mul_add_div order_pos, div_eq_of_lt hrow, add_zero]
  rw [selected, hmod, hdiv]
  exact div_add_mod t s.nofSymbols

lemma arrival_selected {j : ℕ} (hj : j < s.rmLength) : s.arrival (s.selected j) = j := by
  rw [← order_mul_symbols] at hj
  have hcol : j / s.modulationOrder < s.nofSymbols := Nat.div_lt_of_lt_mul hj
  have hmod : s.selected j % s.nofSymbols = j / s.modulationOrder := by
    rw [selected, mul_add_mod, mod_eq_of_lt hcol]
  have hdiv : s.selected j / s.nofSymbols = j % s.modulationOrder := by
    rw [selected, mul_add_div (by omega), div_eq_of_lt hcol, add_zero]
  rw [arrival, hmod, hdiv]
  exact div_add_mod j s.modulationOrder

lemma arrival_lt {t : ℕ} (ht : t < s.rmLength) : s.arrival t < s.rmLength := by
  rw [← order_mul_symbols] at ht ⊢
  have hpos : 0 < s.nofSymbols := Nat.pos_of_ne_zero fun h => by
    rw [h] at ht
    omega
  have hrow : t / s.nofSymbols < s.modulationOrder := Nat.div_lt_of_lt_mul (mul_comm s.modulationOrder _ ▸ ht)
  have hcol : t % s.nofSymbols < s.nofSymbols := mod_lt _ hpos
  calc s.arrival t < s.modulationOrder * (t % s.nofSymbols) + s.modulationOrder := Nat.add_lt_add_left hrow _
    _ = s.modulationOrder * (t % s.nofSymbols + 1) := (mul_succ _ _).symm
    _ ≤ s.modulationOrder * s.nofSymbols := Nat.mul_le_mul_left _ hcol

end Setup

lemma foldl_set (f : ℕ → Llr) (ws : List (ℕ × Llr)) (hws : ∀ w ∈ ws, w.2 = f w.1) (out : List Llr) :
    (ws.foldl (fun out w => out.set w.1 w.2) out).length = out.length ∧
      ∀ t < out.length, (t ∈ ws.map Prod.fst ∨ out.getD t 0 = f t) →
        (ws.foldl (fun out w => out.set w.1 w.2) out).getD t 0 = f t := by
  induction ws generalizing out with
  | nil => exact ⟨rfl, fun t _ h => h.resolve_left not_mem_nil⟩
  | cons w ws ih =>
    obtain ⟨hlen, hget⟩ := ih (fun w' hw' => hws w' (mem_cons_of_mem _ hw')) (out.set w.1 w.2)
    rw [length_set] at hlen hget
    refine ⟨hlen, fun t ht h => hget t ht ?_⟩
    by_cases hw : w.1 = t
    · right
      rw [getD_eq_getElem _ _ (by rwa [length_set]), getElem_set, if_pos hw, hws w mem_cons_self, hw]
    · rw [getD_eq_getElem _ _ (by rwa [length_set]), getElem_set, if_neg hw, ← getD_eq_getElem _ 0 ht]
      exact h.imp_left fun h => (mem_cons.mp h).resolve_left fun h => hw h.symm

lemma deinterleaveBitsQm_eq {Qm K : ℕ} (hQm : 0 < Qm) {out : List Llr} (hout : out.length = Qm * K) (inp : List Llr) :
    (deinterleaveBitsQm Qm out inp).length = Qm * K ∧
      ∀ t < Qm * K, (deinterleaveBitsQm Qm out inp).getD t 0 = inp.getD (Qm * (t % K) + t / K) 0 := by
  have hK : out.length / Qm = K := by rw [hout, Nat.mul_div_cancel_left _ hQm]
  let ws := (range K).flatMap fun i => (range Qm).map fun j => (K * j + i, inp.getD (Qm * i + j) 0)
  have hcode : deinterleaveBitsQm Qm out inp = ws.foldl (fun out w => out.set w.1 w.2) out := by
    rw [foldl_flatMap]
    simp only [foldl_map, deinterleaveBitsQm, hK]
  have hws : ∀ w ∈ ws, w.2 = inp.getD (Qm * (w.1 % K) + w.1 / K) 0 := by
    intro w hw
    obtain ⟨i, hi, hw⟩ := mem_flatMap.mp hw
    obtain ⟨j, -, rfl⟩ := mem_map.mp hw
    have hi := mem_range.mp hi
    rw [mul_add_mod, mod_eq_of_lt hi, mul_add_div (by omega), div_eq_of_lt hi, Nat.add_zero]
  obtain ⟨hlen, hget⟩ := foldl_set (fun t => inp.getD (Qm * (t % K) + t / K) 0) ws hws out
  rw [hcode, hlen, ← hout]
  refine ⟨rfl, fun t ht => hget t ht (.inl ?_)⟩
  have hpos : 0 < K := Nat.pos_of_ne_zero fun h => by
    rw [hout, h] at ht
    omega
  have hj : t / K < Qm := Nat.div_lt_of_lt_mul (by rwa [Nat.mul_comm, ← hout])
  refine mem_map.mpr ⟨(t, inp.getD (Qm * (t % K) + t / K) 0), ?_, rfl⟩
  refine mem_flatMap.mpr ⟨t % K, mem_range.mpr (mod_lt _ hpos), ?_⟩
  refine mem_map.mpr ⟨t / K, mem_range.mpr hj, ?_⟩
  rw [div_add_mod]

namespace Setup

variable {s : Setup}

def deinterleaved (s : Setup) (input aux : List Llr) : List Llr :=
  if s.modulationOrder = 1 then input else deinterleaveLlrs s.modulationOrder aux input

lemma deinterleaved_eq {input aux : List Llr} (hinput : input.length = s.rmLength) (haux : aux.length = s.rmLength) :
    (s.deinterleaved input aux).length = s.rmLength ∧
      ∀ t < s.rmLength, (s.deinterleaved input aux).getD t 0 = input.getD (s.arrival t) 0 := by
  have hmul := order_mul_symbols (s := s)
  unfold deinterleaved
  split
  next hone =>
    refine ⟨hinput, fun t ht => ?_⟩
    rw [arrival, hone, one_mul]
    rw [hone, one_mul] at hmul
    rw [hmul, mod_eq_of_lt ht, div_eq_of_lt ht, add_zero]
  next hone =>
    have hcode : deinterleaveLlrs s.modulationOrder aux input = deinterleaveBitsQm s.modulationOrder aux input := by
      unfold modulationOrder at hone ⊢
      cases hmod : s.mod <;> first | rfl | exact absurd (by rw [hmod]; rfl) hone
    rw [hcode, ← hmul]
    exact deinterleaveBitsQm_eq order_pos (haux.trans hmul.symm) input

lemma rateDematch_eq {output input aux : List Llr} (hout : output.length = s.blockLength)
    (hinput : input.length = s.rmLength) (newData : Bool) :
    rateDematch output input newData s.metadata aux =
      if s.nref ≤ maxCodeblockSize ∧ s.rmLength ≤ maxCodeblockRmSize then
        allotLlrs s.selection newData output (s.deinterleaved input aux) else none := by
  unfold rateDematch
  rw [hout, hinput, init_eq]
  have hnref : s.metadata.nref = s.nref := rfl
  rw [hnref]
  by_cases h1 : s.nref > maxCodeblockSize
  · have hlimits : ¬ (s.nref ≤ maxCodeblockSize ∧ s.rmLength ≤ maxCodeblockRmSize) := by omega
    rw [if_pos h1, if_neg hlimits]
    rfl
  · rw [if_neg h1]
    by_cases h2 : s.rmLength ≤ maxCodeblockRmSize
    · rw [if_pos h2, if_pos ⟨by omega, h2⟩, deinterleaved]
      have horder : s.selection.modulationOrder = s.modulationOrder := rfl
      show (if s.selection.modulationOrder = 1 then _ else _) = _
      rw [horder]
      split <;> rfl
    · rw [if_neg h2, if_neg fun h => h2 h.2]
      rfl

lemma landing_deinterleaved {input aux : List Llr} (hinput : input.length = s.rmLength)
    (haux : aux.length = s.rmLength) (i : ℕ) :
    landing (s.ring.positions s.shiftK0 (s.deinterleaved input aux).length) (s.deinterleaved input aux) i =
      (s.selectedOf i).map fun t => input.getD (s.arrival t) 0 := by
  obtain ⟨hlen, hget⟩ := deinterleaved_eq hinput haux
  rw [hlen, GapRing.positions, landing_map_range hlen]
  apply map_congr_left
  intro t ht
  exact hget t (mem_range.mp (mem_of_mem_filter ht))

variable {i j t : ℕ}

lemma mem_inputsOf : j ∈ s.inputsOf i ↔ j < s.rmLength ∧ s.source j = i := by
  rw [inputsOf, mem_filter, mem_range, decide_eq_true_eq]

lemma mem_selectedOf : t ∈ s.selectedOf i ↔ t < s.rmLength ∧ s.ring.pick s.shiftK0 t = i := by
  rw [selectedOf, mem_filter, mem_range, decide_eq_true_eq]

lemma pairwise_inputsOf (i : ℕ) : (s.inputsOf i).Pairwise (· < ·) := pairwise_lt_range.filter _

lemma pairwise_selectedOf (i : ℕ) : (s.selectedOf i).Pairwise (· < ·) := pairwise_lt_range.filter _

lemma selected_inj {j' : ℕ} (hj : j < s.rmLength) (hj' : j' < s.rmLength) (h : s.selected j = s.selected j') :
    j = j' := by
  rw [← arrival_selected hj, h, arrival_selected hj']

lemma inputsOf_perm (i : ℕ) : ((s.inputsOf i).map s.selected).Perm (s.selectedOf i) := by
  have hnodup : ((s.inputsOf i).map s.selected).Nodup := by
    refine List.Nodup.map_on ?_ ((pairwise_inputsOf i).imp fun h => h.ne)
    intro j hj j' hj' h
    exact selected_inj (mem_inputsOf.mp hj).1 (mem_inputsOf.mp hj').1 h
  refine (perm_ext_iff_of_nodup hnodup ((pairwise_selectedOf i).imp fun h => h.ne)).mpr fun t => ?_
  rw [mem_map, mem_selectedOf]
  constructor
  · rintro ⟨j, hj, rfl⟩
    obtain ⟨hlt, hsource⟩ := mem_inputsOf.mp hj
    exact ⟨selected_lt hlt, hsource⟩
  · rintro ⟨ht, hpick⟩
    refine ⟨s.arrival t, mem_inputsOf.mpr ⟨arrival_lt ht, ?_⟩, selected_arrival ht⟩
    rw [source, selected_arrival ht, hpick]

lemma combined_eq (input : List Llr) (i : ℕ) (base : Llr) : s.combined input i base =
    total base (((s.inputsOf i).map s.selected).map fun t => input.getD (s.arrival t) 0) := by
  rw [combined, List.map_map]
  congr 1
  apply map_congr_left
  intro j hj
  rw [Function.comp, arrival_selected (mem_inputsOf.mp hj).1]

/-- **Order kept**: the two sums are the same, whatever they start from. -/
lemma combined_of_keepsOrder (h : s.KeepsOrder) (input : List Llr) (i : ℕ) (base : Llr) : s.combined input i base =
    total base ((s.selectedOf i).map fun t => input.getD (s.arrival t) 0) := by
  have hsorted : ((s.inputsOf i).map s.selected).Pairwise (· < ·) := by
    refine pairwise_map.mpr ((pairwise_inputsOf i).imp_of_mem ?_)
    intro j j' hj hj' hlt
    obtain ⟨-, hsource⟩ := mem_inputsOf.mp hj
    obtain ⟨hlt', hsource'⟩ := mem_inputsOf.mp hj'
    exact h j j' hlt hlt' (hsource.trans hsource'.symm)
  rw [combined_eq, (inputsOf_perm i).eq_of_pairwise' hsorted (pairwise_selectedOf i)]

/-- **Last one kept**: the sums from zero are the same, as the first two commute. -/
lemma combined_of_keepsLast (h : s.KeepsLast) (input : List Llr) (i : ℕ) : s.combined input i 0 =
    total 0 ((s.selectedOf i).map fun t => input.getD (s.arrival t) 0) := by
  rw [combined_eq]
  refine total_map_eq_of_last zero_add' add_comm' (pairwise_selectedOf i)
    (inputsOf_perm i) ?_
  intro a b c hsub
  obtain ⟨l, hl, heq⟩ := sublist_map_iff.mp hsub
  obtain _ | ⟨j, _ | ⟨j', _ | ⟨j'', _ | ⟨_, _⟩⟩⟩⟩ := l
  all_goals try cases heq
  have hlt := (pairwise_inputsOf i).sublist hl
  simp only [pairwise_cons, mem_cons, not_mem_nil, or_false, forall_eq_or_imp, forall_eq] at hlt
  have hmem (x : ℕ) (hx : x ∈ [j, j', j'']) := mem_inputsOf.mp (hl.subset hx)
  have hj := hmem j (by simp)
  have hj' := hmem j' (by simp)
  have hj'' := hmem j'' (by simp)
  exact h j j' j'' hlt.1.1 hlt.2.1 hj''.1 (hj.2.trans hj''.2.symm) (hj'.2.trans hj''.2.symm)

/-! ### Rate dematching -/

section Limits

variable (hlimits : s.nref ≤ maxCodeblockSize ∧ s.rmLength ≤ maxCodeblockRmSize) {output input aux : List Llr}
  (hout : output.length = s.blockLength) (hinput : input.length = s.rmLength) (haux : aux.length = s.rmLength)
include hlimits hout hinput haux

lemma rateDematch_new (hpos : 0 < s.rmLength) : rateDematch output input true s.metadata aux =
    some (output.mapIdx fun i v =>
      total (s.cleared i v) ((s.selectedOf i).map fun t => input.getD (s.arrival t) 0)) := by
  rw [rateDematch_eq hout hinput, if_pos hlimits, allotLlrs_new hout (deinterleaved_eq hinput haux).1 hpos]
  simp [landing_deinterleaved hinput haux]

lemma rateDematch_combine : rateDematch output input false s.metadata aux =
    some (output.mapIdx fun i v => total v ((s.selectedOf i).map fun t => input.getD (s.arrival t) 0)) := by
  rw [rateDematch_eq hout hinput, if_pos hlimits, allotLlrs_combine]
  simp [landing_deinterleaved hinput haux]

end Limits

lemma allotLlrs_nil {out : List Llr} (hout : out.length = s.blockLength) :
    ∃ out', allotLlrs s.selection true out [] = some out' ∧ out'.getD 0 0 = out.getD 0 0 := by
  have hpos : 0 < s.blockLength := lt_of_le_of_lt (Nat.zero_le _) (systematic_lt)
  refine ⟨if s.shiftK0 ≠ 0 then zeroLast out (s.bufferLength - s.shiftK0) else out, ?_, ?_⟩
  · show some (if true = true ∧ s.shiftK0 ≠ 0 then zeroLast out (s.bufferLength - s.shiftK0) else out) = _
    simp
  · split
    · have hB := buffer_le (s := s)
      have hk := shiftK0_lt (s := s)
      rw [zeroLast, mapPart, getD_eq_getElem _ _ (by rw [length_mapIdx]; omega), getElem_mapIdx,
        if_neg (by omega), getD_eq_getElem]
    · rfl

lemma not_gap_zero : ¬ s.ring.Gap 0 := fun h => by
  have h1 := info_pos (s := s)
  have : s.nofInfoBits ≤ 0 := h.1
  omega

lemma source_spec (j : ℕ) : s.source j < s.blockLength ∧ ¬ s.ring.Gap (s.source j) := by
  obtain ⟨hlt, hgap⟩ := s.ring.pick_spec shiftK0_lt (s.selected j)
  exact ⟨lt_of_lt_of_le hlt buffer_le, hgap⟩

lemma selectedOf_gap (h : s.ring.Gap i) : s.selectedOf i = [] := by
  refine eq_nil_iff_forall_not_mem.mpr fun t ht => ?_
  obtain ⟨-, rfl⟩ := mem_selectedOf.mp ht
  exact (s.ring.pick_spec shiftK0_lt t).2 h

def inputWith (s : Setup) (f : ℕ → Llr) : List Llr := (List.range s.rmLength).map f

variable (f : ℕ → Llr)

lemma length_inputWith : (s.inputWith f).length = s.rmLength := by
  rw [inputWith, length_map, length_range]

lemma getD_inputWith (hj : j < s.rmLength) : (s.inputWith f).getD j 0 = f j := by
  rw [getD_eq_getElem _ _ (by rwa [length_inputWith])]
  simp [inputWith]

/-- **New data** is dematched when nothing is left and the last input is kept. -/
lemma dematchesNewData_of (hlimits : s.nref ≤ maxCodeblockSize ∧ s.rmLength ≤ maxCodeblockRmSize) (hclears : s.Clears)
    (hlast : s.KeepsLast) : s.DematchesNewData := by
  intro output input aux hout hinput haux
  rw [rateDematch_new hlimits hout hinput haux hclears.1]
  congr 1
  apply ext_getElem
  · rw [length_mapIdx, length_map, length_range, hout]
  · intro i h1 _
    rw [length_mapIdx, hout] at h1
    rw [getElem_mapIdx, getElem_map, getElem_range, newSoftBit, cleared]
    by_cases hgap : s.ring.Gap i
    · rw [if_pos hgap, if_pos hgap, selectedOf_gap hgap]
      rfl
    · rw [if_neg hgap, if_neg hgap, if_pos ((written_iff_clears hclears.1).mpr hclears i h1 hgap),
        combined_of_keepsLast hlast]

lemma limits_of_some {newData : Bool} {f : List Llr → List Llr → List Llr}
    (h : ∀ output input aux : List Llr, output.length = s.blockLength → input.length = s.rmLength →
      aux.length = s.rmLength → rateDematch output input newData s.metadata aux = some (f output input)) :
    s.nref ≤ maxCodeblockSize ∧ s.rmLength ≤ maxCodeblockRmSize := by
  have hcall := h (replicate s.blockLength 0) (replicate s.rmLength 0) (replicate s.rmLength 0)
    length_replicate length_replicate length_replicate
  rw [rateDematch_eq length_replicate length_replicate] at hcall
  by_contra hnot
  rw [if_neg hnot] at hcall
  cases hcall

/-- **Something is left**: zeros that are received over a content of ones. -/
lemma clears_of_dematchesNewData (h : s.DematchesNewData) : s.Clears := by
  have hlimits := limits_of_some h
  let one : Llr := finite 1 (by decide)
  have hone : one ≠ 0 := by decide
  have hcall := h (replicate s.blockLength one) (s.inputWith fun _ => 0) (s.inputWith fun _ => 0)
    length_replicate (length_inputWith _) (length_inputWith _)
  -- all sums are zero
  have hsum (i : ℕ) : s.combined (s.inputWith fun _ => 0) i 0 = 0 := by
    refine total_map_sublist add_zero' (nil_sublist _)
      ((pairwise_inputsOf i).imp fun h => h.ne) ?_ 0
    intro j hj _
    exact getD_inputWith _ (mem_inputsOf.mp hj).1
  have hsum' (i : ℕ) (base : Llr) : total base ((s.selectedOf i).map fun t =>
      (s.inputWith fun _ => 0).getD (s.arrival t) 0) = base := by
    refine total_map_sublist add_zero' (nil_sublist _)
      ((pairwise_selectedOf i).imp fun h => h.ne) ?_ base
    intro t ht _
    exact getD_inputWith _ (arrival_lt (mem_selectedOf.mp ht).1)
  by_cases hpos : 0 < s.rmLength
  · rw [rateDematch_new hlimits length_replicate (length_inputWith _) (length_inputWith _) hpos] at hcall
    refine (written_iff_clears hpos).mp fun i hi hgap => ?_
    by_contra hnot
    have hget := congrArg (fun l => l.getD i 0) (Option.some.inj hcall)
    simp only [hsum'] at hget
    rw [getD_eq_getElem _ _ (by simpa using hi), getElem_mapIdx, getElem_replicate, cleared, if_neg hgap,
      if_neg hnot, getD_eq_getElem _ _ (by simpa using hi), getElem_map, getElem_range, newSoftBit,
      if_neg hgap, hsum] at hget
    exact hone hget
  · -- there are no inputs
    have hzero : s.rmLength = 0 := by omega
    have hN : 0 < s.blockLength := lt_of_le_of_lt (Nat.zero_le _) (systematic_lt (s := s))
    have hnil : s.deinterleaved (s.inputWith fun _ => 0) (s.inputWith fun _ => 0) = [] :=
      length_eq_zero_iff.mp ((deinterleaved_eq (length_inputWith _) (length_inputWith _)).1.trans hzero)
    rw [rateDematch_eq length_replicate (length_inputWith _), if_pos hlimits, hnil] at hcall
    obtain ⟨out, hcode, hfirst⟩ := allotLlrs_nil (s := s)
      (show (replicate s.blockLength one).length = s.blockLength from length_replicate)
    rw [hcode] at hcall
    obtain rfl := Option.some.inj hcall
    rw [getD_eq_getElem _ _ (by simpa using hN), getElem_map, getElem_range, newSoftBit,
      if_neg not_gap_zero, hsum, getD_eq_getElem _ _ (by simpa using hN), getElem_replicate] at hfirst
    exact absurd hfirst.symm hone

lemma value_selected (hj : j < s.rmLength) : (s.inputWith f).getD (s.arrival (s.selected j)) 0 = f j := by
  rw [arrival_selected hj, getD_inputWith _ hj]

lemma value_arrival (ht : t < s.rmLength) :
    (s.inputWith f).getD (s.arrival t) 0 = f (s.arrival t) := getD_inputWith _ (arrival_lt ht)

lemma arrival_ne (ht : t < s.rmLength) (h : t ≠ s.selected j) : s.arrival t ≠ j := by
  rintro rfl
  exact h (selected_arrival ht).symm

/-- The input transmitted last is not selected last: 120 and 10 saturate before -20 is added. -/
lemma not_dematchesNewData_of_order {z w l : ℕ} (hzw : z ≠ w) (hzl : z < l) (hwl : w < l) (hl : l < s.rmLength)
    (hz : s.source z = s.source l) (hw : s.source w = s.source l) (hsz : s.selected z < s.selected w)
    (hsl : s.selected l < s.selected w) : ¬ s.DematchesNewData := by
  intro h
  have hlimits := limits_of_some h
  have hclears := clears_of_dematchesNewData h
  let high : Llr := finite 120 (by decide)
  let up : Llr := finite 10 (by decide)
  let down : Llr := finite (-20) (by decide)
  let f (j : ℕ) : Llr := if j = z then high else if j = w then up else if j = l then down else 0
  have hfz : f z = high := if_pos rfl
  have hfw : f w = up := by
    show (if w = z then _ else _) = _
    rw [if_neg (Ne.symm hzw), if_pos rfl]
  have hfl : f l = down := by
    show (if l = z then _ else _) = _
    rw [if_neg hzl.ne', if_neg hwl.ne', if_pos rfl]
  have hother (j : ℕ) (h1 : j ≠ z) (h2 : j ≠ w) (h3 : j ≠ l) : f j = 0 := by
    show (if j = z then _ else _) = _
    rw [if_neg h1, if_neg h2, if_neg h3]
  have hzlt : z < s.rmLength := hzl.trans hl
  have hwlt : w < s.rmLength := hwl.trans hl
  obtain ⟨hi, hgap⟩ := source_spec l
  -- in the order of transmission
  have hsent : s.combined (s.inputWith f) (s.source l) 0 = high + up + down := by
    have hsum := total_map_triple (f := fun j => (s.inputWith f).getD j 0) add_zero'
      zero_add' add_comm' (pairwise_inputsOf (s := s) (s.source l)) hzw hzl hwl
      (mem_inputsOf.mpr ⟨hzlt, hz⟩) (mem_inputsOf.mpr ⟨hwlt, hw⟩) (mem_inputsOf.mpr ⟨hl, rfl⟩) (by
        intro j hj h1 h2 h3
        rw [getD_inputWith _ (mem_inputsOf.mp hj).1]
        exact hother j h1 h2 h3)
    rw [getD_inputWith _ hzlt, getD_inputWith _ hwlt, getD_inputWith _ hl, hfz, hfw, hfl] at hsum
    exact hsum
  -- in the order of the selection
  have hselected : total 0 ((s.selectedOf (s.source l)).map fun t => (s.inputWith f).getD (s.arrival t) 0) =
      high + down + up := by
    have hne : s.selected z ≠ s.selected l := fun heq => hzl.ne (selected_inj hzlt hl heq)
    have hsum := total_map_triple (f := fun t => (s.inputWith f).getD (s.arrival t) 0) add_zero'
      zero_add' add_comm' (pairwise_selectedOf (s := s) (s.source l)) hne hsz hsl
      (mem_selectedOf.mpr ⟨selected_lt hzlt, hz⟩) (mem_selectedOf.mpr ⟨selected_lt hl, rfl⟩)
      (mem_selectedOf.mpr ⟨selected_lt hwlt, hw⟩) (by
        intro t ht h1 h2 h3
        have hlt := (mem_selectedOf.mp ht).1
        rw [value_arrival _ hlt]
        exact hother _ (arrival_ne hlt h1) (arrival_ne hlt h3) (arrival_ne hlt h2))
    rw [value_selected _ hzlt, value_selected _ hwlt, value_selected _ hl, hfz, hfw, hfl] at hsum
    exact hsum
  have hcall := h (replicate s.blockLength 0) (s.inputWith f) (s.inputWith f)
    length_replicate (length_inputWith _) (length_inputWith _)
  rw [rateDematch_new hlimits length_replicate (length_inputWith _) (length_inputWith _) hclears.1] at hcall
  have hget := congrArg (fun out => out.getD (s.source l) 0) (Option.some.inj hcall)
  rw [getD_eq_getElem _ _ (by simpa using hi), getElem_mapIdx, cleared, if_neg hgap,
    if_pos ((written_iff_clears hclears.1).mpr hclears _ hi hgap), hselected, getD_eq_getElem _ _ (by simpa using hi),
    getElem_map, getElem_range, newSoftBit, if_neg hgap, hsent] at hget
  exact absurd hget (by decide)

lemma keepsLast_of_dematchesNewData (h : s.DematchesNewData) : s.KeepsLast := by
  intro j j' j'' hlt hlt' hj'' hsource hsource'
  by_contra hnot
  have hne : s.selected j ≠ s.selected j' := fun heq =>
    hlt.ne (selected_inj ((hlt.trans hlt').trans hj'') (hlt'.trans hj'') heq)
  have hne' : s.selected j ≠ s.selected j'' := fun heq =>
    (hlt.trans hlt').ne (selected_inj ((hlt.trans hlt').trans hj'') hj'' heq)
  have hne'' : s.selected j' ≠ s.selected j'' := fun heq => hlt'.ne (selected_inj (hlt'.trans hj'') hj'' heq)
  by_cases hmax : s.selected j < s.selected j'
  · exact not_dematchesNewData_of_order hlt.ne (hlt.trans hlt') hlt' hj'' hsource hsource' hmax (by omega) h
  · exact not_dematchesNewData_of_order hlt.ne' hlt' (hlt.trans hlt') hj'' hsource' hsource (by omega) (by omega) h

/-- **Another order of two** for a retransmission over a content of 120. -/
lemma keepsOrder_of_combinesRetransmission (h : s.CombinesRetransmission) : s.KeepsOrder := by
  have hlimits := limits_of_some h
  intro j j' hlt hj' hsource
  by_contra hnot
  have hj : j < s.rmLength := hlt.trans hj'
  have horder : s.selected j' < s.selected j :=
    Nat.lt_of_le_of_ne (not_lt.mp hnot) fun heq => hlt.ne' (selected_inj hj' hj heq)
  let high : Llr := finite 120 (by decide)
  let up : Llr := finite 10 (by decide)
  let down : Llr := finite (-20) (by decide)
  let f (x : ℕ) : Llr := if x = j then down else if x = j' then up else 0
  have hfj : f j = down := if_pos rfl
  have hfj' : f j' = up := by
    show (if j' = j then _ else _) = _
    rw [if_neg hlt.ne', if_pos rfl]
  have hother (x : ℕ) (h1 : x ≠ j) (h2 : x ≠ j') : f x = 0 := by
    show (if x = j then _ else _) = _
    rw [if_neg h1, if_neg h2]
  obtain ⟨hi, hgap⟩ := source_spec j
  have hsent : s.combined (s.inputWith f) (s.source j) high = high + down + up := by
    have hsum := total_map_pair (f := fun x => (s.inputWith f).getD x 0) add_zero'
      (pairwise_inputsOf (s := s) (s.source j)) hlt (mem_inputsOf.mpr ⟨hj, rfl⟩) (mem_inputsOf.mpr ⟨hj', hsource.symm⟩)
      (by
        intro x hx h1 h2
        rw [getD_inputWith _ (mem_inputsOf.mp hx).1]
        exact hother x h1 h2) high
    rw [getD_inputWith _ hj, getD_inputWith _ hj', hfj, hfj'] at hsum
    exact hsum
  have hselected : total high ((s.selectedOf (s.source j)).map fun t => (s.inputWith f).getD (s.arrival t) 0) =
      high + up + down := by
    have hsum := total_map_pair (f := fun t => (s.inputWith f).getD (s.arrival t) 0) add_zero'
      (pairwise_selectedOf (s := s) (s.source j)) horder (mem_selectedOf.mpr ⟨selected_lt hj', hsource.symm⟩)
      (mem_selectedOf.mpr ⟨selected_lt hj, rfl⟩)
      (by
        intro t ht h1 h2
        have hlt := (mem_selectedOf.mp ht).1
        rw [value_arrival _ hlt]
        exact hother _ (arrival_ne hlt h2) (arrival_ne hlt h1)) high
    rw [value_selected _ hj, value_selected _ hj', hfj, hfj'] at hsum
    exact hsum
  have hcall := h (replicate s.blockLength high) (s.inputWith f) (s.inputWith f)
    length_replicate (length_inputWith _) (length_inputWith _)
  rw [rateDematch_combine hlimits length_replicate (length_inputWith _) (length_inputWith _)] at hcall
  have hget := congrArg (fun out => out.getD (s.source j) 0) (Option.some.inj hcall)
  rw [getD_eq_getElem _ _ (by simpa using hi), getElem_mapIdx, getElem_replicate, hselected,
    getD_eq_getElem _ _ (by simpa using hi), getElem_mapIdx, getElem_replicate, hsent] at hget
  exact absurd hget (by decide)

/-- **A retransmission** is added within the limits, when the order is kept. -/
lemma combinesRetransmission_of (hlimits : s.nref ≤ maxCodeblockSize ∧ s.rmLength ≤ maxCodeblockRmSize)
    (horder : s.KeepsOrder) : s.CombinesRetransmission := by
  intro output input aux hout hinput haux
  rw [rateDematch_combine hlimits hout hinput haux]
  refine congrArg some (mapIdx_congr fun i v => ?_)
  rw [combined_of_keepsOrder horder]

lemma rateMatches_iff : s.RateMatches ↔ s.rmLength ≤ maxCodeblockRmSize := by
  constructor
  · intro h
    obtain ⟨result, hresult, -⟩ := h ⟨replicate s.rmLength 0, s.rmLength, by rw [length_replicate]; omega⟩ rfl
      (replicate s.blockLength false) length_replicate
    by_contra hnot
    rw [rateMatch, length_replicate] at hresult
    rw [init_eq, if_neg hnot] at hresult
    cases hresult
  · intro hle output hout input hin
    exact rateMatch_eq hle output hout input hin

/-- **The chain.** Rate dematching gives the sums of the inputs of each position iff nothing is left of the previous
content and saturation meets the inputs in their order. -/
theorem ldpcRateMatching_iff (s : Setup) :
    (s.RateMatches ↔ s.rmLength ≤ maxCodeblockRmSize) ∧
      (s.DematchesNewData ↔ (s.nref ≤ maxCodeblockSize ∧ s.rmLength ≤ maxCodeblockRmSize) ∧ s.Clears ∧ s.KeepsLast) ∧
      (s.CombinesRetransmission ↔ (s.nref ≤ maxCodeblockSize ∧ s.rmLength ≤ maxCodeblockRmSize) ∧ s.KeepsOrder) := by
  refine ⟨rateMatches_iff, ⟨fun h => ?_, fun h => ?_⟩, ⟨fun h => ?_, fun h => ?_⟩⟩
  · exact ⟨limits_of_some h, clears_of_dematchesNewData h, keepsLast_of_dematchesNewData h⟩
  · exact dematchesNewData_of h.1 h.2.1 h.2.2
  · exact ⟨limits_of_some h, keepsOrder_of_combinesRetransmission h⟩
  · exact combinesRetransmission_of h.1 h.2

/-- The shortest codeblock of base graph 1, of which two bits are received. -/
def twoBits : Setup where
  baseGraph := .bg1
  liftingSize := 2
  lifting_mem := by decide
  rv := 0
  mod := .qpsk
  nofFillerBits := 0
  filler_lt := by decide
  nref := 0
  nref_ge := .inl rfl
  rmLength := 2
  order_dvd := by decide

/-- Position 2 is not received and keeps what the output had before. -/
theorem twoBits_keeps_previous : twoBits.inputsOf 2 = [] ∧ ¬ twoBits.ring.Gap 2 ∧
    (rateDematch (List.replicate 132 (finite 1 (by decide))) [0, 0] true twoBits.metadata [0, 0]).map
      (fun out => out.getD 2 0) = some (finite 1 (by decide)) ∧ ¬ twoBits.DematchesNewData := by
  refine ⟨by decide +kernel, by decide +kernel, by decide +kernel, fun h => ?_⟩
  have hlt : ¬ (0 < twoBits.nofInfoBits → twoBits.nofInfoBits ≤ twoBits.shiftK0 + twoBits.rmLength) := by decide +kernel
  exact hlt fun _ => (clears_of_dematchesNewData h).2.2.2 (by decide +kernel)

end Setup

end Ldpc

end SrsRan.Phy
