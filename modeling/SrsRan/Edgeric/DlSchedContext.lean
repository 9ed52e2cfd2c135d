import SrsRan.Edgeric.Control

/-!
# The scheduling context of a new transmission

`get_dl_sched_context` chooses the number of RBs and the MCS of a new transmission; the MCS and the weight received from
EdgeRIC for the RNTI override them.  The TBS, the first estimate of the number of PRBs and the MCS that is interpolated from
the CQI are arbitrary functions (the last one is an index of the MCS table for new transmissions).
-/

namespace SrsRan.Edgeric

open Support Sched Lib.Run Lib.Binary32

inductive McsTable where
  | qam64
  | qam256
  | qam64LowSe
deriving DecidableEq

def McsTable.maxNewTx : McsTable → ℕ
  | .qam64 => 28
  | .qam256 => 27
  | .qam64LowSe => 28

structure PdschTd where
  k0 : ℕ
  symbols : Interval
deriving DecidableEq

def maxNofPrbs : ℕ := 275

def nofOfdmSymPerSlot : ℕ := 14

/-- What `get_dl_sched_context` reads of the UE, its cell and the slot. -/
structure DlUe where
  rnti : ℕ
  /-- The PDSCH is enabled in the slots and the UE is not in fallback mode. -/
  schedulable : Bool
  /-- `get_nof_dl_symbol_per_slot` -/
  slotNofSymbols : ℕ
  pdschNofRbs : Interval
  pdschGrantSizeLimits : Interval
  pdschCrbLimits : Interval
  dlCrbLims : Interval
  /-- `interleaved_mapping.prb_to_vrb`, if interleaving is enabled and configured -/
  prbToVrb : Option (ℕ → ℕ)
  pdschTimeDomainList : List PdschTd
  /-- the first symbol after the CORESET -/
  firstPdschSymbol : ℕ
  ssId : ℕ
  nofDlLayers : ℕ
  mcsTable : McsTable
  /-- `expert_cfg.ue.dl_mcs`, a closed interval -/
  dlMcs : Interval
  /-- The MCS interpolated from the effective CQI; none if the reported CQI is 0. -/
  cqiMcs : Option ℕ
  cqiMcs_le : ∀ m ∈ cqiMcs, m ≤ mcsTable.maxNewTx
  pendingBytes : ℕ
  /-- The first estimate of the number of PRBs and the TBS in bits. -/
  nofPrbsEstimate : ℕ → ℕ → ℕ
  tbs : ℕ → ℕ → ℕ → ℕ

/-- `dl_sched_context`. -/
structure DlSchedContext where
  ssId : ℕ
  pdschTdResIndex : ℕ
  vrbLims : Interval
  recommendedMcs : ℕ
  recommendedRi : ℕ
  expectedNofRbs : ℕ
deriving DecidableEq

/-! ### The number of PRBs -/

section Prbs

variable (tbs : ℕ → ℕ) (payload estimate est : ℕ)

def decreaseLoop : ℕ → ℕ → ℕ → ℕ → ℕ ⊕ ℕ × ℕ
  | 0, _, nPrb, bits => .inr (nPrb, bits)
  | fuel + 1, dec, nPrb, bits =>
    if dec < nPrb ∧ payload ≤ bits then
      let nPrb := estimate - dec
      if tbs nPrb < payload then .inl (nPrb + 1) else decreaseLoop fuel (dec + 1) nPrb (tbs nPrb)
    else .inr (nPrb, bits)

def increaseLoop (maxRbs : ℕ) : ℕ → ℕ → ℕ → ℕ → ℕ
  | 0, _, nPrb, _ => nPrb
  | fuel + 1, inc, nPrb, bits =>
    if inc < 5 ∧ bits < payload ∧ nPrb < maxRbs then
      increaseLoop maxRbs fuel (inc + 1) (estimate + inc) (tbs (estimate + inc))
    else nPrb

def linearSearch (maxRbs : ℕ) : ℕ :=
  match decreaseLoop tbs payload estimate estimate 1 estimate (tbs estimate) with
  | .inl nPrb => nPrb
  | .inr (nPrb, bits) => increaseLoop tbs payload estimate maxRbs 5 1 nPrb bits

variable {tbs payload estimate est}

variable (payload estimate est) in
/-- What the loop that decreases the RBs may return. -/
def DecreaseOk : ℕ ⊕ ℕ × ℕ → Prop
  | .inl n => n ≤ estimate
  | .inr (n, bits) => n ≤ estimate ∧ (bits < payload → n = estimate)

lemma decreaseLoop_ok (fuel dec nPrb bits : ℕ) (hdec : 1 ≤ dec) (hn : nPrb ≤ est)
    (hb : bits < payload → nPrb = est) : DecreaseOk payload est (decreaseLoop tbs payload est fuel dec nPrb bits) := by
  induction fuel generalizing dec nPrb bits with
  | zero => exact ⟨hn, hb⟩
  | succ fuel ih =>
    unfold decreaseLoop
    by_cases hc : dec < nPrb ∧ payload ≤ bits
    · rw [if_pos hc]
      by_cases htbs : tbs (est - dec) < payload
      · simp only [if_pos htbs]
        show est - dec + 1 ≤ est
        omega
      · simp only [if_neg htbs]
        exact ih _ _ _ (by omega) (by omega) fun h => absurd h htbs
    · rw [if_neg hc]
      exact ⟨hn, hb⟩

lemma increaseLoop_le {maxRbs : ℕ} (fuel inc nPrb bits : ℕ) (hn : nPrb ≤ maxRbs)
    (hb : bits < payload → nPrb + 1 = est + inc) : increaseLoop tbs payload est maxRbs fuel inc nPrb bits ≤ maxRbs := by
  induction fuel generalizing inc nPrb bits with
  | zero => exact hn
  | succ fuel ih =>
    unfold increaseLoop
    split
    next hc =>
      have := hb hc.2.1
      exact ih _ _ _ (by omega) (fun _ => by omega)
    · exact hn

/-- **The search does not exceed the maximum.** -/
theorem linearSearch_le {maxRbs : ℕ} (he : est ≤ maxRbs) : linearSearch tbs payload est maxRbs ≤ maxRbs := by
  have h : DecreaseOk payload est (decreaseLoop tbs payload est est 1 est (tbs est)) :=
    decreaseLoop_ok est 1 est (tbs est) le_rfl le_rfl fun _ => rfl
  unfold linearSearch
  split
  next hd =>
    rw [hd] at h
    exact le_trans h he
  next n b hd =>
    rw [hd] at h
    exact increaseLoop_le 5 1 n b (h.1.trans he) (fun hb => by rw [h.2 hb])

end Prbs

namespace DlUe

def getNofPrbs (ue : DlUe) (td mcs maxRbs : ℕ) : Except Abort ℕ :=
  if maxRbs ≤ maxNofPrbs then
    .ok (linearSearch (ue.tbs td mcs) (8 * ue.pendingBytes) (min maxRbs (ue.nofPrbsEstimate td mcs)) maxRbs)
  else .error (.assertion "Invalid number of RBs provided")

def calculateDlMcs (ue : DlUe) : Option ℕ := ue.cqiMcs.map fun m => min (max m ue.dlMcs.start) ue.dlMcs.stop

def computeNewtxRequiredMcsAndPrbs (ue : DlUe) (td : PdschTd) (tdIndex : ℕ) (nofRbLims : Interval) :
    Except Abort (Option (ℕ × ℕ)) :=
  match ue.calculateDlMcs with
  | none => .error (.assertion "bad optional access")
  | some mcs => do
    let nofPrbs ← ue.getNofPrbs tdIndex mcs nofRbLims.stop
    if nofPrbs = 0 then .ok none
    else
      let nofPrbs := max nofPrbs nofRbLims.start
      .ok (some (mcs, if nofPrbs = 1 ∧ td.symbols.length < nofOfdmSymPerSlot then 2 else nofPrbs))

def vrbLims (ue : DlUe) : Except Abort Interval :=
  let crbLims := ue.pdschCrbLimits.inter ue.dlCrbLims
  let start := crbLims.start - ue.dlCrbLims.start
  let stop := crbLims.stop - ue.dlCrbLims.start
  let lims :=
    match ue.prbToVrb with
    | some prbToVrb => Interval.make? (prbToVrb start) (prbToVrb ((stop + 2 ^ 32 - 1) % 2 ^ 32) + 1)
    | none => Interval.make? start stop
  match lims with
  | some lims => .ok lims
  | none => .error (.assertion "Invalid interval")

def nofRbLims (ue : DlUe) (vrbLims : Interval) : Interval :=
  (ue.pdschNofRbs.inter ue.pdschGrantSizeLimits).inter ⟨0, vrbLims.length, Nat.zero_le _⟩

def tdFits (ue : DlUe) (k0 : ℕ) (td : PdschTd) : Bool :=
  td.k0 = k0 ∧ ¬ ue.slotNofSymbols < td.symbols.stop ∧ ¬ td.symbols.start < ue.firstPdschSymbol

/-- The MCS override of `get_mcs`; the constructor of `sch_mcs_index` asserts its bounds. -/
def overrideMcs (ue : DlUe) (e : EdgeRic) (mcs : ℕ) : Except Abort ℕ :=
  match e.mcsRecved ue.rnti with
  | none => .ok mcs
  | some m => if m ≤ 31 then .ok m else .error (.assertion "Value is out-of-bounds")

def overrideRbs (ue : DlUe) (e : EdgeRic) (nofRbLims : Interval) (nofRbs : ℕ) : Except Abort ℕ :=
  match e.weightsRecved ue.rnti with
  | none => .ok nofRbs
  | some weight =>
    match (weight.clampUnit.mul (.ofNat nofRbLims.stop)).toNat? with
    | none => .error (.assertion "conversion out of range")
    | some rbs =>
      let weightedRbs := min nofRbLims.stop (max nofRbLims.start rbs)
      .ok (if weightedRbs ≠ 0 then weightedRbs else nofRbs)

/-- `get_newtx_dl_sched_context`; `k0` is the distance to the PDSCH slot. -/
def getDlSchedContext (ue : DlUe) (e : EdgeRic) (k0 : ℕ) : Except Abort (Option DlSchedContext) :=
  if !ue.schedulable then .ok none
  else do
    let vrbLims ← ue.vrbLims
    let nofRbLims := ue.nofRbLims vrbLims
    if vrbLims.isEmpty ∨ nofRbLims.isEmpty then .ok none
    else
      match ue.pdschTimeDomainList.zipIdx.find? fun x => ue.tdFits k0 x.1 with
      | none => .ok none
      | some (td, index) => do
        match ← ue.computeNewtxRequiredMcsAndPrbs td index nofRbLims with
        | none => .ok none
        | some (mcs, nofRbs) => do
          let mcs ← ue.overrideMcs e mcs
          let nofRbs ← ue.overrideRbs e nofRbLims nofRbs
          .ok (some
            { ssId := ue.ssId
              pdschTdResIndex := index
              vrbLims := vrbLims
              recommendedMcs := mcs
              recommendedRi := ue.nofDlLayers
              expectedNofRbs := nofRbs })

/-- The minimum MCS is for new transmissions, and 2 PRBs for partial slots keep to the limits. -/
structure ConfigOk (ue : DlUe) : Prop where
  mcs : ue.dlMcs.start ≤ ue.mcsTable.maxNewTx
  rbs : ∀ v, ue.vrbLims = .ok v → (ue.nofRbLims v).stop ≠ 1

variable {ue : DlUe} {e : EdgeRic} {lims : Interval}

/-- **What the scheduler chooses itself.** -/
theorem computeNewtxRequiredMcsAndPrbs_spec {td : PdschTd} {index mcs rbs : ℕ}
    (hmcs : ue.dlMcs.start ≤ ue.mcsTable.maxNewTx) (hstop : lims.stop ≠ 1) (hne : lims.isEmpty = false)
    (h : ue.computeNewtxRequiredMcsAndPrbs td index lims = .ok (some (mcs, rbs))) :
    mcs ≤ ue.mcsTable.maxNewTx ∧ (lims.start ≤ rbs ∧ rbs ≤ lims.stop) ∧ lims.stop ≤ maxNofPrbs := by
  unfold computeNewtxRequiredMcsAndPrbs at h
  split at h
  · cases h
  rename_i m hm
  obtain ⟨n, hn, h⟩ := bind_eq_ok.mp h
  unfold getNofPrbs at hn
  split at hn
  next hmax =>
    cases hn
    have hle : linearSearch (ue.tbs index m) (8 * ue.pendingBytes) (min lims.stop (ue.nofPrbsEstimate index m)) lims.stop ≤
        lims.stop := linearSearch_le (Nat.min_le_left _ _)
    split at h
    · cases h
    cases h
    have hlen := lims.start_le_stop
    have hne' : lims.stop ≠ lims.start := by simpa [Interval.isEmpty] using hne
    refine ⟨?_, ?_, hmax⟩
    · rw [calculateDlMcs] at hm
      obtain ⟨c, hc, rfl⟩ := Option.map_eq_some_iff.mp hm
      have := ue.cqiMcs_le c hc
      omega
    · split <;> omega
  · cases hn

lemma overrideMcs_spec {mcs : ℕ} (hall : ∀ m, e.mcsRecved ue.rnti = some m → m ≤ ue.mcsTable.maxNewTx)
    (hmcs : mcs ≤ ue.mcsTable.maxNewTx) : ∃ m, ue.overrideMcs e mcs = .ok m ∧ m ≤ ue.mcsTable.maxNewTx := by
  unfold overrideMcs
  split
  · exact ⟨mcs, rfl, hmcs⟩
  next m hm =>
    have hle := hall m hm
    have h28 : ue.mcsTable.maxNewTx ≤ 28 := by cases ue.mcsTable <;> decide
    exact ⟨m, by rw [if_pos (by omega)], hle⟩

lemma overrideRbs_spec (ue : DlUe) (e : EdgeRic) {rbs : ℕ} (hlim : lims.start ≤ rbs ∧ rbs ≤ lims.stop) (hmax : lims.stop ≤ maxNofPrbs) :
    ∃ n, ue.overrideRbs e lims rbs = .ok n ∧ lims.start ≤ n ∧ n ≤ lims.stop := by
  unfold overrideRbs
  split
  · exact ⟨rbs, rfl, hlim⟩
  next weight _ =>
    obtain ⟨m, hm, hle⟩ := toNat?_mul_le weight (n := lims.stop)
      (lt_of_le_of_lt hmax (by norm_num [maxNofPrbs]))
    rw [hm]
    have hlen := lims.start_le_stop
    refine ⟨_, rfl, ?_⟩
    split <;> omega

lemma getDlSchedContext_spec {k0 : ℕ} (hcfg : ConfigOk ue)
    (hall : ∀ m, e.mcsRecved ue.rnti = some m → m ≤ ue.mcsTable.maxNewTx) :
    (∀ x, ue.getDlSchedContext e k0 = .error x → ue.getDlSchedContext .init k0 = .error x) ∧
      ∀ ctx, ue.getDlSchedContext e k0 = .ok (some ctx) → ∃ v, ue.vrbLims = .ok v ∧
        ((ue.nofRbLims v).start ≤ ctx.expectedNofRbs ∧ ctx.expectedNofRbs ≤ (ue.nofRbLims v).stop) ∧
        ctx.recommendedMcs ≤ ue.mcsTable.maxNewTx := by
  unfold getDlSchedContext
  split
  · exact ⟨fun _ h => (nomatch h), fun _ h => (nomatch h)⟩
  cases hv : ue.vrbLims with
  | error x => exact ⟨fun _ h => h, fun _ h => (nomatch h)⟩
  | ok v =>
    simp only [ok_bind]
    split
    · exact ⟨fun _ h => (nomatch h), fun _ h => (nomatch h)⟩
    rename_i hempty
    have hne : (ue.nofRbLims v).isEmpty = false := by
      simp only [not_or, Bool.not_eq_true] at hempty
      exact hempty.2
    split
    · exact ⟨fun _ h => (nomatch h), fun _ h => (nomatch h)⟩
    rename_i td index _
    cases hc : ue.computeNewtxRequiredMcsAndPrbs td index (ue.nofRbLims v) with
    | error x => exact ⟨fun _ h => h, fun _ h => (nomatch h)⟩
    | ok o =>
      simp only [ok_bind]
      cases o with
      | none => exact ⟨fun _ h => (nomatch h), fun _ h => (nomatch h)⟩
      | some p =>
        -- both overrides succeed and keep to the limits
        obtain ⟨mcs, rbs⟩ := p
        obtain ⟨h1, h2, h3⟩ := computeNewtxRequiredMcsAndPrbs_spec hcfg.mcs (hcfg.rbs v hv) hne hc
        obtain ⟨m, hm, hmle⟩ := overrideMcs_spec hall h1
        obtain ⟨n, hn, hnle⟩ := overrideRbs_spec ue e h2 h3
        simp only [hm, hn, ok_bind]
        refine ⟨fun _ h => (nomatch h), fun ctx h => ?_⟩
        cases h
        exact ⟨v, rfl, hnle, hmle⟩

end DlUe

/-! ### The gNB under external control -/

/-- What EdgeRIC has sent, and the inter-slice scheduler. -/
structure Gnb where
  er : EdgeRic
  sched : InterSlice

/-- What the control loop and the scheduler do. -/
inductive GnbAction where
  | weights (msg : Option (List F32))
  | mcs (msg : Option (List F32))
  | slot (msg : Option (List (ℕ × SliceBudget))) (pdschEnabled : Bool) (full : ℕ → Bool) (slotTx : ℕ)

namespace Gnb

variable (casts : Casts) (cell : SliceCell)

/-- Messages are read, and grants are made with what was read last. -/
def step (g : Gnb) : GnbAction → Except Abort Gnb
  | .weights msg => do
    let er ← g.er.getWeightsFromEr casts msg
    .ok { g with er := er }
  | .mcs msg => do
    let er ← g.er.getMcsFromEr casts msg
    .ok { g with er := er }
  | .slot msg pdschEnabled full slotTx =>
    let er := g.er.getSliceBudgets msg
    .ok { er := er, sched := g.sched.slotIndication cell er.sliceBudgetsRecved pdschEnabled full slotTx }

/-- Every MCS override is an index for new transmissions of the table of the UE. -/
def MessageOk (tables : ℕ → McsTable) : GnbAction → Prop
  | .mcs (some msg) => EdgeRic.Pairs (fun x y => casts.u8 y ≤ (tables (casts.u16 x)).maxNewTx) msg
  | _ => True

/-- **The invariant**: overrides are valid, and slices with a budget keep to the limits of the cell. -/
structure GnbInv (tables : ℕ → McsTable) (g : Gnb) : Prop where
  mcs : ∀ rnti m, g.er.mcsRecved rnti = some m → m ≤ (tables rnti).maxNewTx
  budgets : ∀ id b r, g.er.sliceBudgetsRecved id = some b → g.sched.slices[id]? = some r →
    r.cfg.minPrb ≤ r.cfg.maxPrb ∧ r.cfg.maxPrb ≤ cell.cellMaxRbs ∧ r.cfg.priority ≤ SlicePolicy.maxPriority

variable {casts cell} {tables : ℕ → McsTable} {g g' : Gnb}

lemma GnbInv.step (h : GnbInv cell tables g) {a : GnbAction} (ha : MessageOk casts tables a)
    (hstep : Gnb.step casts cell g a = .ok g') : GnbInv cell tables g' := by
  cases a with
  | weights msg =>
    obtain ⟨er, her, hg⟩ := bind_eq_ok.mp hstep
    cases hg
    -- the weights are not constrained
    have hsame : er.mcsRecved = g.er.mcsRecved ∧ er.sliceBudgetsRecved = g.er.sliceBudgetsRecved := by
      cases msg with
      | none =>
        cases her
        exact ⟨rfl, rfl⟩
      | some ws =>
        obtain ⟨x, -, hx⟩ := bind_eq_ok.mp her
        cases hx
        exact ⟨rfl, rfl⟩
    exact ⟨fun rnti m hm => h.mcs rnti m (hsame.1 ▸ hm), fun id b r hb => h.budgets id b r (hsame.2 ▸ hb)⟩
  | mcs msg =>
    obtain ⟨er, her, hg⟩ := bind_eq_ok.mp hstep
    cases hg
    cases msg with
    | none =>
      cases her
      exact ⟨fun _ _ hm => (nomatch hm), h.budgets⟩
    | some ms =>
      obtain ⟨x, hx, hx'⟩ := bind_eq_ok.mp her
      cases hx'
      exact ⟨EdgeRic.mcsLoop_all casts h.mcs ha hx, h.budgets⟩
  | slot msg pdschEnabled full slotTx =>
    cases hstep
    constructor
    · have hsame : (g.er.getSliceBudgets msg).mcsRecved = g.er.mcsRecved := by cases msg <;> rfl
      intro rnti m hm
      exact h.mcs rnti m (hsame ▸ hm)
    · intro id b r hb hr
      obtain ⟨r', hr', hcfg⟩ := InterSlice.cfg_slotIndication hr
      rw [← hcfg]
      exact InterSlice.applyBudgets_budget hb hr'

/-- **External control.** After messages whose MCS overrides are valid for the tables, the next one is read in range iff
its length is even, and budgets, RBs and MCS keep to the limits. -/
theorem control_within_limits (casts : Casts) (cell : SliceCell) (tables : ℕ → McsTable) (sched : InterSlice) (g : Gnb)
    (hr : Reach (Gnb.step casts cell) (fun _ a => MessageOk casts tables a) ⟨.init, sched⟩ g) :
    ((∀ msg, (∃ e, g.er.getWeightsFromEr casts (some msg) = .ok e) ↔ msg.length % 2 = 0) ∧
        ∀ msg, (∃ e, g.er.getMcsFromEr casts (some msg) = .ok e) ↔ msg.length % 2 = 0) ∧
      (∀ id b r, g.er.sliceBudgetsRecved id = some b → g.sched.slices[id]? = some r →
        r.cfg.minPrb ≤ r.cfg.maxPrb ∧ r.cfg.maxPrb ≤ cell.cellMaxRbs ∧ r.cfg.priority ≤ SlicePolicy.maxPriority) ∧
      ∀ (ue : DlUe) (k0 : ℕ), ue.mcsTable = tables ue.rnti → ue.ConfigOk →
        (∀ x, ue.getDlSchedContext g.er k0 = .error x → ue.getDlSchedContext .init k0 = .error x) ∧
        ∀ ctx, ue.getDlSchedContext g.er k0 = .ok (some ctx) → ∃ v, ue.vrbLims = .ok v ∧
          ((ue.nofRbLims v).start ≤ ctx.expectedNofRbs ∧ ctx.expectedNofRbs ≤ (ue.nofRbLims v).stop) ∧
          ctx.recommendedMcs ≤ ue.mcsTable.maxNewTx := by
  have hinv : GnbInv cell tables g :=
    hr.invariant ⟨fun _ _ h => (nomatch h), fun _ _ _ h => (nomatch h)⟩ fun _ _ _ h ha hstep => h.step ha hstep
  refine ⟨⟨fun msg => EdgeRic.getWeightsFromEr_ok_iff casts msg g.er, fun msg => EdgeRic.getMcsFromEr_ok_iff casts msg g.er⟩,
    hinv.budgets, fun ue k0 htab hcfg => DlUe.getDlSchedContext_spec hcfg fun m hm => ?_⟩
  rw [htab]
  exact hinv.mcs ue.rnti m hm

def zeroCasts : Casts where
  u16 x := match x with
    | .fin q => if -1 < q ∧ q < 2 ^ 16 then ⌊q⌋₊ else 0
    | _ => 0
  u8 x := match x with
    | .fin q => if -1 < q ∧ q < 2 ^ 8 then ⌊q⌋₊ else 0
    | _ => 0
  u16_lt x := by
    split
    · split
      next q h =>
        rw [Nat.floor_lt' (by norm_num)]
        exact_mod_cast h.2
      · norm_num
    · norm_num
  u8_lt x := by
    split
    · split
      next q h =>
        rw [Nat.floor_lt' (by norm_num)]
        exact_mod_cast h.2
      · norm_num
    · norm_num
  u16_eq q h1 h2 := if_pos ⟨h1, h2⟩
  u8_eq q h1 h2 := if_pos ⟨h1, h2⟩

def exampleUe : DlUe where
  rnti := 17921
  schedulable := true
  slotNofSymbols := 14
  pdschNofRbs := ⟨1, 275, by decide⟩
  pdschGrantSizeLimits := ⟨0, 275, by decide⟩
  pdschCrbLimits := ⟨0, 275, by decide⟩
  dlCrbLims := ⟨0, 10, by decide⟩
  prbToVrb := none
  pdschTimeDomainList := [{ k0 := 0, symbols := ⟨2, 14, by decide⟩ }]
  firstPdschSymbol := 2
  ssId := 2
  nofDlLayers := 1
  mcsTable := .qam64
  dlMcs := ⟨0, 28, by decide⟩
  cqiMcs := some 20
  cqiMcs_le := by decide
  pendingBytes := 100
  nofPrbsEstimate _ _ := 3
  tbs _ _ n := 300 * n

def exampleGnb (mcs : ℚ) : Option Gnb :=
  run (Gnb.step zeroCasts SliceRun.exampleCell) (fun _ _ => true) ⟨.init, SliceRun.exampleSlices []⟩
    [.mcs (some [.fin 17921, .fin mcs])]

theorem control_within_limits_override :
    ∃ g, exampleGnb 10 = some g ∧ ∃ ctx, exampleUe.getDlSchedContext g.er 0 = .ok (some ctx) ∧
      ctx.recommendedMcs = 10 ∧ ctx.recommendedMcs ≤ exampleUe.mcsTable.maxNewTx := by
  obtain ⟨g, hg⟩ : ∃ g, exampleGnb 10 = some g := ⟨_, rfl⟩
  have hmsg : zeroCasts.u8 (.fin 10) ≤ 28 := by
    rw [zeroCasts.u8_eq 10 (by norm_num) (by norm_num)]
    norm_num
  have hr : Reach (Gnb.step zeroCasts SliceRun.exampleCell) (fun _ a => MessageOk zeroCasts (fun _ => .qam64) a)
      ⟨.init, SliceRun.exampleSlices []⟩ g := by
    refine Reach.step (a := .mcs (some [.fin 17921, .fin 10])) .init ⟨hmsg, trivial⟩ ?_
    obtain rfl := Option.some.inj hg
    rfl
  obtain ⟨-, -, h⟩ := control_within_limits zeroCasts SliceRun.exampleCell (fun _ => .qam64) (SliceRun.exampleSlices []) g hr
  have hcfg : exampleUe.ConfigOk := by
    refine ⟨by decide, fun v hv => ?_⟩
    have hv' : v = ⟨0, 10, by decide⟩ := by
      cases hv
      rfl
    rw [hv']
    decide
  obtain ⟨ctx, hctx, hm⟩ : ∃ ctx, exampleUe.getDlSchedContext g.er 0 = .ok (some ctx) ∧ ctx.recommendedMcs = 10 := by
    obtain rfl := Option.some.inj hg
    exact ⟨_, rfl, rfl⟩
  obtain ⟨-, -, -, hle⟩ := (h exampleUe 0 rfl hcfg).2 ctx hctx
  exact ⟨g, hg, ctx, hctx, hm, hle⟩

/-- An odd number of fields is read out of range; an MCS override of 30 is returned for a new transmission, and 40
aborts. -/
theorem control_out_of_limits :
    EdgeRic.init.getWeightsFromEr zeroCasts (some [.fin 17921]) = .error (.assertion "weights(i + 1) out of range") ∧
      (∃ g, exampleGnb 30 = some g ∧ ∃ ctx, exampleUe.getDlSchedContext g.er 0 = .ok (some ctx) ∧
        ctx.recommendedMcs = 30 ∧ exampleUe.mcsTable.maxNewTx < 30) ∧
      ∃ g, exampleGnb 40 = some g ∧
        exampleUe.getDlSchedContext g.er 0 = .error (.assertion "Value is out-of-bounds") :=
  ⟨rfl, ⟨_, rfl, _, rfl, rfl, by decide⟩, _, rfl, rfl⟩

end Gnb

end SrsRan.Edgeric
