import SrsRan.Sched.DlLogicalChannels
import SrsRan.Support.SlotArithmetic

/-!
# Timing advance commands

`ta_manager` collects the N_TA measurements of each timing advance group (TAG) over a window, and then enqueues a command for
every TAG whose average is off by at least the threshold.  `add_tag_cmd` encodes it when a transport block is allocated.

The reports are looked up by the identifier of the TAG but accessed at that index, the queue of control elements has one place
for a command of any TAG, and the encoding drops the TAG: `Cond` says when this makes no difference.

The averaging is arbitrary (`TaConfig.newTa`).  An access outside of the vector of reports is an error.
-/

namespace SrsRan.Sched

open Mac Support Lib.Run List

structure TaConfig where
  measurementSlotPeriod : ℕ
  measurementSlotProhibitPeriod : ℕ
  cmdOffsetThreshold : ℤ
  nofSlotsPerHyperSystemFrame : ℕ
  /-- `compute_new_t_a` of `compute_avg_n_ta_difference` -/
  newTa : List ℤ → ℕ

def taCmdOffsetZero : ℤ := 31

inductive TaState where
  | idle
  | measure
  | prohibit
  | disabled
deriving DecidableEq

structure TagMeasurement where
  tagId : ℕ
  samples : List ℤ
deriving DecidableEq

/-- `ta_manager`. -/
structure TaManager where
  state : TaState
  measStartTime : ℕ
  prohibitStartTime : ℕ
  nTaReports : List TagMeasurement
deriving DecidableEq

namespace TaManager

def updateTags (t : TaManager) (tagIds : List ℕ) : TaManager :=
  { t with nTaReports := tagIds.map fun id => { tagId := id, samples := [] } }

def init (cfg : TaConfig) (tagIds : List ℕ) : TaManager :=
  let t : TaManager := { state := .idle, measStartTime := 0, prohibitStartTime := 0, nTaReports := [] }
  if cfg.cmdOffsetThreshold < 0 then { t with state := .disabled } else t.updateTags tagIds

/-- The report is looked up by the identifier, and accessed at that index. -/
def handleUlNTaUpdateIndication (t : TaManager) (tagId : ℕ) (nTaDiff : ℤ) (sinrAbove : Bool) : Except Abort TaManager :=
  if t.state = .measure ∧ sinrAbove then
    if t.nTaReports.any (·.tagId = tagId) then
      if tagId < t.nTaReports.length then
        .ok { t with nTaReports := t.nTaReports.modify tagId fun r => { r with samples := r.samples ++ [nTaDiff] } }
      else .error (.nonExistentId tagId)
    else .ok t
  else .ok t

def exceeds (cfg : TaConfig) (samples : List ℤ) : Bool :=
  |(cfg.newTa samples : ℤ) - taCmdOffsetZero| ≥ cfg.cmdOffsetThreshold

def slotLoop (cfg : TaConfig) :
    List TagMeasurement → DlLogicalChannelManager → Bool → List TagMeasurement × DlLogicalChannelManager × Option Bool
  | [], dl, sent => ([], dl, some sent)
  | r :: rest, dl, sent =>
    if r.samples = [] then
      let q := slotLoop cfg rest dl sent
      (r :: q.1, q.2)
    else if exceeds cfg r.samples then
      let h := dl.handleMacCeIndication
        { ceLcid := lcidTaCmd, cePayload := .taCmd { tagId := r.tagId, taCmd := cfg.newTa r.samples } }
      if h.1 then
        let q := slotLoop cfg rest h.2 true
        ({ r with samples := [] } :: q.1, q.2)
      else (r :: rest, h.2, none)
    else
      let q := slotLoop cfg rest dl sent
      ({ r with samples := [] } :: q.1, q.2)

def slotIndication (cfg : TaConfig) (t : TaManager) (dl : DlLogicalChannelManager) (sl : ℕ) :
    TaManager × DlLogicalChannelManager :=
  match t.state with
  | .disabled => (t, dl)
  | .idle => ({ t with measStartTime := sl, state := .measure }, dl)
  | .prohibit =>
    if slotSub cfg.nofSlotsPerHyperSystemFrame sl t.prohibitStartTime > cfg.measurementSlotProhibitPeriod then
      ({ t with measStartTime := sl, state := .measure }, dl)
    else (t, dl)
  | .measure =>
    if slotSub cfg.nofSlotsPerHyperSystemFrame sl t.measStartTime < cfg.measurementSlotPeriod then (t, dl)
    else
      let q := slotLoop cfg t.nTaReports dl false
      match q.2.2 with
      | none => ({ t with nTaReports := q.1 }, q.2.1)
      | some sent =>
        if sent ∧ cfg.measurementSlotProhibitPeriod > 0 then
          ({ t with nTaReports := q.1, state := .prohibit, prohibitStartTime := sl }, q.2.1)
        else ({ t with nTaReports := q.1, state := .idle }, q.2.1)

end TaManager

def allocateMacCes : ℕ → DlLogicalChannelManager → ℕ → List MacCeInfo × DlLogicalChannelManager
  | 0, dl, _ => ([], dl)
  | n + 1, dl, remTbs =>
    if dl.hasPendingCes then
      let r := dl.allocateMacCe remTbs
      if r.1.1 = 0 then ([], dl)
      else
        let q := allocateMacCes n r.2 (remTbs - r.1.1)
        (r.1.2.toList ++ q.1, q.2)
    else ([], dl)

def maxLcPerTb : ℕ := 4

def encodeTaCmd (ce : MacCeInfo) : Option (TaCmdCePayload × UInt8) :=
  match ce.cePayload with
  | .taCmd p => some (p, DlSchPdu.tagCmdByte p)
  | .dummy => none

/-- The timing advance of a UE; `sent` are the commands that have been transmitted. -/
structure UeTa where
  ta : TaManager
  dl : DlLogicalChannelManager
  sent : List (TaCmdCePayload × UInt8)

/-- The calls of the manager. -/
inductive TaAction where
  | nTaUpdate (tagId : ℕ) (nTaDiff : ℤ) (sinrAbove : Bool)
  | slotIndication (sl : ℕ)
  | allocateTb (tbs : ℕ)

namespace UeTa

def init (cfg : TaConfig) (tagIds : List ℕ) : UeTa where
  ta := .init cfg tagIds
  dl := .init false
  sent := []

def step (cfg : TaConfig) (s : UeTa) : TaAction → Except Abort UeTa
  | .nTaUpdate tagId nTaDiff sinrAbove => do
    let ta ← s.ta.handleUlNTaUpdateIndication tagId nTaDiff sinrAbove
    .ok { s with ta := ta }
  | .slotIndication sl =>
    let r := s.ta.slotIndication cfg s.dl sl
    .ok { s with ta := r.1, dl := r.2 }
  | .allocateTb tbs =>
    let r := allocateMacCes maxLcPerTb s.dl tbs
    .ok { s with dl := r.2, sent := s.sent ++ r.1.filterMap encodeTaCmd }

/-! ### What is expected of a step -/

/-- The command that a report asks for. -/
def cmdOf (cfg : TaConfig) (r : TagMeasurement) : MacCeInfo :=
  { ceLcid := lcidTaCmd, cePayload := .taCmd { tagId := r.tagId, taCmd := cfg.newTa r.samples } }

/-- The command waits for a transport block. -/
def Queued (s : UeTa) (p : TaCmdCePayload) : Prop := { ceLcid := lcidTaCmd, cePayload := .taCmd p } ∈ s.dl.pendingCes

def recorded (reports : List TagMeasurement) (tagId : ℕ) (nTaDiff : ℤ) : List TagMeasurement :=
  reports.map fun r => if r.tagId = tagId then { r with samples := r.samples ++ [nTaDiff] } else r

/-- The slot ends the measurement window. -/
def ClosesWindow (cfg : TaConfig) (s : UeTa) (sl : ℕ) : Prop :=
  s.ta.state = .measure ∧ cfg.measurementSlotPeriod ≤ slotSub cfg.nofSlotsPerHyperSystemFrame sl s.ta.measStartTime

/-- The average of the window is off by the threshold. -/
def due (cfg : TaConfig) (r : TagMeasurement) : Bool := r.samples ≠ [] ∧ TaManager.exceeds cfg r.samples

/-- The TAG is in the two most significant bits, the value in the others. -/
def Encodes (p : TaCmdCePayload) (b : UInt8) : Prop := b.toNat / 2 ^ 6 = p.tagId ∧ b.toNat % 2 ^ 6 = p.taCmd

/-- What a step does to measurements, to queued commands and to the air. -/
structure StepOk (cfg : TaConfig) (s : UeTa) (a : TaAction) (s' : UeTa) : Prop where
  stored : ∀ tagId nTaDiff, a = .nTaUpdate tagId nTaDiff true → s.ta.state = .measure →
    s'.ta.nTaReports = recorded s.ta.nTaReports tagId nTaDiff
  queued : ∀ sl, a = .slotIndication sl → ClosesWindow cfg s sl → ∀ r ∈ s.ta.nTaReports, due cfg r = true →
    s'.Queued ⟨r.tagId, cfg.newTa r.samples⟩
  replaced : ∀ p, s.Queued p → s'.Queued p ∨ (∃ b, (p, b) ∈ s'.sent) ∨ ∃ p', s'.Queued p' ∧ p'.tagId = p.tagId
  encoded : ∃ new, s'.sent = s.sent ++ new ∧ ∀ p b, (p, b) ∈ new → Encodes p b

/-- A measured TAG stands at the index of its number, a window that ends asks for commands of one TAG, the one whose command
waits if any does, and the command that waits for a transport block is one of TAG 0 with six bits. -/
def Cond (cfg : TaConfig) (s : UeTa) : TaAction → Prop
  | .nTaUpdate tagId _ _ => ∀ r ∈ s.ta.nTaReports, r.tagId = tagId → s.ta.nTaReports[tagId]? = some r
  | .slotIndication sl => ClosesWindow cfg s sl → ∀ r ∈ s.ta.nTaReports, due cfg r = true →
      (∀ r' ∈ s.ta.nTaReports, due cfg r' = true → r'.tagId = r.tagId) ∧ ∀ p, s.Queued p → p.tagId = r.tagId
  | .allocateTb _ => ∀ p, s.Queued p → p.tagId = 0 ∧ p.taCmd < 64

/-! ### The invariant -/

/-- At most one command waits, whichever its TAG: a new one takes the place of the old one. -/
inductive OneCmd : List MacCeInfo → Prop
  | nil : OneCmd []
  | one (p : TaCmdCePayload) : OneCmd [{ ceLcid := lcidTaCmd, cePayload := .taCmd p }]

/-- What all reachable states satisfy. -/
structure TaInv (s : UeTa) : Prop where
  nodup : (s.ta.nTaReports.map TagMeasurement.tagId).Nodup
  ces : OneCmd s.dl.pendingCes
  conRes : s.dl.pendingConResId = false

variable {cfg : TaConfig} {s s' : UeTa}

lemma TaInv.init (cfg : TaConfig) {tagIds : List ℕ} (h : tagIds.Nodup) : TaInv (init cfg tagIds) where
  nodup := by
    unfold UeTa.init TaManager.init
    dsimp only
    split
    · exact nodup_nil
    · rw [TaManager.updateTags, map_map]
      exact (map_id tagIds).symm ▸ h
  ces := .nil
  conRes := rfl

lemma encodes_tagCmdByte {p : TaCmdCePayload} (h : p.tagId = 0 ∧ p.taCmd < 64) : Encodes p (DlSchPdu.tagCmdByte p) := by
  obtain ⟨tagId, ta⟩ := p
  obtain ⟨rfl, hta⟩ : tagId = 0 ∧ ta < 64 := h
  rw [Encodes, DlSchPdu.tagCmdByte, toNat_byte]
  dsimp only
  omega

variable {dl : DlLogicalChannelManager} {ces : List MacCeInfo}

/-! ### Slot indications -/

lemma handleMacCeIndication_one (h : OneCmd dl.pendingCes) (p : TaCmdCePayload) :
    dl.handleMacCeIndication { ceLcid := lcidTaCmd, cePayload := .taCmd p } =
      (true, { dl with pendingCes := [{ ceLcid := lcidTaCmd, cePayload := .taCmd p }] }) := by
  unfold DlLogicalChannelManager.handleMacCeIndication
  generalize hces : dl.pendingCes = ces at h
  cases h with
  | nil => rfl
  | one p' => rfl

/-- What waits after the loop: the command of the last report that asks for one. -/
def lastCmd (cfg : TaConfig) (reports : List TagMeasurement) (ces : List MacCeInfo) : List MacCeInfo :=
  (reports.filter (due cfg)).foldl (fun _ r => [cmdOf cfg r]) ces

lemma OneCmd.lastCmd (h : OneCmd ces) (reports : List TagMeasurement) : OneCmd (lastCmd cfg reports ces) := by
  unfold UeTa.lastCmd
  induction reports.filter (due cfg) generalizing ces with
  | nil => exact h
  | cons r rest ih => exact ih (.one _)

lemma slotLoop_eq (cfg : TaConfig) (reports : List TagMeasurement) (sent : Bool) (h : OneCmd dl.pendingCes) :
    ∃ reports' sent', TaManager.slotLoop cfg reports dl sent =
        (reports', { dl with pendingCes := lastCmd cfg reports dl.pendingCes }, some sent') ∧
      reports'.map TagMeasurement.tagId = reports.map TagMeasurement.tagId := by
  induction reports generalizing dl sent with
  | nil => exact ⟨[], sent, rfl, rfl⟩
  | cons r rest ih =>
    unfold TaManager.slotLoop
    by_cases hempty : r.samples = []
    · obtain ⟨reports', sent', h1, h2⟩ := ih sent h
      have hdue : lastCmd cfg (r :: rest) dl.pendingCes = lastCmd cfg rest dl.pendingCes := by
        simp [lastCmd, due, hempty]
      rw [if_pos hempty, hdue, h1]
      exact ⟨r :: reports', sent', rfl, by simp [h2]⟩
    rw [if_neg hempty]
    by_cases hex : TaManager.exceeds cfg r.samples = true
    · have hdue : lastCmd cfg (r :: rest) dl.pendingCes = lastCmd cfg rest [cmdOf cfg r] := by
        simp [lastCmd, due, hempty, hex]
      have hcmd : OneCmd { dl with pendingCes := [cmdOf cfg r] }.pendingCes := .one _
      obtain ⟨reports', sent', h1, h2⟩ := ih true hcmd
      rw [if_pos hex, handleMacCeIndication_one h, hdue]
      rw [cmdOf] at h1 ⊢
      dsimp only at h1 ⊢
      rw [if_pos rfl, h1]
      exact ⟨{ r with samples := [] } :: reports', sent', rfl, by simp [h2]⟩
    · obtain ⟨reports', sent', h1, h2⟩ := ih sent h
      have hdue : lastCmd cfg (r :: rest) dl.pendingCes = lastCmd cfg rest dl.pendingCes := by
        simp [lastCmd, due, hex]
      rw [if_neg hex, hdue, h1]
      exact ⟨{ r with samples := [] } :: reports', sent', rfl, by simp [h2]⟩

/-- A report whose TAG alone asks for a command gets it. -/
lemma lastCmd_of_due {reports : List TagMeasurement} {r : TagMeasurement} (hn : (reports.map TagMeasurement.tagId).Nodup)
    (hr : r ∈ reports) (hdue : due cfg r = true) (h : ∀ r' ∈ reports, due cfg r' = true → r'.tagId = r.tagId) :
    lastCmd cfg reports ces = [cmdOf cfg r] := by
  have hsame : ∀ r' ∈ reports.filter (due cfg), r' = r := fun r' hr' =>
    inj_on_of_nodup_map hn (mem_of_mem_filter hr') hr (h r' (mem_of_mem_filter hr') (mem_filter.mp hr').2)
  have hmem : r ∈ reports.filter (due cfg) := mem_filter.mpr ⟨hr, hdue⟩
  unfold lastCmd
  generalize reports.filter (due cfg) = l at hsame hmem
  induction l generalizing ces with
  | nil => cases hmem
  | cons r' rest ih =>
    rw [foldl_cons]
    cases rest with
    | nil => rw [hsame r' mem_cons_self]; rfl
    | cons r'' rest =>
      refine ih (fun x hx => hsame x (mem_cons_of_mem _ hx)) ?_
      rw [hsame r'' (by simp)]
      exact mem_cons_self

lemma TaInv.slotIndication (h : TaInv s) (cfg : TaConfig) (sl : ℕ) :
    ∃ t, (t.nTaReports.map TagMeasurement.tagId).Nodup ∧
      (¬ ClosesWindow cfg s sl ∧ s.ta.slotIndication cfg s.dl sl = (t, s.dl) ∨
        ClosesWindow cfg s sl ∧ s.ta.slotIndication cfg s.dl sl =
          (t, { s.dl with pendingCes := lastCmd cfg s.ta.nTaReports s.dl.pendingCes })) := by
  have hother : s.ta.state ≠ .measure → ¬ ClosesWindow cfg s sl := fun hne hc => hne hc.1
  unfold TaManager.slotIndication
  cases hst : s.ta.state with
  | disabled => exact ⟨s.ta, h.nodup, .inl ⟨hother (by simp [hst]), rfl⟩⟩
  | idle => exact ⟨{ s.ta with measStartTime := sl, state := .measure }, h.nodup, .inl ⟨hother (by simp [hst]), rfl⟩⟩
  | prohibit =>
    dsimp only
    split
    · exact ⟨{ s.ta with measStartTime := sl, state := .measure }, h.nodup, .inl ⟨hother (by simp [hst]), rfl⟩⟩
    · exact ⟨s.ta, h.nodup, .inl ⟨hother (by simp [hst]), rfl⟩⟩
  | measure =>
    dsimp only
    split
    next hlt => exact ⟨s.ta, h.nodup, .inl ⟨fun hc => absurd hc.2 (by omega), rfl⟩⟩
    next hge =>
      obtain ⟨reports, sent, h1, h2⟩ := slotLoop_eq cfg s.ta.nTaReports false h.ces
      have hnodup : (reports.map TagMeasurement.tagId).Nodup := h2 ▸ h.nodup
      rw [h1]
      dsimp only
      split
      · exact ⟨_, hnodup, .inr ⟨⟨hst, by omega⟩, rfl⟩⟩
      · exact ⟨_, hnodup, .inr ⟨⟨hst, by omega⟩, rfl⟩⟩

/-! ### Transport blocks -/

lemma allocateMacCes_nil (n tbs : ℕ) (dl : DlLogicalChannelManager) (h : dl.pendingCes = [])
    (hcon : dl.pendingConResId = false) : allocateMacCes n dl tbs = ([], dl) := by
  cases n with
  | zero => rfl
  | succ n => simp [allocateMacCes, DlLogicalChannelManager.hasPendingCes, h, hcon]

lemma allocateMacCes_one (n tbs : ℕ) (h : OneCmd dl.pendingCes) (hcon : dl.pendingConResId = false) :
    allocateMacCes n dl tbs = ([], dl) ∨ allocateMacCes n dl tbs = (dl.pendingCes, { dl with pendingCes := [] }) := by
  cases n with
  | zero => exact .inl rfl
  | succ n =>
    generalize hces : dl.pendingCes = ces at h
    cases h with
    | nil => exact .inl (allocateMacCes_nil _ _ dl hces hcon)
    | one p =>
      have hno : dl.allocateUeConResIdMacCe tbs = (0, dl) := by
        simp [DlLogicalChannelManager.allocateUeConResIdMacCe, DlLogicalChannelManager.isConResIdPending, hcon]
      have hpend : dl.hasPendingCes = true := by
        simp [DlLogicalChannelManager.hasPendingCes, hces]
      have hce : dl.allocateMacCe tbs = if tbs < 2 then ((0, none), dl) else
          ((2, some ⟨lcidTaCmd, .taCmd p⟩), { dl with pendingCes := [] }) := by
        rw [DlLogicalChannelManager.allocateMacCe, hno]
        rw [if_neg (Nat.lt_irrefl 0), hces]
        rfl
      rw [allocateMacCes, if_pos hpend, hce]
      by_cases hspace : tbs < 2
      · rw [if_pos hspace]
        exact .inl rfl
      · rw [if_neg hspace]
        dsimp only
        rw [if_neg (by decide), allocateMacCes_nil n _ { dl with pendingCes := [] } rfl hcon]
        exact .inr rfl

lemma OneCmd.encodings (h : OneCmd ces)
    (hc : ∀ p : TaCmdCePayload, { ceLcid := lcidTaCmd, cePayload := .taCmd p } ∈ ces → p.tagId = 0 ∧ p.taCmd < 64) :
    (∀ p b, (p, b) ∈ ces.filterMap encodeTaCmd → Encodes p b) ∧
      ∀ p, { ceLcid := lcidTaCmd, cePayload := .taCmd p } ∈ ces → ∃ b, (p, b) ∈ ces.filterMap encodeTaCmd := by
  cases h with
  | nil => exact ⟨fun _ _ hm => (nomatch hm), fun _ hm => (nomatch hm)⟩
  | one p =>
    refine ⟨fun q b hm => ?_, fun q hm => ?_⟩
    · have heq : (q, b) = (p, DlSchPdu.tagCmdByte p) := mem_singleton.mp hm
      cases heq
      exact encodes_tagCmdByte (hc p mem_cons_self)
    · rw [mem_singleton] at hm
      cases hm
      exact ⟨_, mem_singleton.mpr rfl⟩

/-! ### Measurements -/

lemma map_tagId_modify (l : List TagMeasurement) (i : ℕ) (nTaDiff : ℤ) :
    (l.modify i fun r => { r with samples := r.samples ++ [nTaDiff] }).map TagMeasurement.tagId =
      l.map TagMeasurement.tagId := by
  refine ext_getElem? fun k => ?_
  rw [getElem?_map, getElem?_modify, getElem?_map]
  cases l[k]? with
  | none => rfl
  | some r => by_cases h : i = k <;> simp [h]

lemma modify_eq_recorded {l : List TagMeasurement} {tagId : ℕ} {r : TagMeasurement}
    (hn : (l.map TagMeasurement.tagId).Nodup) (hr : l[tagId]? = some r) (htag : r.tagId = tagId) (nTaDiff : ℤ) :
    (l.modify tagId fun r => { r with samples := r.samples ++ [nTaDiff] }) = recorded l tagId nTaDiff := by
  refine ext_getElem? fun k => ?_
  rw [recorded, getElem?_map, getElem?_modify]
  cases hk : l[k]? with
  | none => rfl
  | some r' =>
    by_cases h : tagId = k
    · obtain rfl : r = r' := Option.some.inj ((h ▸ hr).symm.trans hk)
      simp [h, htag]
    · have hne : r'.tagId ≠ tagId := by
        intro heq
        have hsame : (l.map TagMeasurement.tagId)[tagId]? = (l.map TagMeasurement.tagId)[k]? := by
          rw [getElem?_map, getElem?_map, hr, hk, Option.map_some, Option.map_some, htag, heq]
        have hlt : tagId < (l.map TagMeasurement.tagId).length := by
          rw [length_map]
          exact (List.getElem?_eq_some_iff.mp hr).1
        exact h ((getElem?_inj hlt hn).mp hsame)
      simp [h, hne]

lemma recorded_of_not_mem {l : List TagMeasurement} {tagId : ℕ} (h : ∀ r ∈ l, r.tagId ≠ tagId) (nTaDiff : ℤ) :
    recorded l tagId nTaDiff = l :=
  (map_congr_left fun r hr => if_neg (h r hr)).trans (map_id l)

lemma TaInv.nTaUpdate (h : TaInv s) {tagId : ℕ} (nTaDiff : ℤ) (sinrAbove : Bool)
    (hc : ∀ r ∈ s.ta.nTaReports, r.tagId = tagId → s.ta.nTaReports[tagId]? = some r) :
    ∃ t, s.ta.handleUlNTaUpdateIndication tagId nTaDiff sinrAbove = .ok t ∧
      (sinrAbove = true → s.ta.state = .measure → t.nTaReports = recorded s.ta.nTaReports tagId nTaDiff) := by
  unfold TaManager.handleUlNTaUpdateIndication
  by_cases hm : s.ta.state = .measure ∧ sinrAbove = true
  · rw [if_pos hm]
    by_cases hany : ∃ r ∈ s.ta.nTaReports, r.tagId = tagId
    · obtain ⟨r, hr, htag⟩ := hany
      have hat := hc r hr htag
      rw [if_pos (by simpa using ⟨r, hr, htag⟩), if_pos (List.getElem?_eq_some_iff.mp hat).1]
      exact ⟨_, rfl, fun _ _ => modify_eq_recorded h.nodup hat htag nTaDiff⟩
    · rw [if_neg (by simpa using hany)]
      refine ⟨s.ta, rfl, fun _ _ => (recorded_of_not_mem (fun r hr htag => hany ⟨r, hr, htag⟩) nTaDiff).symm⟩
  · rw [if_neg hm]
    exact ⟨s.ta, rfl, fun hs hst => absurd ⟨hst, hs⟩ hm⟩

/-! ### Every step -/

lemma TaInv.step {a : TaAction} (h : TaInv s) (hs : UeTa.step cfg s a = .ok s') : TaInv s' := by
  cases a with
  | nTaUpdate tagId nTaDiff sinrAbove =>
    obtain ⟨t, ht, hs⟩ := bind_eq_ok.mp hs
    cases hs
    refine ⟨?_, h.ces, h.conRes⟩
    unfold TaManager.handleUlNTaUpdateIndication at ht
    split at ht
    · split at ht
      · split at ht
        · cases ht
          exact (map_tagId_modify _ _ _).symm ▸ h.nodup
        · cases ht
      · cases ht; exact h.nodup
    · cases ht; exact h.nodup
  | slotIndication sl =>
    cases hs
    obtain ⟨t, hn, ⟨-, h1⟩ | ⟨-, h1⟩⟩ := h.slotIndication cfg sl
    · rw [h1]
      exact ⟨hn, h.ces, h.conRes⟩
    · rw [h1]
      exact ⟨hn, h.ces.lastCmd _, h.conRes⟩
  | allocateTb tbs =>
    cases hs
    obtain h1 | h1 := allocateMacCes_one maxLcPerTb tbs h.ces h.conRes
    · rw [h1]
      exact ⟨h.nodup, h.ces, h.conRes⟩
    · rw [h1]
      exact ⟨h.nodup, .nil, h.conRes⟩

/-- **One step** under the condition succeeds and does what is expected. -/
lemma TaInv.stepOk {a : TaAction} (h : TaInv s) (hc : Cond cfg s a) :
    ∃ s', UeTa.step cfg s a = .ok s' ∧ StepOk cfg s a s' := by
  have hsame : ∃ new, s.sent = s.sent ++ new ∧ ∀ p b, (p, b) ∈ new → Encodes p b :=
    ⟨[], (append_nil _).symm, fun _ _ hm => (nomatch hm)⟩
  cases a with
  | nTaUpdate tagId nTaDiff sinrAbove =>
    obtain ⟨t, h1, h2⟩ := h.nTaUpdate nTaDiff sinrAbove hc
    refine ⟨{ s with ta := t }, by rw [UeTa.step, h1]; rfl, ⟨?_, fun _ heq => (nomatch heq), fun p hp => .inl hp, hsame⟩⟩
    rintro _ _ heq hst
    cases heq
    exact h2 rfl hst
  | slotIndication sl =>
    refine ⟨_, rfl, ⟨fun _ _ heq => (nomatch heq), ?_, fun p hp => ?_, hsame⟩⟩
    · rintro _ heq hclose r hr hdue
      cases heq
      obtain ⟨t, -, ⟨hno, -⟩ | ⟨-, h1⟩⟩ := h.slotIndication cfg sl
      · exact absurd hclose hno
      · rw [Queued, h1, lastCmd_of_due h.nodup hr hdue (hc hclose r hr hdue).1]
        exact mem_cons_self
    · obtain ⟨t, -, ⟨-, h1⟩ | ⟨hclose, h1⟩⟩ := h.slotIndication cfg sl
      · rw [Queued, h1]
        exact .inl hp
      -- a command that a report asks for takes the place of one of the same TAG
      by_cases hany : ∃ r ∈ s.ta.nTaReports, due cfg r = true
      · obtain ⟨r, hr, hdue⟩ := hany
        obtain ⟨hone, htag⟩ := hc hclose r hr hdue
        refine .inr (.inr ⟨⟨r.tagId, cfg.newTa r.samples⟩, ?_, (htag p hp).symm⟩)
        rw [Queued, h1, lastCmd_of_due h.nodup hr hdue hone]
        exact mem_cons_self
      · have hnone : s.ta.nTaReports.filter (due cfg) = [] :=
          filter_eq_nil_iff.mpr fun r hr hdue => hany ⟨r, hr, hdue⟩
        rw [Queued, h1, lastCmd, hnone]
        exact .inl hp
  | allocateTb tbs =>
    obtain ⟨he, hs⟩ := h.ces.encodings hc
    obtain h1 | h1 := allocateMacCes_one maxLcPerTb tbs h.ces h.conRes
    · refine ⟨s, by rw [UeTa.step, h1]; simp, ⟨fun _ _ heq => (nomatch heq), fun _ heq => (nomatch heq),
        fun p hp => .inl hp, hsame⟩⟩
    · refine ⟨{ s with dl := { s.dl with pendingCes := [] }, sent := _ }, by rw [UeTa.step, h1],
        ⟨fun _ _ heq => (nomatch heq), fun _ heq => (nomatch heq), fun p hp => ?_, ⟨_, rfl, he⟩⟩⟩
      obtain ⟨b, hb⟩ := hs p hp
      exact .inr (.inl ⟨b, mem_append_right _ hb⟩)

end UeTa

end SrsRan.Sched
