import SrsRan.Sched.HarqRepository
import SrsRan.Lib.Post
import SrsRan.Lib.ExactList

/-!
# The partition of the HARQ processes

`HarqInv` says what each of the lists of the repository holds: the free ids of a UE, the buckets of the timeout wheel and the
list of pending retransmissions.  Every operation keeps it, and no operation removes a process from a list that it is not in.
-/

namespace SrsRan.Sched

open Support Lib.Run Lib.ExactList List Option Prod
open Function (update update_self update_of_ne update_idem)

namespace HarqProcess

/-- The process is in use, and times out in a slot of the bucket. -/
def InBucket (cfg : HarqConfig) (h : HarqProcess) (b : ℕ) : Prop :=
  h.status ≠ .empty ∧ ∃ t, h.slotTimeout = some t ∧ t % cfg.wheelSize = b

/-- A process in use has a timeout, and one with a pending retransmission is below the maximum. -/
structure Ok (h : HarqProcess) : Prop where
  timeout : h.status ≠ .empty → ∃ t, h.slotTimeout = some t
  retxs : h.nofRetxs ≤ h.maxNofHarqRetxs
  pending : h.status = .pendingRetx → h.nofRetxs < h.maxNofHarqRetxs

end HarqProcess

namespace HarqRepository

open HarqProcess

variable {cfg : HarqConfig} {s s' : HarqRepository} {p : ℕ × ℕ}

/-- Every bucket of the wheel holds the processes that time out in it. -/
def WheelOk (cfg : HarqConfig) (s : HarqRepository) : Prop :=
  ∀ b, Exactly (s.harqTimeoutWheel b) fun p => s.Exists p ∧ InBucket cfg (s.harqs p) b

/-- **The invariant of the repository.** -/
structure HarqInv (cfg : HarqConfig) (s : HarqRepository) : Prop where
  free : ∀ ue, Exactly (s.freeHarqIds ue) fun h => s.Exists (ue, h) ∧ (s.harqs (ue, h)).status = .empty
  wheel : WheelOk cfg s
  pending : Exactly s.harqPendingRetxList fun p => s.Exists p ∧ (s.harqs p).status = .pendingRetx
  ok : ∀ p, s.Exists p → (s.harqs p).Ok

/-- What no operation changes. -/
structure Frame (s s' : HarqRepository) : Prop where
  nofHarqs : s'.nofHarqs = s.nofHarqs
  ndi : ∀ p, (s'.harqs p).ndi = (s.harqs p).ndi

lemma Frame.refl (s : HarqRepository) : Frame s s := ⟨rfl, fun _ => rfl⟩

lemma Frame.trans {s1 s2 s3 : HarqRepository} (h : Frame s1 s2) (h' : Frame s2 s3) : Frame s1 s3 :=
  ⟨h'.nofHarqs.trans h.nofHarqs, fun p => (h'.ndi p).trans (h.ndi p)⟩

lemma Frame.exists_iff (h : Frame s s') (p : ℕ × ℕ) : s'.Exists p ↔ s.Exists p := by
  rw [Exists, Exists, h.nofHarqs]

variable {x : HarqProcess} {a : HarqAction}

lemma Frame.of_update (hn : s'.nofHarqs = s.nofHarqs) (hh : s'.harqs = update s.harqs p x)
    (hx : x.ndi = (s.harqs p).ndi) : Frame s s' := by
  refine ⟨hn, fun q => ?_⟩
  rw [hh]
  by_cases hq : q = p
  · subst hq
    rw [update_self, hx]
  · rw [update_of_ne hq]

lemma HarqInv.init (cfg : HarqConfig) : HarqInv cfg init where
  free _ := Exactly.nil fun _ h => absurd h.1 (Nat.not_lt_zero _)
  wheel _ := Exactly.nil fun _ h => absurd h.1 (Nat.not_lt_zero _)
  pending := Exactly.nil fun _ h => absurd h.1 (Nat.not_lt_zero _)
  ok _ h := absurd h (Nat.not_lt_zero _)

/-- What a list holds after process `p` has become `x`. -/
def After (s : HarqRepository) (p : ℕ × ℕ) (x : HarqProcess) (Q : HarqProcess → Prop) (q : ℕ × ℕ) : Prop :=
  if q = p then Q x else s.Exists q ∧ Q (s.harqs q)

section After

variable {Q : HarqProcess → Prop} {q : ℕ × ℕ}

@[simp] lemma after_self : After s p x Q p ↔ Q x := by simp [After]

lemma after_of_ne (hq : q ≠ p) : After s p x Q q ↔ s.Exists q ∧ Q (s.harqs q) := by simp [After, hq]

lemma after_iff (hp : s.Exists p) (hn : s'.nofHarqs = s.nofHarqs) (hh : s'.harqs = update s.harqs p x) :
    After s p x Q q ↔ s'.Exists q ∧ Q (s'.harqs q) := by
  rw [Exists, hn, hh, ← Exists]
  by_cases hq : q = p
  · simp [hq, hp]
  · simp [hq, after_of_ne hq]

lemma after_keep (hp : s.Exists p) (hx : Q x ↔ Q (s.harqs p)) : s.Exists q ∧ Q (s.harqs q) ↔ After s p x Q q := by
  by_cases hq : q = p
  · simp [hq, hp, hx]
  · rw [after_of_ne hq]

end After

section

variable (hi : HarqInv cfg s)
include hi

/-- **One process changes.**  The lists are right again if they are as before for the other processes, and as its new
state demands for this one. -/
theorem HarqInv.set (hp : s.Exists p) (hn : s'.nofHarqs = s.nofHarqs)
    (hh : s'.harqs = update s.harqs p x) (hx : x.Ok)
    (hfree : ∀ ue, Exactly (s'.freeHarqIds ue) fun h => After s p x (·.status = .empty) (ue, h))
    (hwheel : ∀ b, Exactly (s'.harqTimeoutWheel b) (After s p x (InBucket cfg · b)))
    (hpending : Exactly s'.harqPendingRetxList (After s p x (·.status = .pendingRetx))) : HarqInv cfg s' where
  free ue := (hfree ue).congr fun h => after_iff hp hn hh
  wheel b := (hwheel b).congr fun _ => after_iff hp hn hh
  pending := hpending.congr fun _ => after_iff hp hn hh
  ok := by
    intro q hq
    rw [hh]
    by_cases heq : q = p
    · rwa [heq, update_self]
    · rw [update_of_ne heq]
      exact hi.ok q (by rwa [Exists, hn] at hq)

/-! ### The lists -/

theorem HarqInv.free_keep (hp : s.Exists p)
    (hx : x.status = .empty ↔ (s.harqs p).status = .empty) (ue : ℕ) :
    Exactly (s.freeHarqIds ue) fun h => After s p x (·.status = .empty) (ue, h) :=
  (hi.free ue).congr fun _ => after_keep (Q := (·.status = .empty)) hp hx

lemma HarqInv.free_push (hne : (s.harqs p).status ≠ .empty) (hx : x.status = .empty) (ue : ℕ) :
    Exactly (update s.freeHarqIds p.1 (s.freeHarqIds p.1 ++ [p.2]) ue) fun h =>
      After s p x (·.status = .empty) (ue, h) := by
  by_cases hue : ue = p.1
  · subst hue
    rw [update_self]
    refine ((hi.free p.1).concat fun h => hne h.2).congr fun h => ?_
    by_cases hh : h = p.2
    · subst hh
      simp [hx]
    · rw [after_of_ne (fun heq => hh (congrArg snd heq))]
      simp [hh]
  · rw [update_of_ne hue]
    refine (hi.free ue).congr fun h => ?_
    rw [after_of_ne (fun heq => hue (congrArg fst heq))]

lemma HarqInv.free_pop {ue hId : ℕ} (hlast : (s.freeHarqIds ue).getLast? = some hId)
    (hx : x.status ≠ .empty) (ue' : ℕ) :
    Exactly (update s.freeHarqIds ue (s.freeHarqIds ue).dropLast ue') fun h =>
      After s (ue, hId) x (·.status = .empty) (ue', h) := by
  by_cases hue : ue' = ue
  · subst hue
    rw [update_self]
    refine ((hi.free ue').dropLast hlast).congr fun h => ?_
    by_cases hh : h = hId
    · subst hh
      simp [hx]
    · rw [after_of_ne (fun heq => hh (congrArg snd heq))]
      simp [hh]
  · rw [update_of_ne hue]
    refine (hi.free ue').congr fun h => ?_
    rw [after_of_ne (fun heq => hue (congrArg fst heq))]

lemma HarqInv.pending_keep (hp : s.Exists p)
    (hx : x.status = .pendingRetx ↔ (s.harqs p).status = .pendingRetx) :
    Exactly s.harqPendingRetxList (After s p x (·.status = .pendingRetx)) :=
  hi.pending.congr fun _ => after_keep (Q := (·.status = .pendingRetx)) hp hx

lemma HarqInv.pending_erase (hx : x.status ≠ .pendingRetx) :
    Exactly (s.harqPendingRetxList.erase p) (After s p x (·.status = .pendingRetx)) := by
  refine (hi.pending.erase p).congr fun q => ?_
  by_cases hq : q = p
  · simp [hq, hx]
  · simp [hq, after_of_ne hq]

lemma HarqInv.pending_push (hne : (s.harqs p).status ≠ .pendingRetx)
    (hx : x.status = .pendingRetx) :
    Exactly (s.harqPendingRetxList ++ [p]) (After s p x (·.status = .pendingRetx)) := by
  refine (hi.pending.concat fun h => hne h.2).congr fun q => ?_
  by_cases hq : q = p
  · simp [hq, hx]
  · simp [hq, after_of_ne hq]

end

lemma WheelOk.keep (hw : WheelOk cfg s) (hp : s.Exists p)
    (hx : ∀ b, InBucket cfg x b ↔ InBucket cfg (s.harqs p) b) (b : ℕ) :
    Exactly (s.harqTimeoutWheel b) (After s p x (InBucket cfg · b)) :=
  (hw b).congr fun _ => after_keep (Q := (InBucket cfg · b)) hp (hx b)

lemma WheelOk.erase (hw : WheelOk cfg s) (hx : x.status = .empty) (b : ℕ) :
    Exactly ((s.harqTimeoutWheel b).erase p) (After s p x (InBucket cfg · b)) := by
  refine ((hw b).erase p).congr fun q => ?_
  by_cases hq : q = p
  · simp [hq, InBucket, hx]
  · simp [hq, after_of_ne hq]

lemma WheelOk.move (hw : WheelOk cfg s) {t : ℕ} (hne : x.status ≠ .empty) (hx : x.slotTimeout = some t) (b : ℕ) :
    Exactly (update (fun b => (s.harqTimeoutWheel b).erase p) (t % cfg.wheelSize)
        (p :: (s.harqTimeoutWheel (t % cfg.wheelSize)).erase p) b) (After s p x (InBucket cfg · b)) := by
  have hin : InBucket cfg x b ↔ b = t % cfg.wheelSize := by
    simp only [InBucket, hx, some.injEq, exists_eq_left']
    exact ⟨fun h => h.2.symm, fun h => ⟨hne, h.symm⟩⟩
  by_cases hb : b = t % cfg.wheelSize
  · subst hb
    rw [update_self]
    refine (((hw (t % cfg.wheelSize)).erase p).cons fun h => h.1 rfl).congr fun q => ?_
    by_cases hq : q = p
    · rw [hq, after_self, hin]
      simp
    · simp [hq, after_of_ne hq]
  · rw [update_of_ne hb]
    refine ((hw b).erase p).congr fun q => ?_
    by_cases hq : q = p
    · rw [hq, after_self, hin]
      simp [hb]
    · simp [hq, after_of_ne hq]

lemma wheelPop_eq (hw : WheelOk cfg s) (hp : s.Exists p) (hne : (s.harqs p).status ≠ .empty)
    (hok : (s.harqs p).Ok) :
    s.wheelPop cfg p = .ok { s with harqTimeoutWheel := fun b => (s.harqTimeoutWheel b).erase p } := by
  obtain ⟨t, ht⟩ := hok.timeout hne
  have hmem : p ∈ s.harqTimeoutWheel (t % cfg.wheelSize) := ((hw _).mem p).mpr ⟨hp, hne, t, ht, rfl⟩
  have hfun : update s.harqTimeoutWheel (t % cfg.wheelSize) ((s.harqTimeoutWheel (t % cfg.wheelSize)).erase p) =
      fun b => (s.harqTimeoutWheel b).erase p := by
    funext b
    by_cases hb : b = t % cfg.wheelSize
    · rw [hb, update_self]
    · rw [update_of_ne hb, erase_of_not_mem]
      intro hm
      obtain ⟨-, -, t', ht', heq⟩ := ((hw b).mem p).mp hm
      rw [ht] at ht'
      cases ht'
      exact hb heq.symm
  rw [wheelPop, ht]
  simp [popElement, if_pos hmem, ok_bind, hfun]

lemma HarqInv.not_mem_wheel (hi : HarqInv cfg s) (he : (s.harqs p).status = .empty) (b : ℕ) :
    p ∉ s.harqTimeoutWheel b := fun hm => (((hi.wheel b).mem p).mp hm).2.1 he

lemma HarqInv.not_mem_pending (hi : HarqInv cfg s) (he : (s.harqs p).status ≠ .pendingRetx) :
    p ∉ s.harqPendingRetxList := fun hm => he ((hi.pending.mem p).mp hm).2

lemma HarqInv.pendingPop_eq (hi : HarqInv cfg s) (hp : s.Exists p) (hst : (s.harqs p).status = .pendingRetx) :
    s.pendingPop p = .ok { s with harqPendingRetxList := s.harqPendingRetxList.erase p } := by
  have hmem : p ∈ s.harqPendingRetxList := (hi.pending.mem p).mpr ⟨hp, hst⟩
  rw [pendingPop, popElement, if_pos hmem]
  rfl

/-! ### The operations on one process -/

def freed (cfg : HarqConfig) (s : HarqRepository) (p : ℕ × ℕ) : HarqRepository :=
  { s with
    harqs := Function.update s.harqs p { s.harqs p with slotTimeout := none, status := .empty }
    lastSlotTx := Function.update s.lastSlotTx p.1 (cfg.forget (s.lastSlotTx p.1) (s.harqs p).slotTx)
    lastSlotAck := Function.update s.lastSlotAck p.1 (cfg.forget (s.lastSlotAck p.1) (s.harqs p).slotAck)
    freeHarqIds := Function.update s.freeHarqIds p.1 (s.freeHarqIds p.1 ++ [p.2])
    harqPendingRetxList := s.harqPendingRetxList.erase p
    harqTimeoutWheel := fun b => (s.harqTimeoutWheel b).erase p }

lemma deallocHarq_eq (hi : HarqInv cfg s) (hp : s.Exists p) (hne : (s.harqs p).status ≠ .empty) :
    s.deallocHarq cfg p = .ok (freed cfg s p) := by
  have hpop : s.unlinkPending p = .ok { s with harqPendingRetxList := s.harqPendingRetxList.erase p } := by
    unfold unlinkPending
    split
    next hst => exact hi.pendingPop_eq hp hst
    next hst => rw [erase_of_not_mem (hi.not_mem_pending hst)]
  have hwheel := wheelPop_eq (s := { s with harqPendingRetxList := s.harqPendingRetxList.erase p }) hi.wheel hp hne
    (hi.ok p hp)
  rw [deallocHarq, if_neg hne, hpop, ok_bind, hwheel]
  rfl

lemma HarqInv.freed (hi : HarqInv cfg s) (hp : s.Exists p) (hne : (s.harqs p).status ≠ .empty) :
    HarqInv cfg (freed cfg s p) := by
  have hok := hi.ok p hp
  refine hi.set hp rfl rfl ⟨fun h => absurd rfl h, hok.retxs, fun h => (nomatch h)⟩ ?_ ?_ ?_
  · exact hi.free_push hne rfl
  · exact hi.wheel.erase rfl
  · exact hi.pending_erase (fun h => nomatch h)

/-- **`dealloc_harq`.** -/
theorem HarqInv.deallocHarq (hi : HarqInv cfg s) (hp : s.Exists p) :
    ∃ s', s.deallocHarq cfg p = .ok s' ∧ HarqInv cfg s' ∧ Frame s s' ∧ (s'.harqs p).status = .empty ∧
      (∀ q, q ≠ p → s'.harqs q = s.harqs q) ∧ (∀ b, s'.harqTimeoutWheel b = (s.harqTimeoutWheel b).erase p) ∧
      s'.harqPendingRetxList = s.harqPendingRetxList.erase p := by
  by_cases he : (s.harqs p).status = .empty
  · refine ⟨s, by rw [HarqRepository.deallocHarq, if_pos he], hi, Frame.refl s, he, fun _ _ => rfl, fun b => ?_, ?_⟩
    · rw [erase_of_not_mem (hi.not_mem_wheel he b)]
    · rw [erase_of_not_mem (hi.not_mem_pending (by rw [he]; simp))]
  · refine ⟨_, deallocHarq_eq hi hp he, hi.freed hp he, Frame.of_update rfl rfl rfl, ?_, fun q hq => ?_, fun _ => rfl, rfl⟩
    · simp [HarqRepository.freed]
    · simp [HarqRepository.freed, hq]

/-- The errors that no operation ends with. -/
def Unexpected (e : Abort) : Prop := e = notLinked ∨ e = wrongState

lemma not_unexpected {e : Abort} (h1 : e ≠ notLinked) (h2 : e ≠ wrongState) : ¬ Unexpected e := fun h => h.elim h1 h2

/-- The operation keeps the invariant, or aborts as expected. -/
def Keeps (cfg : HarqConfig) (s : HarqRepository) (x : Except Abort HarqRepository) : Prop :=
  Post (fun e => ¬ Unexpected e) (fun s' => HarqInv cfg s' ∧ Frame s s') x

section

variable (hi : HarqInv cfg s)
include hi

lemma HarqInv.keeps_self : Keeps cfg s (.ok s) := ⟨hi, Frame.refl s⟩

variable (hp : s.Exists p)
include hp

lemma HarqInv.keeps_deallocHarq : Keeps cfg s (s.deallocHarq cfg p) := by
  obtain ⟨s', h1, h2, h3, -⟩ := hi.deallocHarq hp
  rw [h1]
  exact ⟨h2, h3⟩

lemma HarqInv.setHarq_keep (h1 : x.status = (s.harqs p).status)
    (h2 : x.slotTimeout = (s.harqs p).slotTimeout) (hx : x.Ok) : HarqInv cfg (s.setHarq p x) := by
  refine hi.set hp rfl rfl hx ?_ ?_ ?_
  · exact hi.free_keep hp (by rw [h1])
  · exact hi.wheel.keep hp fun b => by rw [InBucket, InBucket, h1, h2]
  · exact hi.pending_keep hp (by rw [h1])

lemma HarqInv.retime (hne : (s.harqs p).status ≠ .empty) (n : ℤ) : Keeps cfg s (do
      let s ← s.wheelPop cfg p
      .ok (s.wheelPush cfg p (cfg.plus s.lastSlInd n))) := by
  have hok := hi.ok p hp
  rw [wheelPop_eq hi.wheel hp hne hok, ok_bind]
  refine ⟨hi.set hp rfl rfl ⟨fun _ => ⟨_, rfl⟩, hok.retxs, hok.pending⟩ ?_ ?_ ?_, Frame.of_update rfl rfl rfl⟩
  · exact hi.free_keep hp Iff.rfl
  · exact hi.wheel.move hne rfl
  · exact hi.pending_keep hp Iff.rfl

/-- **`set_pending_retx`** -/
theorem HarqInv.setPendingRetx (hst : (s.harqs p).status = .waitingAck)
    (hlt : (s.harqs p).nofRetxs < (s.harqs p).maxNofHarqRetxs) : Keeps cfg s (s.setPendingRetx cfg p) := by
  have hne : (s.harqs p).status ≠ .empty := by rw [hst]; simp
  have hnp : (s.harqs p).status ≠ .pendingRetx := by rw [hst]; simp
  have hok := hi.ok p hp
  rw [HarqRepository.setPendingRetx, if_neg hnp, wheelPop_eq hi.wheel hp hne hok, ok_bind]
  -- the process waits for its retransmission, with a new timeout
  let x : HarqProcess :=
    { s.harqs p with slotTimeout := some (cfg.plus s.lastSlInd cfg.harqRetxTimeout), status := .pendingRetx }
  have hx : x.Ok := ⟨fun _ => ⟨_, rfl⟩, hok.retxs, fun _ => hlt⟩
  have hharqs : ∀ y : HarqProcess, update (update s.harqs p y) p x = update s.harqs p x := fun y => update_idem _ _ _
  have hself : ∀ t, { update s.harqs p { s.harqs p with slotTimeout := some t } p with
      status := HarqState.pendingRetx } = { s.harqs p with slotTimeout := some t, status := .pendingRetx } := fun t => by
    rw [update_self]
  refine ⟨hi.set hp rfl ?_ hx ?_ ?_ ?_, Frame.of_update (x := x) rfl ?_ rfl⟩
  · simp only [setHarq, wheelPush, hself]
    exact hharqs _
  · exact hi.free_keep hp (by simp [x, hne])
  · exact hi.wheel.move (x := x) (by simp [x]) rfl
  · exact hi.pending_push hnp rfl
  · simp only [setHarq, wheelPush, hself]
    exact hharqs _

/-- **`handle_new_retx`** -/
theorem HarqInv.handleNewRetx (slotTx slotAck : ℕ) : Keeps cfg s (s.handleNewRetx cfg p slotTx slotAck) := by
  rw [HarqRepository.handleNewRetx]
  split
  · exact hi.keeps_self
  rename_i hst
  have hst : (s.harqs p).status = .pendingRetx := not_not.mp hst
  have hne : (s.harqs p).status ≠ .empty := by rw [hst]; simp
  have hok := hi.ok p hp
  have hwheel := wheelPop_eq (s := { s with harqPendingRetxList := s.harqPendingRetxList.erase p }) hi.wheel hp hne hok
  rw [hi.pendingPop_eq hp hst, ok_bind, hwheel, ok_bind]
  have hself : ∀ x y : HarqProcess, update (update s.harqs p x) p y = update s.harqs p y := fun x y => update_idem _ _ _
  refine ⟨hi.set hp rfl (hself _ _) ⟨fun _ => ⟨_, rfl⟩, ?_, fun h => ?_⟩ ?_ ?_ ?_, Frame.of_update rfl (hself _ _) ?_⟩
  · simp only [setHarq, update_self]
    exact hok.pending hst
  · simp [setHarq, update_self] at h
  · refine hi.free_keep hp ?_
    simp [setHarq, update_self, hne]
  · refine hi.wheel.move ?_ rfl
    simp [setHarq, update_self]
  · refine hi.pending_erase ?_
    simp [setHarq, update_self]
  · simp [setHarq, update_self]

lemma HarqInv.handleAck (hst : (s.harqs p).status = .waitingAck) (ack : Bool) :
    Keeps cfg s (s.handleAck cfg p ack) := by
  rw [HarqRepository.handleAck]
  split
  · exact not_unexpected (by decide) (by decide)
  split
  · exact hi.keeps_deallocHarq hp
  next h => exact hi.setPendingRetx hp hst (by omega)

lemma HarqInv.cancelRetxs : Keeps cfg s (s.cancelRetxs cfg p) := by
  have hok := hi.ok p hp
  rw [HarqRepository.cancelRetxs]
  split
  · exact hi.keeps_self
  · exact hi.keeps_deallocHarq hp
  next hst =>
    refine ⟨hi.setHarq_keep hp rfl rfl ⟨hok.timeout, le_rfl, fun h => ?_⟩, Frame.of_update rfl rfl rfl⟩
    have h' : (s.harqs p).status = .pendingRetx := h
    rw [hst] at h'
    cases h'

/-- **`dl_ack_info`** -/
theorem HarqInv.dlAckInfo (report : HarqAckReport)
    (snr : Option Lib.Binary32.F32) : Keeps cfg s (s.dlAckInfo cfg p report snr) := by
  rw [HarqRepository.dlAckInfo]
  split
  · exact hi.keeps_self
  rename_i hst
  have hst : (s.harqs p).status = .waitingAck := not_not.mp hst
  have hok := hi.ok p hp
  -- the choice of the report only touches fields of its own
  obtain ⟨x, hx, h1, h2, h3, h4⟩ : ∃ x, (if prefers (s.harqs p) report snr then
      { s.harqs p with chosenAck := report, lastPucchSnr := snr } else s.harqs p) = x ∧
      x.status = (s.harqs p).status ∧ x.slotTimeout = (s.harqs p).slotTimeout ∧ x.Ok ∧ x.ndi = (s.harqs p).ndi := by
    refine ⟨_, rfl, ?_⟩
    split
    · exact ⟨rfl, rfl, { hok with }, rfl⟩
    · exact ⟨rfl, rfl, hok, rfl⟩
  simp only [hx]
  have hset := hi.setHarq_keep hp h1 h2 h3
  have hframe : Frame s (s.setHarq p x) := Frame.of_update rfl rfl h4
  have hself : (s.setHarq p x).harqs p = x := update_self _ _ _
  split
  · refine (hset.handleAck hp ?_ _).mono fun s' h => ⟨h.1, hframe.trans h.2⟩
    rw [hself, h1, hst]
  · have hidem : ∀ y, (s.setHarq p x).setHarq p y = s.setHarq p y := fun y => by
      simp [setHarq, update_idem]
    simp only [hidem]
    have hset' := hi.setHarq_keep hp (x := { x with
      pucchAckToReceive := x.pucchAckToReceive - 1, ackOnTimeout := decide (x.chosenAck = .ack) }) h1 h2
      { h3 with }
    have hframe' : Frame s (s.setHarq p { x with
      pucchAckToReceive := x.pucchAckToReceive - 1, ackOnTimeout := decide (x.chosenAck = .ack) }) :=
      Frame.of_update rfl rfl h4
    split
    · exact ⟨hset', hframe'⟩
    · -- the timeout is shortened
      refine (hset'.retime hp ?_ _).mono fun s' h => ⟨h.1, hframe'.trans h.2⟩
      show (update s.harqs p _ p).status ≠ .empty
      rw [update_self]
      show x.status ≠ .empty
      rw [h1, hst]
      exact nofun

lemma HarqInv.ulCrcInfo (ack : Bool) : Keeps cfg s (s.ulCrcInfo cfg p ack) := by
  rw [HarqRepository.ulCrcInfo]
  split
  · exact hi.keeps_self
  next hst => exact hi.handleAck hp (not_not.mp hst) ack

omit hp in
/-- **`uci_sched_failed`** -/
theorem HarqInv.uciSchedFailed (ue uciSlot : ℕ) : Keeps cfg s (s.uciSchedFailed cfg ue uciSlot) := by
  refine Post.foldlM hi.keeps_self ?_
  rintro s1 hId hmem ⟨hi1, hf1⟩
  have hp : s.Exists (ue, hId) := mem_range.mp hmem
  dsimp only
  split
  · refine Post.foldlM ⟨hi1, hf1⟩ ?_
    rintro s2 - - ⟨hi2, hf2⟩
    exact (hi2.dlAckInfo ((hf2.exists_iff _).mpr hp) _ _).mono fun s3 h => ⟨h.1, hf2.trans h.2⟩
  · exact ⟨hi1, hf1⟩

lemma HarqInv.incrementPucchCounter : Keeps cfg s (.ok (s.incrementPucchCounter p)) := by
  have hok := hi.ok p hp
  exact ⟨hi.setHarq_keep hp rfl rfl { hok with }, Frame.of_update rfl rfl rfl⟩

end

/-! ### Slot indications -/

lemma HarqInv.timeoutLoop (b : ℕ) : ∀ (n : ℕ) {s : HarqRepository}, HarqInv cfg s → (s.harqTimeoutWheel b).length ≤ n →
    ∃ s', timeoutLoop cfg b n s = .ok s' ∧ HarqInv cfg s' ∧ Frame s s' ∧
      ∀ q, (s'.harqs q).status = if q ∈ s.harqTimeoutWheel b then .empty else (s.harqs q).status
  | 0, s, hi, hn => by
    rw [eq_nil_of_length_eq_zero (Nat.le_zero.mp hn)]
    exact ⟨s, rfl, hi, Frame.refl s, fun _ => rfl⟩
  | n + 1, s, hi, hn => by
    rw [HarqRepository.timeoutLoop]
    cases hb : s.harqTimeoutWheel b with
    | nil => exact ⟨s, rfl, hi, Frame.refl s, fun _ => rfl⟩
    | cons p l =>
      -- the front of the bucket exists and is not empty
      obtain ⟨hp, hne, -⟩ := ((hi.wheel b).mem p).mp (by rw [hb]; exact mem_cons_self)
      obtain ⟨s1, h1, hi1, hf1, hempty, hother, hw1, -⟩ := hi.deallocHarq hp
      have hl : s1.harqTimeoutWheel b = l := by rw [hw1, hb, erase_cons_head]
      rw [hb, length_cons] at hn
      obtain ⟨s', h2, hi', hf', hstatus⟩ := HarqInv.timeoutLoop b n hi1 (by rw [hl]; omega)
      refine ⟨s', ?_, hi', hf1.trans hf', fun q => ?_⟩
      · dsimp only
        rw [handleHarqAckTimeout, if_neg hne, h1, ok_bind, h2]
      · rw [hstatus, hl]
        by_cases hq : q = p
        · simp [hq, hempty]
        · simp [hq, hother q hq]

lemma HarqInv.trappedLoop : ∀ (n : ℕ) {s : HarqRepository}, HarqInv cfg s →
    ∃ s', trappedLoop cfg n s = .ok s' ∧ HarqInv cfg s' ∧ Frame s s'
  | 0, s, hi => ⟨s, rfl, hi, Frame.refl s⟩
  | n + 1, s, hi => by
    rw [HarqRepository.trappedLoop]
    cases hl : s.harqPendingRetxList with
    | nil => exact ⟨s, rfl, hi, Frame.refl s⟩
    | cons p l =>
      obtain ⟨hp, hst⟩ := (hi.pending.mem p).mp (by rw [hl]; exact mem_cons_self)
      dsimp only
      rw [if_neg (not_not.mpr hst)]
      split
      · exact ⟨s, rfl, hi, Frame.refl s⟩
      · obtain ⟨s1, h1, hi1, hf1, -⟩ := hi.deallocHarq hp
        obtain ⟨s', h2, hi', hf'⟩ := HarqInv.trappedLoop n hi1
        exact ⟨s', by rw [h1, ok_bind, h2], hi', hf1.trans hf'⟩

/-- **`slot_indication`** -/
theorem HarqInv.slotIndication (hi : HarqInv cfg s) (slotTx : ℕ) :
    ∃ s', s.slotIndication cfg slotTx = .ok s' ∧ HarqInv cfg s' ∧ Frame s s' := by
  have hi0 : HarqInv cfg { s with lastSlInd := slotTx } := { hi with }
  obtain ⟨s1, h1, hi1, hf1, -⟩ := hi0.timeoutLoop (slotTx % cfg.wheelSize) _ le_rfl
  obtain ⟨s', h2, hi', hf'⟩ := HarqInv.trappedLoop s1.harqPendingRetxList.length hi1
  refine ⟨s', ?_, hi', ?_⟩
  · rw [HarqRepository.slotIndication]
    rw [h1, ok_bind, h2]
  · exact ⟨hf'.nofHarqs.trans hf1.nofHarqs, fun p => (hf'.ndi p).trans (hf1.ndi p)⟩

/-! ### Allocations -/

/-- **`alloc_harq`.**  The free id that was put back last is taken, and its NDI changes. -/
theorem HarqInv.allocHarq (hi : HarqInv cfg s) (ue slotTx slotAck maxNofHarqRetxs : ℕ) :
    HarqInv cfg (s.allocHarq cfg ue slotTx slotAck maxNofHarqRetxs).1 ∧
      (s.allocHarq cfg ue slotTx slotAck maxNofHarqRetxs).1.nofHarqs = s.nofHarqs ∧
      ∀ p, ((s.allocHarq cfg ue slotTx slotAck maxNofHarqRetxs).1.harqs p).ndi ≠ (s.harqs p).ndi ↔
        p.1 = ue ∧ (s.freeHarqIds ue).getLast? = some p.2 := by
  rw [HarqRepository.allocHarq]
  cases hlast : (s.freeHarqIds ue).getLast? with
  | none => exact ⟨hi, rfl, fun p => by simp⟩
  | some hId =>
    obtain ⟨hp, he⟩ := (hi.free ue).of_getLast? hlast
    -- an empty process is in no bucket
    have herase : ∀ b, (s.harqTimeoutWheel b).erase (ue, hId) = s.harqTimeoutWheel b :=
      fun b => erase_of_not_mem (hi.not_mem_wheel he b)
    have hmove := fun t (x : HarqProcess) => hi.wheel.move (p := (ue, hId)) (x := x) (t := t)
    simp only [herase] at hmove
    have hidem : ∀ x y : HarqProcess, update (update s.harqs (ue, hId) x) (ue, hId) y =
        update s.harqs (ue, hId) y := fun x y => update_idem _ _ _
    refine ⟨hi.set hp rfl (hidem _ _) ⟨fun _ => ⟨_, rfl⟩, ?_, fun h => ?_⟩ ?_ ?_ ?_, rfl, fun p => ?_⟩
    · simp [setHarq]
    · simp [setHarq] at h
    · exact hi.free_pop hlast (by simp [setHarq])
    · exact hmove _ _ (by simp [setHarq]) rfl
    · exact hi.pending_keep hp (by simp [setHarq, he])
    · by_cases hq : p = (ue, hId)
      · subst hq
        simp [wheelPush, setHarq]
      · have hne : ¬ (p.1 = ue ∧ hId = p.2) := fun h => hq (Prod.ext h.1 h.2.symm)
        simp [wheelPush, setHarq, hq, hne]

/-! ### UEs come and go -/

theorem HarqInv.setUe (hi : HarqInv cfg s) (ue : ℕ) (hold : ∀ p, p.1 = ue → s.Exists p → (s.harqs p).status = .empty)
    (hnew : ∀ p, p.1 = ue → s'.Exists p → (s'.harqs p).status = .empty ∧ (s'.harqs p).Ok)
    (hother : ∀ p, p.1 ≠ ue → (s'.Exists p ↔ s.Exists p) ∧ s'.harqs p = s.harqs p)
    (hfree : Exactly (s'.freeHarqIds ue) fun h => s'.Exists (ue, h))
    (hfree' : ∀ ue', ue' ≠ ue → s'.freeHarqIds ue' = s.freeHarqIds ue')
    (hw : s'.harqTimeoutWheel = s.harqTimeoutWheel) (hl : s'.harqPendingRetxList = s.harqPendingRetxList) :
    HarqInv cfg s' := by
  -- the lists of the processes that are not empty do not change
  have hiff : ∀ (Q : HarqProcess → Prop), (∀ x, Q x → x.status ≠ .empty) → ∀ p,
      s.Exists p ∧ Q (s.harqs p) ↔ s'.Exists p ∧ Q (s'.harqs p) := by
    intro Q hQ p
    by_cases hp : p.1 = ue
    · constructor
      · rintro ⟨h1, h2⟩
        exact absurd (hold p hp h1) (hQ _ h2)
      · rintro ⟨h1, h2⟩
        exact absurd (hnew p hp h1).1 (hQ _ h2)
    · rw [(hother p hp).1, (hother p hp).2]
  constructor
  · intro ue'
    by_cases hue : ue' = ue
    · subst hue
      exact hfree.congr fun h => ⟨fun hex => ⟨hex, (hnew _ rfl hex).1⟩, And.left⟩
    · rw [hfree' ue' hue]
      refine (hi.free ue').congr fun h => ?_
      rw [(hother (ue', h) hue).1, (hother (ue', h) hue).2]
  · intro b
    rw [hw]
    exact (hi.wheel b).congr (hiff (fun x => InBucket cfg x b) fun x h => h.1)
  · rw [hl]
    refine hi.pending.congr (hiff (fun x => x.status = .pendingRetx) fun x h => ?_)
    rw [h]
    exact nofun
  · intro p hp
    by_cases hue : p.1 = ue
    · exact (hnew p hue hp).2
    · rw [(hother p hue).2]
      exact hi.ok p ((hother p hue).1.mp hp)

/-- A process that stays keeps its NDI. -/
def SameNdi (s s' : HarqRepository) : Prop := ∀ p, s.Exists p → s'.Exists p → (s'.harqs p).ndi = (s.harqs p).ndi

lemma Frame.sameNdi (h : Frame s s') : SameNdi s s' := fun p _ _ => h.ndi p

/-- **`reserve_ue_harqs`** -/
theorem HarqInv.addUe (hi : HarqInv cfg s) (ue nofHarqs : ℕ) :
    Post (fun e => ¬ Unexpected e) (fun s' => HarqInv cfg s' ∧ SameNdi s s') (s.addUe cfg ue nofHarqs) := by
  rw [HarqRepository.addUe]
  split
  · exact not_unexpected (by decide) (by decide)
  split
  · exact not_unexpected (by decide) (by decide)
  split
  · exact not_unexpected (by decide) (by decide)
  rename_i hzero
  have hnone : ∀ p : ℕ × ℕ, p.1 = ue → ¬ s.Exists p := by
    intro p hp
    rw [Exists, hp, not_not.mp hzero]
    exact Nat.not_lt_zero _
  constructor
  · refine hi.setUe ue ?_ ?_ ?_ ?_ ?_ rfl rfl
    · intro p hp hex
      exact absurd hex (hnone p hp)
    · intro p hp _
      simp only [hp, if_true]
      exact ⟨rfl, fun h => absurd rfl h, le_rfl, nofun⟩
    · intro p hp
      simp [Exists, update_of_ne hp, if_neg hp]
    · simp only [Exists, update_self]
      exact Exactly.reverse_range nofHarqs
    · intro ue' hne
      simp [update_of_ne hne]
  · intro p hex _
    have hp : p.1 ≠ ue := fun hp => hnone p hp hex
    simp [if_neg hp]

lemma HarqInv.deallocAll (ue : ℕ) : ∀ (l : List ℕ) {s : HarqRepository}, HarqInv cfg s → (∀ h ∈ l, s.Exists (ue, h)) →
    ∃ s', l.foldlM (fun s hId => HarqRepository.deallocHarq cfg s (ue, hId)) s = .ok s' ∧ HarqInv cfg s' ∧ Frame s s' ∧
      ∀ h, h ∈ l ∨ (s.harqs (ue, h)).status = .empty → (s'.harqs (ue, h)).status = .empty
  | [], s, hi, _ => ⟨s, rfl, hi, Frame.refl s, fun h hh => hh.resolve_left not_mem_nil⟩
  | x :: l, s, hi, hl => by
    obtain ⟨s1, h1, hi1, hf1, he1, ho1, -⟩ := hi.deallocHarq (hl x mem_cons_self)
    obtain ⟨s', h2, hi', hf', he'⟩ := HarqInv.deallocAll ue l hi1 fun h hh =>
      (hf1.exists_iff _).mpr (hl h (mem_cons_of_mem x hh))
    refine ⟨s', by rw [foldlM_cons, h1, ok_bind, h2], hi', hf1.trans hf', fun h hh => he' h ?_⟩
    by_cases hx : h = x
    · rw [hx]
      exact .inr he1
    · refine hh.imp (fun hm => (mem_cons.mp hm).resolve_left hx) fun hst => ?_
      rw [ho1 (ue, h) (fun heq => hx (congrArg snd heq))]
      exact hst

/-- **`destroy_ue`** -/
theorem HarqInv.destroyUe (hi : HarqInv cfg s) (ue : ℕ) :
    ∃ s', s.destroyUe cfg ue = .ok s' ∧ HarqInv cfg s' ∧ SameNdi s s' := by
  obtain ⟨s1, h1, hi1, hf1, he1⟩ := hi.deallocAll ue (range (s.nofHarqs ue)) fun h hh => mem_range.mp hh
  refine ⟨{ s1 with
      nofHarqs := update s1.nofHarqs ue 0
      freeHarqIds := update s1.freeHarqIds ue [] },
    by rw [HarqRepository.destroyUe, h1, ok_bind], ?_, fun p _ _ => hf1.ndi p⟩
  refine hi1.setUe ue ?_ ?_ ?_ ?_ ?_ rfl rfl
  · rintro ⟨ue', h⟩ hue hex
    obtain rfl : ue' = ue := hue
    exact he1 h (.inl (mem_range.mpr ((hf1.exists_iff _).mp hex)))
  · intro p hp hex
    simp only [Exists, hp, update_self] at hex
    exact absurd hex (Nat.not_lt_zero _)
  · intro p hp
    simp [Exists, update_of_ne hp]
  · simp only [Exists, update_self]
    exact Exactly.nil fun h => Nat.not_lt_zero h
  · intro ue' hne
    simp [update_of_ne hne]

/-! ### Runs -/

/-- The operation takes a process of the repository for a new transmission. -/
def NewTx (s : HarqRepository) (a : HarqAction) (p : ℕ × ℕ) : Prop :=
  ∃ slotTx slotAck max, a = .alloc p.1 slotTx slotAck max ∧ (s.freeHarqIds p.1).getLast? = some p.2

/-- What is expected of a step. -/
def StepOk (cfg : HarqConfig) (s : HarqRepository) (a : HarqAction) (x : Except Abort HarqRepository) : Prop :=
  Post (fun e => ¬ Unexpected e) (fun s' => HarqInv cfg s' ∧
    ∀ p, s.Exists p → s'.Exists p → ((s'.harqs p).ndi ≠ (s.harqs p).ndi ↔ NewTx s a p)) x

lemma stepOk_of_sameNdi {x : Except Abort HarqRepository} (ha : ∀ p, ¬ NewTx s a p)
    (h : Post (fun e => ¬ Unexpected e) (fun s' => HarqInv cfg s' ∧ SameNdi s s') x) : StepOk cfg s a x :=
  h.mono fun _ h => ⟨h.1, fun p hp hp' => iff_of_false (not_not.mpr (h.2 p hp hp')) (ha p)⟩

lemma Keeps.stepOk {x : Except Abort HarqRepository} (h : Keeps cfg s x) (ha : ∀ p, ¬ NewTx s a p) : StepOk cfg s a x :=
  stepOk_of_sameNdi ha (h.mono fun _ h => ⟨h.1, h.2.sameNdi⟩)

lemma Keeps.withHandle {x : Except Abort HarqRepository} (ha : ∀ q, ¬ NewTx s a q)
    (h : s.Exists p → Keeps cfg s x) : StepOk cfg s a (s.withHandle p x) := by
  rw [HarqRepository.withHandle]
  split
  next hp => exact (h hp).stepOk ha
  · exact not_unexpected (by decide) (by decide)

lemma HarqInv.step (hi : HarqInv cfg s) (a : HarqAction) : StepOk cfg s a (s.step cfg a) := by
  have hno : (∀ ue tx ack m, a ≠ .alloc ue tx ack m) → ∀ p, ¬ NewTx s a p := by
    rintro h p ⟨tx, ack, m, ha, -⟩
    exact h _ _ _ _ ha
  cases a with
  | slotIndication slotTx =>
    obtain ⟨s', h1, h2, h3⟩ := hi.slotIndication slotTx
    show StepOk cfg s _ (s.slotIndication cfg slotTx)
    rw [h1]
    exact Keeps.stepOk ⟨h2, h3⟩ (hno nofun)
  | alloc ue slotTx slotAck max =>
    obtain ⟨h1, -, h3⟩ := hi.allocHarq ue slotTx slotAck max
    refine ⟨h1, fun p _ _ => (h3 p).trans ?_⟩
    constructor
    · rintro ⟨rfl, hl⟩
      exact ⟨_, _, _, rfl, hl⟩
    · rintro ⟨_, _, _, ha, hl⟩
      cases ha
      exact ⟨rfl, hl⟩
  | newRetx p slotTx slotAck => exact Keeps.withHandle (hno nofun) fun hp => hi.handleNewRetx hp slotTx slotAck
  | dlAckInfo p report snr => exact Keeps.withHandle (hno nofun) fun hp => hi.dlAckInfo hp report snr
  | ulCrcInfo p ack => exact Keeps.withHandle (hno nofun) fun hp => hi.ulCrcInfo hp ack
  | uciSchedFailed ue uciSlot => exact (hi.uciSchedFailed ue uciSlot).stepOk (hno nofun)
  | incrementPucchCounter p => exact Keeps.withHandle (hno nofun) fun hp => hi.incrementPucchCounter hp
  | cancelRetxs p => exact Keeps.withHandle (hno nofun) fun hp => hi.cancelRetxs hp
  | reset p => exact Keeps.withHandle (hno nofun) fun hp => hi.keeps_deallocHarq hp
  | addUe ue nofHarqs => exact stepOk_of_sameNdi (hno nofun) (hi.addUe ue nofHarqs)
  | destroyUe ue =>
    obtain ⟨s', h1, h2, h3⟩ := hi.destroyUe ue
    show StepOk cfg s _ (s.destroyUe cfg ue)
    rw [h1]
    exact stepOk_of_sameNdi (hno nofun) ⟨h2, h3⟩

lemma HarqInv.of_reach (hr : Reach (HarqRepository.step cfg) (fun _ _ => True) HarqRepository.init s) : HarqInv cfg s :=
  hr.invariant (HarqInv.init cfg) fun _ a _ hi _ hstep => ((hi.step a).of_ok hstep).1

/-- **The partition of the HARQ processes** by the free ids, the timeout wheel and the pending retransmissions. -/
theorem harq_partition (cfg : HarqConfig) (s : HarqRepository)
    (hr : Reach (HarqRepository.step cfg) (fun _ _ => True) HarqRepository.init s) :
    (∀ ue, (s.freeHarqIds ue).Nodup ∧
      ∀ h, h ∈ s.freeHarqIds ue ↔ h < s.nofHarqs ue ∧ (s.harqs (ue, h)).status = .empty) ∧
    (∀ p, s.Exists p → (s.harqs p).status ≠ .empty → ∃ t, (s.harqs p).slotTimeout = some t ∧
      ∀ b, (s.harqTimeoutWheel b).count p = if b = t % cfg.wheelSize then 1 else 0) ∧
    (∀ p b, p ∈ s.harqTimeoutWheel b → s.Exists p ∧ (s.harqs p).status ≠ .empty) ∧
    (∀ p, s.harqPendingRetxList.count p = if s.Exists p ∧ (s.harqs p).status = .pendingRetx then 1 else 0) ∧
    (∀ p, s.Exists p → (s.harqs p).nofRetxs ≤ (s.harqs p).maxNofHarqRetxs) ∧
    (∀ a s', s.step cfg a = .ok s' → ∀ p, s.Exists p → s'.Exists p →
      ((s'.harqs p).ndi ≠ (s.harqs p).ndi ↔ ∃ slotTx slotAck max,
        a = .alloc p.1 slotTx slotAck max ∧ (s.freeHarqIds p.1).getLast? = some p.2)) ∧
    (∀ a e, s.step cfg a = .error e → e ≠ notLinked ∧ e ≠ wrongState) := by
  have hi := HarqInv.of_reach hr
  refine ⟨fun ue => ⟨(hi.free ue).nodup, (hi.free ue).mem⟩, fun p hp hne => ?_, fun p b hm => ?_,
    fun p => hi.pending.count_eq Iff.rfl, fun p hp => (hi.ok p hp).retxs, fun a s' hs => ((hi.step a).of_ok hs).2, fun a e he => ?_⟩
  · obtain ⟨t, ht⟩ := (hi.ok p hp).timeout hne
    have hin : ∀ b, s.Exists p ∧ InBucket cfg (s.harqs p) b ↔ b = t % cfg.wheelSize := by
      intro b
      simp only [InBucket, ht, some.injEq, exists_eq_left']
      exact ⟨fun h => h.2.2.symm, fun h => ⟨hp, hne, h.symm⟩⟩
    exact ⟨t, ht, fun b => (hi.wheel b).count_eq (hin b)⟩
  · obtain ⟨h1, h2, -⟩ := ((hi.wheel b).mem p).mp hm
    exact ⟨h1, h2⟩
  · have hne := (hi.step a).of_error he
    exact ⟨fun h => hne (.inl h), fun h => hne (.inr h)⟩

/-- A UE with two processes: a transmission is not acknowledged and waits for its retransmission. -/
theorem harq_partition_pending : ∃ s : HarqRepository, (s.harqs (3, 0)).status = .pendingRetx ∧
    s.freeHarqIds 3 = [1] ∧ s.harqPendingRetxList.count (3, 0) = 1 := by
  let cfg : HarqConfig :=
    { maxUes := 4, maxHarqsPerUe := 8, maxAckWaitInSlots := 16, harqRetxTimeout := 100, ntnCsKoffset := 0,
      wheelSize := 64, nofSlots := 10240 }
  obtain ⟨s, hr, hex, hst, hfree⟩ : ∃ s, Reach (step cfg) (fun _ _ => True) init s ∧ s.Exists (3, 0) ∧
      (s.harqs (3, 0)).status = .pendingRetx ∧ s.freeHarqIds 3 = [1] :=
    Reach.exists_run [.slotIndication 5, .addUe 3 2, .alloc 3 5 9 4, .dlAckInfo (3, 0) .nack none] (by decide +kernel)
  exact ⟨s, hst, hfree, ((harq_partition cfg s hr).2.2.2.1 (3, 0)).trans (if_pos ⟨hex, hst⟩)⟩

end HarqRepository

end SrsRan.Sched
