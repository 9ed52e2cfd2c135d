import SrsRan.Exec.StrandSerial

/-!
# Refused jobs

When the wrapped executor refuses a job, the caller discards as many tasks from the head of the queue as the counter says,
whichever calls have pushed them.  The results of calls are truthful if a refusal only hits a call that is alone.
-/

namespace SrsRan.Exec

open Lib.Run List

namespace Strand

variable {cfg : StrandConfig} {s s' : Strand} {t : ℕ}

/-- All workers are jobs, and none handles a failed dispatch. -/
def AllRun (s : Strand) : Prop := ∀ w ∈ s.workers, ∃ m, w.purpose = .run m

instance : Decidable (AllRun s) :=
  decidable_of_iff (s.workers.all fun w => match w.purpose with | .run _ => true | .drop _ => false) <| by
    rw [List.all_eq_true]
    refine forall₂_congr fun w _ => ?_
    cases w.purpose with
    | run m => exact ⟨fun _ => ⟨m, rfl⟩, fun _ => rfl⟩
    | drop c => exact ⟨fun h => (nomatch h), fun ⟨_, h⟩ => (nomatch h)⟩

/-- A dispatch is refused only if its call is alone. -/
def RefusedAlone (s : Strand) : StrandAction → Prop
  | .dispatch t false => s.queue = [t] ∧ s.pushed = [] ∧ s.acquired = [t] ∧ s.workers = []
  | .work _ ok => ok = true
  | _ => AllRun s

instance (s : Strand) : (a : StrandAction) → Decidable (RefusedAlone s a)
  | .dispatch t false => inferInstanceAs (Decidable (s.queue = [t] ∧ s.pushed = [] ∧ s.acquired = [t] ∧ s.workers = []))
  | .work _ ok => inferInstanceAs (Decidable (ok = true))
  | .push _ | .full _ | .onNewTask _ | .dispatch _ true => inferInstanceAs (Decidable (AllRun s))

/-- The call whose job was refused is alone in `handle_failed_task_dispatch`. -/
def Failing (t : ℕ) (s : Strand) : Prop :=
  s.pushed = [] ∧ s.acquired = [] ∧ (t ∉ s.accepted ∧ t ∉ s.refused) ∧ ∃ pc, s.workers = [⟨.drop (some t), pc⟩] ∧
    ((s.queue = [t] ∧ s.count = 1 ∧ (pc = .start ∨ ∃ k, pc = .popping k 1 0)) ∨
      (s.queue = [] ∧ (t, false) ∈ s.taken ∧
        ((∃ k, pc = .popping k 0 1 ∧ s.count = 1) ∨ (pc = .unlocking ∧ s.count = 0))))

/-- Which results calls have returned, or are going to return. -/
structure TruthInv (s : Strand) : Prop where
  calls : (s.pushed ++ s.acquired ++ s.accepted).Nodup
  refused : ∀ t ∈ s.refused, t ∉ s.pushed ++ s.acquired ++ s.accepted ∧ t ∉ s.queue ∧ (t, true) ∉ s.taken
  dropped : ∀ t, (t, false) ∈ s.taken → t ∈ s.refused ∨ Failing t s
  phase : AllRun s ∨ ∃ t, Failing t s

lemma not_allRun_of_failing (h : Failing t s) : ¬ AllRun s := by
  obtain ⟨-, -, -, pc, hw, -⟩ := h
  intro hall
  obtain ⟨m, hm⟩ := hall ⟨.drop (some t), pc⟩ (by rw [hw]; simp)
  cases hm

lemma StrandInv.taken_once (h : StrandInv cfg s) {b b' : Bool} (h1 : (t, b) ∈ s.taken) (h2 : (t, b') ∈ s.taken) :
    b = b' := by
  have hnd := h.nodup
  rw [h.order] at hnd
  have hmap : (s.taken.map Prod.fst).Nodup := hnd.of_append_left
  exact congrArg Prod.snd (inj_on_of_nodup_map hmap h1 h2 rfl)

/-- **A step of the failing call.**  It takes its own task from the queue, and then returns false. -/
theorem Failing.work (hinv : StrandInv cfg s) (h : Failing t s) {i : ℕ}
    (hstep : step cfg s (.work i true) = .ok s') :
    s'.accepted = s.accepted ∧ ((Failing t s' ∧ s'.refused = s.refused ∧ ∀ x ∈ s'.taken, x ∈ s.taken ∨ x = (t, false)) ∨
        (s'.workers = [] ∧ s'.queue = [] ∧ s'.pushed = [] ∧ s'.acquired = [] ∧ s'.refused = s.refused ++ [t] ∧
          s'.taken = s.taken ∧ (t, false) ∈ s.taken)) := by
  obtain ⟨hp, ha, hacc, pc, hw, hphase⟩ := h
  have hi : i = 0 := by
    by_contra hne
    unfold step at hstep
    rw [hw] at hstep
    obtain ⟨k, rfl⟩ := Nat.exists_eq_succ_of_ne_zero hne
    cases hstep
  subst hi
  unfold step at hstep
  simp only [hw, getElem?_cons_zero] at hstep
  obtain ⟨hq, hc, rfl | ⟨k, rfl⟩⟩ | ⟨hq, htk, ⟨k, rfl, hc⟩ | ⟨rfl, hc⟩⟩ := hphase
  · -- the call finds its task counted
    have he : enter ⟨.drop (some t), .start⟩ s.count = some ⟨.drop (some t), .popping 1 1 0⟩ := by
      rw [hc]
      rfl
    obtain ⟨b, hstart⟩ : ∃ b, workerStep cfg s.toShared ⟨.drop (some t), .start⟩ true =
        ({ s.toShared with locked := b }, some ⟨.drop (some t), .popping 1 1 0⟩) := by
      simp only [workerStep, getQueueSize]
      cases hf : cfg.force with
      | false =>
        refine ⟨s.locked, ?_⟩
        rw [if_neg Bool.false_ne_true, he]
      | true =>
        have hl := (hinv.force hf).1
        rw [hw] at hl
        have hlk : ¬ s.locked = true := fun hlk => by
          rw [hlk] at hl
          cases hl
        refine ⟨true, ?_⟩
        rw [if_pos rfl, if_neg hlk, if_neg (by omega), he]
    rw [hstart] at hstep
    cases hstep
    exact ⟨rfl, .inl ⟨⟨hp, ha, hacc, _, rfl, .inl ⟨hq, hc, .inr ⟨1, rfl⟩⟩⟩, rfl, fun x hx => .inl hx⟩⟩
  · have hpop : workerStep cfg s.toShared ⟨.drop (some t), .popping k 1 0⟩ true =
        ({ s.toShared with queue := [], taken := s.taken ++ [(t, false)] },
          some ⟨.drop (some t), .popping k 0 1⟩) := by
      simp only [workerStep, popTask, hq]
    rw [hpop] at hstep
    cases hstep
    refine ⟨rfl, .inl ⟨⟨hp, ha, hacc, _, rfl, .inr ⟨rfl, ?_, .inl ⟨k, rfl, hc⟩⟩⟩, rfl, fun x hx => ?_⟩⟩
    · simp
    · obtain hx | hx := mem_append.mp hx
      · exact .inl hx
      · exact .inr (mem_singleton.mp hx)
  · cases hf : cfg.force with
    | true =>
      have hcomp : workerStep cfg s.toShared ⟨.drop (some t), .popping k 0 1⟩ true =
          ({ s.toShared with count := 0 }, some ⟨.drop (some t), .unlocking⟩) := by
        simp only [workerStep, onTaskCompletion, hf, hc, true_and]
        rfl
      rw [hcomp] at hstep
      cases hstep
      exact ⟨rfl, .inl ⟨⟨hp, ha, hacc, _, rfl, .inr ⟨hq, htk, .inr ⟨rfl, rfl⟩⟩⟩, rfl, fun x hx => .inl hx⟩⟩
    | false =>
      have hcomp : workerStep cfg s.toShared ⟨.drop (some t), .popping k 0 1⟩ true =
          ({ s.toShared with count := 0 }, none) := by
        simp only [workerStep, onTaskCompletion, hf, hc, Bool.false_eq_true, false_and, if_false]
        rfl
      rw [hcomp] at hstep
      cases hstep
      exact ⟨rfl, .inr ⟨rfl, hq, hp, ha, rfl, rfl, htk⟩⟩
  · have hun : workerStep cfg s.toShared ⟨.drop (some t), .unlocking⟩ true =
        ({ s.toShared with locked := false }, none) := by
      simp only [workerStep, tryUnlock, hc, if_true]
    rw [hun] at hstep
    cases hstep
    exact ⟨rfl, .inr ⟨rfl, hq, hp, ha, rfl, rfl, htk⟩⟩

lemma TruthInv.returned (hinv : StrandInv cfg s) (h : TruthInv s) (hf : Failing t s) (h1 : s'.accepted = s.accepted)
    (h2 : s'.workers = []) (h3 : s'.queue = []) (h4 : s'.pushed = []) (h5 : s'.acquired = [])
    (h6 : s'.refused = s.refused ++ [t]) (h7 : s'.taken = s.taken) (h8 : (t, false) ∈ s.taken) : TruthInv s' := by
  refine ⟨?_, fun x hx => ?_, fun x hx => ?_, .inl fun w hw => ?_⟩
  · rw [h4, h5, h1]
    exact h.calls.of_append_right
  · rw [h4, h5, h1, h3, h7]
    rw [h6] at hx
    obtain hx | hx := mem_append.mp hx
    · obtain ⟨e1, -, e3⟩ := h.refused x hx
      exact ⟨fun hm => e1 (mem_append_right _ hm), List.not_mem_nil, e3⟩
    · obtain rfl := mem_singleton.mp hx
      exact ⟨hf.2.2.1.1, List.not_mem_nil, fun ht => by cases hinv.taken_once ht h8⟩
  · rw [h7] at hx
    rw [h6]
    obtain hx | hx := h.dropped x hx
    · exact .inl (mem_append_left _ hx)
    · -- only one call is failing
      obtain ⟨-, -, -, pc, hw, -⟩ := hf
      obtain ⟨-, -, -, pc', hw', -⟩ := hx
      rw [hw] at hw'
      cases hw'
      exact .inl (mem_append_right _ (mem_singleton.mpr rfl))
  · rw [h2] at hw
    cases hw

section

variable (h : TruthInv s)
include h

lemma TruthInv.failing (hf : Failing t s) (hf' : Failing t s') (h1 : s'.accepted = s.accepted)
    (h2 : s'.refused = s.refused) (h3 : ∀ x ∈ s'.taken, x ∈ s.taken ∨ x = (t, false)) : TruthInv s' := by
  have hone : ∀ x, Failing x s → x = t := by
    rintro x ⟨-, -, -, pc, hw, -⟩
    obtain ⟨-, -, -, pc', hw', -⟩ := hf
    rw [hw] at hw'
    cases hw'
    rfl
  refine ⟨?_, fun x hx => ?_, fun x hx => ?_, .inr ⟨t, hf'⟩⟩
  · rw [hf'.1, hf'.2.1, h1]
    exact h.calls.of_append_right
  · rw [h2] at hx
    have hne : x ≠ t := fun heq => hf.2.2.1.2 (heq ▸ hx)
    obtain ⟨e1, -, e3⟩ := h.refused x hx
    rw [hf'.1, hf'.2.1, h1]
    refine ⟨fun hm => e1 (mem_append_right _ hm), fun hq => ?_, fun ht => ?_⟩
    · obtain ⟨-, -, -, pc, -, ⟨hq', -⟩ | ⟨hq', -⟩⟩ := hf'
      · rw [hq'] at hq
        exact hne (mem_singleton.mp hq)
      · rw [hq'] at hq
        cases hq
    · obtain ht | ht := h3 _ ht
      · exact e3 ht
      · cases ht
  · obtain hx | hx := h3 _ hx
    · obtain hx | hx := h.dropped x hx
      · exact .inl (h2 ▸ hx)
      · exact .inr (hone x hx ▸ hf')
    · cases hx
      exact .inr hf'

lemma TruthInv.dropped_refused (hall : AllRun s) {x : ℕ} (hx : (x, false) ∈ s.taken) : x ∈ s.refused :=
  (h.dropped x hx).resolve_right fun hf => not_allRun_of_failing hf hall

lemma TruthInv.work_run (hall : AllRun s) {i : ℕ}
    (hstep : step cfg s (.work i true) = .ok s') : TruthInv s' ∧ s'.accepted = s.accepted := by
  have hj := JobStep.of_step hall hstep
  refine ⟨⟨?_, fun x hx => ?_, fun x hx => ?_, .inl hj.runs⟩, hj.accepted⟩
  · rw [hj.pushed, hj.acquired, hj.accepted]
    exact h.calls
  · rw [hj.refused] at hx
    obtain ⟨f1, f2, f3⟩ := h.refused x hx
    rw [hj.pushed, hj.acquired, hj.accepted]
    refine ⟨f1, fun hq => f2 (hj.queue x hq), fun ht => ?_⟩
    obtain ht | ht := hj.taken _ ht
    · exact f3 ht
    · exact f2 ht.2
  · obtain hx | hx := hj.taken _ hx
    · rw [hj.refused]
      exact .inl (h.dropped_refused hall hx)
    · cases hx.1

lemma TruthInv.of_perm (hall : AllRun s) (hall' : AllRun s')
    (hperm : (s'.pushed ++ s'.acquired ++ s'.accepted).Perm (s.pushed ++ s.acquired ++ s.accepted))
    (hq : s'.queue = s.queue) (ht : s'.taken = s.taken) (hr : s'.refused = s.refused) : TruthInv s' where
  calls := hperm.nodup_iff.mpr h.calls
  refused x hx := by
    rw [hperm.mem_iff, hq, ht]
    exact h.refused x (hr ▸ hx)
  dropped x hx := by
    rw [hr]
    exact .inl (h.dropped_refused hall (ht ▸ hx))
  phase := .inl hall'

lemma TruthInv.push (hinv : StrandInv cfg s) (hall : AllRun s)
    (hstep : step cfg s (.push t) = .ok s') : TruthInv s' ∧ ∀ x ∈ s.accepted, x ∈ s'.accepted := by
  unfold step at hstep
  simp only at hstep
  split at hstep <;> cases hstep
  rename_i hfresh
  have hlog : t ∉ s.pushed ++ s.acquired ++ s.accepted := fun hm => hfresh (.inl (hinv.logged t (by
    simp only [mem_append] at hm
    tauto)))
  have hperm : (s.pushed ++ [t] ++ s.acquired ++ s.accepted).Perm
      (t :: (s.pushed ++ s.acquired ++ s.accepted)) := by
    simp only [append_assoc, singleton_append]
    exact perm_middle
  refine ⟨⟨hperm.nodup_iff.mpr (nodup_cons.mpr ⟨hlog, h.calls⟩), fun x hx => ?_,
    fun x hx => .inl (h.dropped_refused hall hx), .inl hall⟩, fun _ hx => hx⟩
  have hne : x ≠ t := fun heq => hfresh (.inr (heq ▸ hx))
  obtain ⟨f1, f2, f3⟩ := h.refused x hx
  refine ⟨fun hm => ?_, fun hm => ?_, f3⟩
  · obtain heq | hm := mem_cons.mp (hperm.mem_iff.mp hm)
    · exact hne heq
    · exact f1 hm
  · obtain hm | hm := mem_append.mp hm
    · exact f2 hm
    · exact hne (mem_singleton.mp hm)

lemma TruthInv.full (hinv : StrandInv cfg s) (hall : AllRun s)
    (hstep : step cfg s (.full t) = .ok s') : TruthInv s' ∧ ∀ x ∈ s.accepted, x ∈ s'.accepted := by
  unfold step at hstep
  simp only at hstep
  split at hstep <;> cases hstep
  rename_i hfresh
  refine ⟨⟨h.calls, fun x hx => ?_, fun x hx => .inl (mem_append_left _ (h.dropped_refused hall hx)),
    .inl hall⟩, fun _ hx => hx⟩
  obtain hx | hx := mem_append.mp hx
  · exact h.refused x hx
  · rw [mem_singleton.mp hx]
    have hlog : t ∉ s.taken.map Prod.fst ++ s.queue := fun hm => hfresh (.inl (hinv.order ▸ hm))
    refine ⟨fun hm => hfresh (.inl (hinv.logged t (by
      simp only [mem_append] at hm
      tauto))), fun hm => hlog (mem_append_right _ hm), fun hm => hlog (mem_append_left _ ?_)⟩
    exact mem_map_of_mem hm

lemma TruthInv.onNewTask (hall : AllRun s)
    (hstep : step cfg s (.onNewTask t) = .ok s') : TruthInv s' ∧ ∀ x ∈ s.accepted, x ∈ s'.accepted := by
  unfold step at hstep
  simp only at hstep
  split at hstep
  next ht =>
    have hp := (perm_cons_erase ht).symm
    split at hstep
    · cases hstep
      refine ⟨h.of_perm hall hall ?_ rfl rfl rfl, fun _ hx => hx⟩
      simp only [append_assoc, singleton_append]
      refine ((perm_middle.append_left _).trans perm_middle).trans ?_
      exact hp.append_right (s.acquired ++ s.accepted)
    · cases hstep
      refine ⟨h.of_perm hall hall ?_ rfl rfl rfl, fun _ hx => mem_append_left _ hx⟩
      simp only [← append_assoc]
      refine (perm_append_singleton t _).trans ?_
      simp only [append_assoc]
      exact hp.append_right (s.acquired ++ s.accepted)
  · cases hstep

lemma TruthInv.dispatched (hall : AllRun s)
    (hstep : step cfg s (.dispatch t true) = .ok s') : TruthInv s' ∧ ∀ x ∈ s.accepted, x ∈ s'.accepted := by
  unfold step at hstep
  simp only at hstep
  split at hstep
  next ht =>
    rw [if_pos trivial] at hstep
    cases hstep
    refine ⟨h.of_perm hall (fun w hw => ?_) ?_ rfl rfl rfl, fun _ hx => mem_append_left _ hx⟩
    · obtain hw | hw := mem_append.mp hw
      · exact hall w hw
      · rw [mem_singleton.mp hw]
        exact ⟨_, rfl⟩
    · have hp := (perm_cons_erase ht).symm
      simp only [append_assoc]
      refine List.Perm.append_left _ ?_
      simp only [← append_assoc]
      refine (perm_append_singleton t _).trans ?_
      exact hp.append_right s.accepted
  · cases hstep

lemma TruthInv.notDispatched (hinv : StrandInv cfg s) (hq : s.queue = [t]) (hp : s.pushed = [])
    (hac : s.acquired = [t]) (hw : s.workers = []) (hstep : step cfg s (.dispatch t false) = .ok s') :
    TruthInv s' ∧ ∀ x ∈ s.accepted, x ∈ s'.accepted := by
  unfold step at hstep
  simp only at hstep
  split at hstep
  · rw [if_neg (by simp)] at hstep
    cases hstep
    have hcalls := h.calls
    rw [hp, hac] at hcalls
    have hbal := hinv.balance
    rw [hq, hp, hw] at hbal
    have hcount : s.count = 1 := by simpa using hbal.symm
    have hall : AllRun s := fun w hmem => by
      rw [hw] at hmem
      cases hmem
    have hfail : Failing t
        { s with acquired := s.acquired.erase t, workers := s.workers ++ [⟨.drop (some t), .start⟩] } := by
      refine ⟨hp, by simp [hac], ⟨?_, fun hr => ?_⟩, .start, by simp [hw], .inl ⟨hq, hcount, .inl rfl⟩⟩
      · simpa using (nodup_cons.mp hcalls).1
      · exact (h.refused t hr).1 (by simp [hac])
    refine ⟨⟨?_, fun x hx => ?_, fun x hx => .inl (h.dropped_refused hall hx), .inr ⟨t, hfail⟩⟩, fun _ hx => hx⟩
    · have hnd : s.accepted.Nodup := h.calls.of_append_right
      simpa [hp, hac] using hnd
    · obtain ⟨f1, f2, f3⟩ := h.refused x hx
      refine ⟨fun hm => f1 ?_, f2, f3⟩
      have hm' : x ∈ s.accepted := by simpa [hp, hac] using hm
      exact mem_append_right _ hm'
  · cases hstep

end

lemma TruthInv.step (hinv : StrandInv cfg s) (h : TruthInv s) {a : StrandAction} (ha : RefusedAlone s a)
    (hstep : step cfg s a = .ok s') : TruthInv s' ∧ ∀ x ∈ s.accepted, x ∈ s'.accepted := by
  cases a with
  | push t => exact h.push hinv ha hstep
  | full t => exact h.full hinv ha hstep
  | onNewTask t => exact h.onNewTask ha hstep
  | dispatch t ok =>
    cases ok with
    | true => exact h.dispatched ha hstep
    | false =>
      obtain ⟨hq, hp, hac, hw⟩ : s.queue = [t] ∧ s.pushed = [] ∧ s.acquired = [t] ∧ s.workers = [] := ha
      exact h.notDispatched hinv hq hp hac hw hstep
  | work i ok =>
    have hok : ok = true := ha
    subst hok
    obtain hall | ⟨t, hf⟩ := h.phase
    · obtain ⟨h1, h2⟩ := h.work_run hall hstep
      exact ⟨h1, fun x hx => h2 ▸ hx⟩
    · obtain ⟨h1, ⟨h2, h3, h4⟩ | ⟨h2, h3, h4, h5, h6, h7, h8⟩⟩ := hf.work hinv hstep
      · exact ⟨h.failing hf h2 h1 h3 h4, fun x hx => h1 ▸ hx⟩
      · exact ⟨h.returned hinv hf h1 h2 h3 h4 h5 h6 h7 h8, fun x hx => h1 ▸ hx⟩

lemma TruthInv.init : TruthInv init where
  calls := nodup_nil
  refused _ h := by cases h
  dropped _ h := by cases h
  phase := .inl fun _ h => (nomatch h)

lemma TruthInv.not_dropped (h : TruthInv s) (ht : t ∈ s.accepted) : (t, false) ∉ s.taken := fun hd => by
  obtain hr | hf := h.dropped t hd
  · exact (h.refused t hr).1 (mem_append_right _ ht)
  · exact hf.2.2.1.1 ht

lemma StrandInv.locked_holds (h : StrandInv cfg s) (hl : s.locked = true) : ∃ w ∈ s.workers, w.holds = true := by
  cases hf : cfg.force with
  | false =>
    have h1 := (h.basic hf).1
    rw [hl] at h1
    cases h1
  | true =>
    have h1 := (h.force hf).1
    rw [hl, if_pos rfl] at h1
    exact countP_pos_iff.mp (by omega)

lemma StrandInv.run_once (h : StrandInv cfg s) (ht : TruthInv s) (hd : Done s) (ha : t ∈ s.accepted) :
    s.taken.count (t, true) = 1 := by
  have hlog : t ∈ s.taken.map Prod.fst := by
    have hm := h.logged t (.inr (.inr ha))
    rwa [h.order, hd.1, append_nil] at hm
  have hnd : s.taken.Nodup := by
    have hn := h.nodup
    rw [h.order] at hn
    exact hn.of_append_left.of_map
  obtain ⟨⟨t', b⟩, hx, rfl⟩ := mem_map.mp hlog
  cases b with
  | false => exact absurd hx (ht.not_dropped ha)
  | true => exact count_eq_one_of_mem hnd hx

/-- **The results of calls.** If refusals only hit calls that are alone, a task is run exactly once iff its call
returned true. -/
theorem strand_truthful (cfg : StrandConfig) (hB : cfg.maxBatch ≠ some 0) (s : Strand)
    (hr : Reach (step cfg) RefusedAlone init s) :
    ((∀ t ∈ s.accepted, (t, false) ∉ s.taken) ∧
        Inevitable (step cfg) (fun s a => Continues a ∧ RefusedAlone s a)
          (fun s' => Done s' ∧ ∀ t ∈ s.accepted, s'.taken.count (t, true) = 1) s) ∧
      (∀ t ∈ s.refused, t ∉ s.queue ∧ (t, true) ∉ s.taken) ∧
      (Quiet s → s.count = s.queue.length ∧ s.locked = false) ∧
      (s.locked = true → ∃ w ∈ s.workers, w.holds = true) := by
  obtain ⟨hinv, htru⟩ : StrandInv cfg s ∧ TruthInv s :=
    hr.invariant (P := fun s => StrandInv cfg s ∧ TruthInv s) ⟨StrandInv.init cfg, TruthInv.init⟩
      fun s a s' hi ha hstep => ⟨(hi.1.step hB hstep).1, (hi.2.step hi.1 ha hstep).1⟩
  refine ⟨⟨fun t ht => htru.not_dropped ht, ?_⟩, fun t ht => (htru.refused t ht).2,
    fun hq => ⟨(hinv.quiet hq).1, (hinv.quiet hq).2.1⟩, hinv.locked_holds⟩
  refine Inevitable.of_measure
    (I := fun s' => StrandInv cfg s' ∧ TruthInv s' ∧ ∀ t ∈ s.accepted, t ∈ s'.accepted) measure
    (fun s1 a s2 hi ha hstep => ?_) (fun s' hi => ?_) ⟨hinv, htru, fun _ ht => ht⟩
  · obtain ⟨h1, h2, h3⟩ := hi
    obtain ⟨h4, h5⟩ := h1.step hB hstep
    obtain ⟨h6, h7⟩ := h2.step h1 ha.2 hstep
    exact ⟨⟨h4, h6, fun t ht => h7 t (h3 t ht)⟩, h5 ha.1⟩
  · obtain ⟨h1, h2, h3⟩ := hi
    obtain hd | ⟨a, s'', ha, hstep⟩ := h1.done_or_enabled
    · exact .inl ⟨hd, fun t ht => h1.run_once h2 hd (h3 t ht)⟩
    · refine .inr ⟨a, s'', ?_, hstep⟩
      obtain hall | ⟨t, hf⟩ := h2.phase
      · obtain rfl | rfl | rfl := ha
        · exact ⟨fun t => ⟨by simp, by simp⟩, hall⟩
        · exact ⟨fun t => ⟨by simp, by simp⟩, hall⟩
        · exact ⟨fun t => ⟨by simp, by simp⟩, rfl⟩
      · -- the failing call is alone, so it is the one that can go on
        obtain rfl | rfl | rfl := ha
        · unfold step at hstep
          simp [hf.1] at hstep
        · unfold Strand.step at hstep
          simp [hf.2.1] at hstep
        · exact ⟨fun t => ⟨by simp, by simp⟩, rfl⟩

theorem strand_truthful_after_refusal :
    ∃ s, Reach (step exampleConfig) RefusedAlone init s ∧ s.refused = [1] ∧ s.accepted = [2] ∧
      (∀ t ∈ s.accepted, (t, false) ∉ s.taken) ∧ ∀ t ∈ s.refused, t ∉ s.queue ∧ (t, true) ∉ s.taken := by
  obtain ⟨s, hr, hrefused, haccepted⟩ : ∃ s, Reach (step exampleConfig) RefusedAlone init s ∧
      s.refused = [1] ∧ s.accepted = [2] :=
    Reach.exists_run [.push 1, .onNewTask 1, .dispatch 1 false, .work 0 true, .work 0 true, .work 0 true,
      .push 2, .onNewTask 2, .dispatch 2 true] (by decide +kernel)
  obtain ⟨⟨h1, -⟩, h2, -, -⟩ := strand_truthful exampleConfig (by decide) s hr
  exact ⟨s, hr, hrefused, haccepted, h1, h2⟩

def unlimitedConfig (force : Bool) : StrandConfig where
  force := force
  maxBatch := none
  batch_ok := by simp

/-- The call of 1 is refused and discards what is counted, though 2 is the head of the queue. -/
def refusalActions (force : Bool) : List StrandAction :=
  [.push 2, .push 1, .onNewTask 1, .dispatch 1 false, .work 0 true, .work 0 true, .work 0 true] ++
    (if force then [.work 0 true] else []) ++ [.onNewTask 2, .dispatch 2 true, .work 0 true, .work 0 true]

/-- The call of 2 returns true although its task was discarded, and its job runs the task 1, whose call returned false. -/
theorem strand_drops_accepted_task :
    (∃ s, run (step (unlimitedConfig false)) (fun _ _ => true) init (refusalActions false) = some s ∧
        s.accepted = [2] ∧ s.refused = [1] ∧ s.taken = [(2, false), (1, true)]) ∧
      ∃ s, run (step (unlimitedConfig true)) (fun _ _ => true) init (refusalActions true) = some s ∧
        s.accepted = [2] ∧ s.refused = [1] ∧ s.taken = [(2, false), (1, true)] := by
  refine ⟨⟨_, rfl, ?_, ?_, ?_⟩, _, rfl, ?_, ?_, ?_⟩ <;> decide

end Strand

end SrsRan.Exec
