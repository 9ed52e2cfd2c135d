import SrsRan.Exec.StrandInvariant

/-!
# A strand serialises its tasks

The wrapped executor takes every job that it is offered.  Then the tasks of a strand run one at a time and in the order of
their pushes, none is lost and none runs twice, and all of them run.
-/

namespace SrsRan.Exec

open Lib.Run List

namespace Strand

variable {cfg : StrandConfig} {s s' : Strand}

/-- The executor accepts the job. -/
def NoRefusal : StrandAction → Prop
  | .dispatch _ ok => ok = true
  | .work _ ok => ok = true
  | _ => True

instance : DecidablePred NoRefusal := fun a => by
  cases a <;> unfold NoRefusal <;> infer_instance

/-- What holds in addition if no job is refused. -/
structure SerialInv (s : Strand) : Prop where
  runs : ∀ w ∈ s.workers, ∃ m, w.purpose = .run m
  taken : ∀ x ∈ s.taken, x.2 = true
  refused : ∀ t ∈ s.refused, t ∉ s.log

lemma workerStep_run (cfg : StrandConfig) (sh : Shared) {w : Worker} {m : Option ℕ} (hw : w.purpose = .run m) :
    (∀ w' ∈ (workerStep cfg sh w true).2, ∃ m', w'.purpose = .run m') ∧
      ((∀ x ∈ (workerStep cfg sh w true).1.taken, x ∈ sh.taken ∨ x.2 = true ∧ x.1 ∈ sh.queue) ∧
        ∀ t ∈ (workerStep cfg sh w true).1.queue, t ∈ sh.queue) ∧
      (workerStep cfg sh w true).1.refused = sh.refused ∧ (workerStep cfg sh w true).1.log = sh.log := by
  obtain ⟨p, pc⟩ := w
  simp only at hw
  subst hw
  have ht : (∀ x ∈ sh.taken, x ∈ sh.taken ∨ x.2 = true ∧ x.1 ∈ sh.queue) ∧ ∀ t ∈ sh.queue, t ∈ sh.queue :=
    ⟨fun _ hx => .inl hx, fun _ hx => hx⟩
  have henter : ∀ n m' pc, ∀ w' ∈ enter ⟨.run m', pc⟩ n, ∃ m'', w'.purpose = .run m'' := by
    intro n m' pc w' hw'
    unfold enter at hw'
    split at hw' <;> cases hw'
    exact ⟨_, rfl⟩
  have hafter : ∀ n m' pc, ∀ w' ∈ afterCompletion ⟨.run m', pc⟩ n, ∃ m'', w'.purpose = .run m'' := by
    intro n m' pc w' hw'
    unfold afterCompletion at hw'
    split at hw'
    · cases hw'
      exact ⟨_, rfl⟩
    · exact henter n m' pc w' hw'
  have hminus : ∀ n, ∃ m', Purpose.minus (.run m) n = .run m' := by
    intro n
    cases m <;> exact ⟨_, rfl⟩
  unfold workerStep
  cases pc with
  | start =>
    dsimp only
    unfold getQueueSize
    split
    · split
      · exact ⟨fun _ h => (nomatch h), ht, rfl, rfl⟩
      split
      · refine ⟨?_, ht, rfl, rfl⟩
        rintro w' ⟨⟩
        exact ⟨m, rfl⟩
      · exact ⟨henter _ _ _, ht, rfl, rfl⟩
    · exact ⟨henter _ _ _, ht, rfl, rfl⟩
  | locking =>
    dsimp only
    unfold tryUnlock
    split
    · exact ⟨fun _ h => (nomatch h), ht, rfl, rfl⟩
    · exact ⟨henter _ _ _, ht, rfl, rfl⟩
  | popping k left n =>
    cases left with
    | zero =>
      dsimp only
      unfold onTaskCompletion
      obtain ⟨m', hm'⟩ := hminus n
      simp only [hm']
      split
      · refine ⟨?_, ht, rfl, rfl⟩
        rintro w' ⟨⟩
        exact ⟨m', rfl⟩
      · exact ⟨hafter _ _ _, ht, rfl, rfl⟩
    | succ left =>
      dsimp only
      unfold popTask
      cases hq : sh.queue with
      | nil =>
        refine ⟨?_, ⟨fun x hx => .inl hx, fun x hx => hq ▸ hx⟩, rfl, rfl⟩
        rintro w' ⟨⟩
        exact ⟨m, rfl⟩
      | cons t rest =>
        refine ⟨?_, ⟨fun x hx => ?_, fun x hx => mem_cons_of_mem _ hx⟩, rfl, rfl⟩
        · rintro w' ⟨⟩
          exact ⟨m, rfl⟩
        · obtain hx | hx := mem_append.mp hx
          · exact .inl hx
          · rw [mem_singleton.mp hx]
            exact .inr ⟨rfl, mem_cons_self⟩
  | inTask k left n t =>
    refine ⟨?_, ht, rfl, rfl⟩
    rintro w' ⟨⟩
    exact ⟨m, rfl⟩
  | unlocking =>
    dsimp only
    unfold tryUnlock
    split
    · exact ⟨fun _ h => (nomatch h), ht, rfl, rfl⟩
    · exact ⟨hafter _ _ _, ht, rfl, rfl⟩
  | yielding =>
    refine ⟨?_, ht, rfl, rfl⟩
    rintro w' ⟨⟩
    exact ⟨cfg.maxBatch, rfl⟩

lemma workerStep_accepted (cfg : StrandConfig) (sh : Shared) (w : Worker) (ok : Bool) :
    (workerStep cfg sh w ok).1.accepted = sh.accepted := by
  unfold workerStep
  split
  · unfold getQueueSize
    split_ifs <;> rfl
  · unfold tryUnlock
    split_ifs <;> rfl
  · unfold popTask
    split <;> rfl
  · unfold onTaskCompletion
    simp only
    split_ifs <;> rfl
  · rfl
  · unfold tryUnlock
    split_ifs <;> rfl
  · rfl

/-- What a step of a job leaves as it is. -/
structure JobStep (s s' : Strand) : Prop where
  runs : ∀ w ∈ s'.workers, ∃ m, w.purpose = .run m
  pushed : s'.pushed = s.pushed
  acquired : s'.acquired = s.acquired
  accepted : s'.accepted = s.accepted
  refused : s'.refused = s.refused
  log : s'.log = s.log
  queue : ∀ t ∈ s'.queue, t ∈ s.queue
  taken : ∀ x ∈ s'.taken, x ∈ s.taken ∨ x.2 = true ∧ x.1 ∈ s.queue

lemma JobStep.of_step (hall : ∀ w ∈ s.workers, ∃ m, w.purpose = .run m) {i : ℕ}
    (hstep : Strand.step cfg s (.work i true) = .ok s') : JobStep s s' := by
  unfold Strand.step at hstep
  simp only at hstep
  split at hstep
  · cases hstep
  rename_i w hw
  obtain ⟨l1, l2, hws, hset, herase⟩ := split_at hw
  obtain ⟨m, hm⟩ := hall w (mem_of_getElem? hw)
  obtain ⟨h1, ⟨h2, h3⟩, h4, h5⟩ := workerStep_run cfg s.toShared hm
  have hacc := workerStep_accepted cfg s.toShared w true
  have hoth : ∀ w' ∈ l1 ++ l2, ∃ m, w'.purpose = .run m := fun w' hw' => hall w' (by
    rw [hws]
    simp only [mem_append, mem_cons] at hw' ⊢
    tauto)
  split at hstep
  next w' hr =>
    rw [hset] at hstep
    cases hstep
    refine ⟨fun w'' hw'' => ?_, rfl, rfl, hacc, h4, h5, h3, h2⟩
    simp only [mem_append, mem_cons] at hw''
    obtain hw'' | rfl | hw'' := hw''
    · exact hoth w'' (mem_append_left _ hw'')
    · exact h1 w'' hr
    · exact hoth w'' (mem_append_right _ hw'')
  · have hfin : finish (workerStep cfg s.toShared w true).1 w = (workerStep cfg s.toShared w true).1 := by
      rw [finish, hm]
    rw [herase, hfin] at hstep
    cases hstep
    exact ⟨hoth, rfl, rfl, hacc, h4, h5, h3, h2⟩

lemma SerialInv.step (h : SerialInv s) {a : StrandAction} (ha : NoRefusal a)
    (hstep : Strand.step cfg s a = .ok s') : SerialInv s' ∧ (Continues a → s'.log = s.log) := by
  cases a with
  | push t =>
    unfold Strand.step at hstep
    simp only at hstep
    split at hstep <;> cases hstep
    rename_i hfresh
    refine ⟨⟨h.runs, h.taken, fun x hx hmem => ?_⟩, fun hc => absurd rfl (hc t).1⟩
    obtain hmem | hmem := mem_append.mp hmem
    · exact h.refused x hx hmem
    · rw [mem_singleton.mp hmem] at hx
      exact hfresh (.inr hx)
  | full t =>
    unfold Strand.step at hstep
    simp only at hstep
    split at hstep <;> cases hstep
    rename_i hfresh
    refine ⟨⟨h.runs, h.taken, fun x hx hmem => ?_⟩, fun hc => absurd rfl (hc t).2⟩
    obtain hx | hx := mem_append.mp hx
    · exact h.refused x hx hmem
    · rw [mem_singleton.mp hx] at hmem
      exact hfresh (.inl hmem)
  | onNewTask t =>
    unfold Strand.step at hstep
    simp only at hstep
    split at hstep
    · split at hstep <;> cases hstep <;> exact ⟨{ h with }, fun _ => rfl⟩
    · cases hstep
  | dispatch t ok =>
    have hok : ok = true := ha
    subst hok
    unfold Strand.step at hstep
    simp only [if_true] at hstep
    split at hstep <;> cases hstep
    refine ⟨⟨fun w hw => ?_, h.taken, h.refused⟩, fun _ => rfl⟩
    obtain hw | hw := mem_append.mp hw
    · exact h.runs w hw
    · rw [mem_singleton.mp hw]
      exact ⟨_, rfl⟩
  | work i ok =>
    have hok : ok = true := ha
    subst hok
    have hj := JobStep.of_step h.runs hstep
    refine ⟨⟨hj.runs, fun x hx => (hj.taken x hx).elim (h.taken x) And.left, fun x hx hmem => ?_⟩, fun _ => hj.log⟩
    exact h.refused x (hj.refused ▸ hx) (hj.log ▸ hmem)

def inTask (w : Worker) : Bool :=
  match w.pc with
  | .inTask _ _ _ _ => true
  | _ => false

lemma holds_of_inTask {w : Worker} (h : inTask w = true) : w.holds = true := by
  unfold inTask at h
  unfold Worker.holds
  cases hpc : w.pc <;> simp_all

lemma StrandInv.one_inTask (h : StrandInv cfg s) : s.workers.countP inTask ≤ 1 := by
  cases hf : cfg.force with
  | false =>
    have hlen := (h.basic hf).2
    have hle : s.workers.countP inTask ≤ s.workers.length := countP_le_length
    split at hlen <;> omega
  | true =>
    have hcount := (h.force hf).1
    have hle : s.workers.countP inTask ≤ s.workers.countP Worker.holds :=
      countP_mono_left fun w _ hw => holds_of_inTask hw
    split at hcount <;> omega

/-- No call is in progress, and every job is at its start. -/
def Quiet (s : Strand) : Prop := s.pushed = [] ∧ s.acquired = [] ∧ ∀ w ∈ s.workers, w.pc = .start

lemma StrandInv.quiet (h : StrandInv cfg s) (hq : Quiet s) :
    s.count = s.queue.length ∧ s.locked = false ∧ (0 < s.count → s.workers ≠ []) := by
  obtain ⟨hp, ha, hw⟩ := hq
  have hno : ∀ w ∈ s.workers, w.holds = false := fun w hmem => by
    rw [Worker.holds, hw w hmem]
    rfl
  have hbal := h.balance
  rw [sum_popped_of_not_holds hno, hp] at hbal
  cases hf : cfg.force with
  | false =>
    obtain ⟨h1, h2⟩ := h.basic hf
    refine ⟨by simpa using hbal.symm, h1, fun hpos hnil => ?_⟩
    rw [ha, hnil, if_neg (by omega)] at h2
    simp at h2
  | true =>
    obtain ⟨h1, h2⟩ := h.force hf
    have hzero : s.workers.countP Worker.holds = 0 := countP_eq_zero.mpr fun w hmem => by simp [hno w hmem]
    have hl : s.locked = false := by
      cases hlk : s.locked with
      | false => rfl
      | true => rw [hzero, hlk] at h1; simp at h1
    refine ⟨by simpa using hbal.symm, hl, fun hpos hnil => ?_⟩
    have := h2 hpos hl
    rw [ha, hnil] at this
    simp at this

lemma eq_map_of_all {l : List (ℕ × Bool)} (h : ∀ x ∈ l, x.2 = true) : l = (l.map Prod.fst).map fun t => (t, true) := by
  rw [List.map_map]
  conv_lhs => rw [← List.map_id l]
  refine map_congr_left fun x hx => ?_
  exact Prod.ext rfl (h x hx)

/-- **Serialisation.** While the wrapped executor takes every job, at most one task runs, in the order of the pushes,
and the strand comes to rest with all tasks run. -/
theorem strand_serialises (cfg : StrandConfig) (hB : cfg.maxBatch ≠ some 0) (s : Strand)
    (hr : Reach (step cfg) (fun _ a => NoRefusal a) init s) :
    s.workers.countP inTask ≤ 1 ∧
      (s.log = s.taken.map Prod.fst ++ s.queue ∧ s.log.Nodup ∧ (∀ x ∈ s.taken, x.2 = true) ∧
        (∀ t ∈ s.accepted, t ∈ s.log) ∧ ∀ t ∈ s.refused, t ∉ s.log) ∧
      Inevitable (step cfg) (fun _ a => Continues a ∧ NoRefusal a)
        (fun s' => Done s' ∧ s'.taken = s.log.map fun t => (t, true)) s ∧
      (Quiet s → s.count = s.queue.length ∧ (0 < s.count → s.workers ≠ [])) := by
  obtain ⟨hinv, hser⟩ : StrandInv cfg s ∧ SerialInv s := by
    refine hr.invariant (P := fun s => StrandInv cfg s ∧ SerialInv s) ⟨StrandInv.init cfg, ⟨?_, ?_, ?_⟩⟩ fun s a s' hi ha hstep =>
      ⟨(hi.1.step hB hstep).1, (hi.2.step ha hstep).1⟩
    · exact fun _ h => (nomatch h)
    · exact fun _ h => (nomatch h)
    · exact fun _ h => (nomatch h)
  refine ⟨hinv.one_inTask, ⟨hinv.order, hinv.nodup, hser.taken, fun t ht => hinv.logged t (.inr (.inr ht)),
    hser.refused⟩, ?_, fun hq => ⟨(hinv.quiet hq).1, (hinv.quiet hq).2.2⟩⟩
  -- the invariants and the log are kept, and the measure decreases
  refine Inevitable.of_measure (I := fun s' => StrandInv cfg s' ∧ SerialInv s' ∧ s'.log = s.log) measure
    (fun s1 a s2 hi ha hstep => ?_) (fun s' hi => ?_) ⟨hinv, hser, rfl⟩
  · obtain ⟨h1, h2, h3⟩ := hi
    obtain ⟨h4, h5⟩ := h1.step hB hstep
    obtain ⟨h6, h7⟩ := h2.step ha.2 hstep
    exact ⟨⟨h4, h6, (h7 ha.1).trans h3⟩, h5 ha.1⟩
  · obtain ⟨h1, h2, h3⟩ := hi
    obtain hd | ⟨a, s'', ha, hstep⟩ := h1.done_or_enabled
    · refine .inl ⟨hd, ?_⟩
      have hlog : s'.taken.map Prod.fst = s.log := by
        rw [← h3, h1.order, hd.1, append_nil]
      rw [← hlog]
      exact eq_map_of_all h2.taken
    · refine .inr ⟨a, s'', ?_, hstep⟩
      obtain rfl | rfl | rfl := ha
      · exact ⟨fun t => ⟨by simp, by simp⟩, trivial⟩
      · exact ⟨fun t => ⟨by simp, by simp⟩, rfl⟩
      · exact ⟨fun t => ⟨by simp, by simp⟩, rfl⟩

def exampleConfig : StrandConfig where
  force := false
  maxBatch := some 1
  batch_ok := by simp

/-- Two producers, whose tasks run in the order of the pushes. -/
theorem strand_serialises_two_tasks :
    ∃ s, Reach (step exampleConfig) (fun _ a => NoRefusal a) init s ∧ s.log = [1, 2] ∧ s.accepted = [2, 1] ∧
      Inevitable (step exampleConfig) (fun _ a => Continues a ∧ NoRefusal a)
        (fun s' => Done s' ∧ s'.taken = [(1, true), (2, true)]) s := by
  obtain ⟨s, hr, hlog, haccepted⟩ : ∃ s, Reach (step exampleConfig) (fun _ a => NoRefusal a) init s ∧
      s.log = [1, 2] ∧ s.accepted = [2, 1] :=
    Reach.exists_run [.push 1, .push 2, .onNewTask 1, .onNewTask 2, .dispatch 1 true] (by decide +kernel)
  obtain ⟨-, -, h, -⟩ := strand_serialises exampleConfig (by decide) s hr
  rw [hlog] at h
  exact ⟨s, hr, hlog, haccepted, h⟩

/-- The constructor also takes the batch limit 0. -/
def emptyBatchConfig : StrandConfig where
  force := false
  maxBatch := some 0
  batch_ok := by simp

/-- With the batch limit 0, the job of an accepted task takes none and defers another job, for ever: after three steps
the strand is where it was. -/
theorem strand_emptyBatch_livelock : ∃ s, run (step emptyBatchConfig) (fun _ a => decide (NoRefusal a)) init
        [.push 1, .onNewTask 1, .dispatch 1 true] = some s ∧ s.accepted = [1] ∧ s.taken = [] ∧
      run (step emptyBatchConfig) (fun _ a => decide (NoRefusal a)) s
        [.work 0 true, .work 0 true, .work 0 true] = some s := by
  refine ⟨_, rfl, ?_, ?_, ?_⟩ <;> decide

end Strand

end SrsRan.Exec
