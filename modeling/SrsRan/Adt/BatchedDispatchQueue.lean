import SrsRan.Lib.Run
import Mathlib.Algebra.Order.Group.Multiset
import Mathlib.Tactic.Abel

/-!
# The batched dispatch queue

`batched_dispatch_queue` as threads that interleave at their accesses to the queue and to `job_count`.  The executor runs the
jobs that the producers dispatch, one at a time, and a running job may dispatch the next one.

The queue is a FIFO of bounded size.  The executor takes every job, the queue is not stopped, and the counter has 32 bits.
-/

namespace SrsRan.Adt

open Lib.Run List Nat

/-- The arguments of the constructor. -/
structure DispatchQueueConfig where
  queueSize : ℕ
  batchMaxSize : ℕ
  queueSize_lt : queueSize < 2 ^ 32
  batchMaxSize_lt : batchMaxSize < 2 ^ 32
  batchMaxSize_pos : 0 < batchMaxSize

/-- Where a job is in `handle_enqueued_values`. -/
inductive DequeuePc where
  /-- before the load of the counter -/
  | start
  /-- in a round of pops, of which `runCount` out of `maxCount` are done -/
  | popping (maxPops maxCount runCount : ℕ)
  /-- in the callback; the subtraction left `queueSize` values in the counter -/
  | calling (queueSize maxPops runCount : ℕ)
  /-- before the dispatch of the next job -/
  | yielding
deriving DecidableEq

/-- A queue with its threads, for values that carry the number of their producer. -/
structure DispatchQueue (α : Type) where
  queue : List (ℕ × α)
  jobCount : ℕ
  batchedValues : List (ℕ × α)
  /-- calls that have pushed their value and have not counted it -/
  pushed : List (ℕ × α)
  /-- calls that have counted their value and have not dispatched the job -/
  acquired : List (ℕ × α)
  /-- jobs that wait in the executor -/
  dispatched : ℕ
  running : Option DequeuePc
  /-- history: the values in the order in which they entered the queue -/
  log : List (ℕ × α)
  /-- history: the values whose call returned true -/
  accepted : List (ℕ × α)
  /-- history: the values that were passed to the callback -/
  delivered : List (ℕ × α)
deriving DecidableEq

/-- The steps of producers and jobs. -/
inductive DispatchQueueAction (α : Type) where
  | push (producer : ℕ) (v : α)
  | count (i : ℕ)
  | dispatch (i : ℕ)
  | start
  | work
deriving DecidableEq

inductive DispatchQueueFault where
  | notEnabled
deriving DecidableEq

namespace DispatchQueue

variable {α : Type} (cfg : DispatchQueueConfig)

def init : DispatchQueue α where
  queue := []
  jobCount := 0
  batchedValues := []
  pushed := []
  acquired := []
  dispatched := 0
  running := none
  log := []
  accepted := []
  delivered := []

def busy (s : DispatchQueue α) (producer : ℕ) : Bool := (s.pushed ++ s.acquired).any (·.1 == producer)

def whileQueueSize (s : DispatchQueue α) (queueSize maxPops : ℕ) : DispatchQueue α :=
  if 0 < queueSize then { s with running := some (.popping maxPops (min queueSize maxPops) 0) }
  else { s with running := none }

def pop (s : DispatchQueue α) (maxPops maxCount runCount : ℕ) : DispatchQueue α :=
  match s.queue with
  | x :: rest =>
    { s with
      queue := rest
      batchedValues := s.batchedValues ++ [x]
      running := some (.popping maxPops maxCount (runCount + 1)) }
  | [] => { s with running := some (.popping maxPops maxCount maxCount) }

def fetchSub (s : DispatchQueue α) (maxPops runCount : ℕ) : DispatchQueue α :=
  let jobCount := (s.jobCount + (2 ^ 32 - runCount)) % 2 ^ 32
  { s with jobCount, running := some (.calling jobCount maxPops runCount) }

def callback (s : DispatchQueue α) (queueSize maxPops runCount : ℕ) : DispatchQueue α :=
  let s := { s with delivered := s.delivered ++ s.batchedValues, batchedValues := [] }
  let maxPops := maxPops - runCount
  if 0 < queueSize ∧ maxPops = 0 then { s with running := some .yielding } else s.whileQueueSize queueSize maxPops

def work (s : DispatchQueue α) : DequeuePc → DispatchQueue α
  | .start => s.whileQueueSize s.jobCount cfg.batchMaxSize
  | .popping maxPops maxCount runCount =>
    if runCount ≠ maxCount then s.pop maxPops maxCount runCount else s.fetchSub maxPops runCount
  | .calling queueSize maxPops runCount => s.callback queueSize maxPops runCount
  | .yielding => { s with dispatched := s.dispatched + 1, running := none }

def step (s : DispatchQueue α) : DispatchQueueAction α → Except DispatchQueueFault (DispatchQueue α)
  | .push producer v =>
    if s.busy producer then .error .notEnabled
    else if s.queue.length < cfg.queueSize then
      .ok { s with
        queue := s.queue ++ [(producer, v)], pushed := s.pushed ++ [(producer, v)], log := s.log ++ [(producer, v)] }
    -- the queue is full, and the call returns false
    else .ok s
  | .count i =>
    match s.pushed[i]? with
    | none => .error .notEnabled
    | some call =>
      let pushed := s.pushed.eraseIdx i
      let jobCount := (s.jobCount + 1) % 2 ^ 32
      if s.jobCount = 0 then .ok { s with pushed, jobCount, acquired := s.acquired ++ [call] }
      else .ok { s with pushed, jobCount, accepted := s.accepted ++ [call] }
  | .dispatch i =>
    match s.acquired[i]? with
    | none => .error .notEnabled
    | some call =>
      .ok { s with
        acquired := s.acquired.eraseIdx i, dispatched := s.dispatched + 1, accepted := s.accepted ++ [call] }
  | .start =>
    if s.running = none ∧ 0 < s.dispatched then
      .ok { s with dispatched := s.dispatched - 1, running := some .start }
    else .error .notEnabled
  | .work =>
    match s.running with
    | none => .error .notEnabled
    | some pc => .ok (s.work cfg pc)

/-! ### The invariant -/

open DispatchQueue (step)

/-- The tasks popped and not yet subtracted. -/
def popped (s : DispatchQueue α) : ℕ :=
  match s.running with
  | some (.popping _ _ runCount) => runCount
  | _ => 0

/-- The values counted and not subtracted, which the 32 bits stand for. -/
def counted (s : DispatchQueue α) : ℕ := s.queue.length + s.popped - s.pushed.length

/-- 1 while a job runs that will look at the counter again or dispatch a job. -/
def active (s : DispatchQueue α) : ℕ :=
  match s.running with
  | none => 0
  | some (.calling queueSize _ _) => if queueSize = 0 then 0 else 1
  | some _ => 1

/-- What a job has popped and counted so far. -/
def JobOk (cfg : DispatchQueueConfig) (counted : ℕ) (batched : List (ℕ × α)) : Option DequeuePc → Prop
  | some (.popping maxPops maxCount runCount) =>
    batched.length = runCount ∧ runCount ≤ maxCount ∧ 0 < maxCount ∧ maxCount ≤ maxPops ∧ maxCount ≤ counted ∧
      maxCount ≤ cfg.queueSize ∧ maxPops ≤ cfg.batchMaxSize
  | some (.calling queueSize maxPops runCount) =>
    batched.length = runCount ∧ runCount ≤ maxPops ∧ maxPops ≤ cfg.batchMaxSize ∧ queueSize ≤ counted ∧
      queueSize ≤ cfg.queueSize
  | _ => batched = []

/-- What all reachable states satisfy. -/
structure Inv (s : DispatchQueue α) : Prop where
  order : s.delivered ++ s.batchedValues ++ s.queue = s.log
  calls : (s.accepted + s.pushed + s.acquired : Multiset (ℕ × α)) = s.log
  size : s.queue.length ≤ cfg.queueSize
  pushed_le : s.pushed.length ≤ s.queue.length + s.popped
  jobCount : s.jobCount = s.counted % 2 ^ 32
  job : JobOk cfg s.counted s.batchedValues s.running
  /-- exactly one call or job is in charge while values are counted -/
  charge : s.acquired.length + s.dispatched + s.active = if s.counted = 0 then 0 else 1

/-- Falls with every step if no producer pushes. -/
def measure (s : DispatchQueue α) : ℕ :=
  8 * s.pushed.length + 7 * s.acquired.length + 6 * s.dispatched + 10 * s.queue.length + match s.running with
    | none => 0
    | some .start => 5
    | some (.popping _ _ runCount) => if runCount = 0 then 4 else 12
    | some (.calling _ _ _) => 11
    | some .yielding => 7

lemma Inv.init : (init : DispatchQueue α).Inv cfg where
  order := rfl
  calls := rfl
  size := Nat.zero_le _
  pushed_le := le_rfl
  jobCount := rfl
  job := rfl
  charge := rfl

variable {cfg} {s s' : DispatchQueue α}

/-! ### The steps of the producers -/

lemma Inv.push (h : s.Inv cfg) (x : ℕ × α) (hlt : s.queue.length < cfg.queueSize) :
    Inv cfg { s with queue := s.queue ++ [x], pushed := s.pushed ++ [x], log := s.log ++ [x] } := by
  have hcounted : counted { s with queue := s.queue ++ [x], pushed := s.pushed ++ [x], log := s.log ++ [x] } =
      s.counted := by
    simp only [counted, popped, length_append, length_singleton]
    omega
  refine ⟨?_, ?_, ?_, ?_, ?_, ?_, ?_⟩
  · rw [← h.order]
    simp
  · simp only [← Multiset.coe_add, ← h.calls]
    abel
  · simpa using succ_le_of_lt hlt
  · have := h.pushed_le
    simp only [popped, length_append, length_singleton] at this ⊢
    omega
  · rw [hcounted]
    exact h.jobCount
  · rw [hcounted]
    exact h.job
  · rw [hcounted]
    exact h.charge

lemma Inv.popped_le (h : s.Inv cfg) : s.popped ≤ min cfg.queueSize cfg.batchMaxSize := by
  have hjob := h.job
  unfold popped
  split
  next hr =>
    rw [hr] at hjob
    obtain ⟨h1, h2, h3, h4, h5, h6, h7⟩ := hjob
    omega
  · exact Nat.zero_le _

lemma Inv.jobCount_eq (h : s.Inv cfg) (hcfg : cfg.queueSize + min cfg.queueSize cfg.batchMaxSize ≤ 2 ^ 32)
    (hpos : 0 < s.pushed.length) : s.jobCount = s.counted := by
  have hsize := h.size
  have hpopped := h.popped_le
  rw [h.jobCount, mod_eq_of_lt]
  unfold counted
  omega

lemma JobOk.mono {n m : ℕ} {batched : List (ℕ × α)} {r : Option DequeuePc} (h : JobOk cfg n batched r) (hle : n ≤ m) :
    JobOk cfg m batched r := by
  match r, h with
  | some (.popping _ _ _), ⟨h1, h2, h3, h4, h5, h6, h7⟩ => exact ⟨h1, h2, h3, h4, h5.trans hle, h6, h7⟩
  | some (.calling _ _ _), ⟨h1, h2, h3, h4, h5⟩ => exact ⟨h1, h2, h3, h4.trans hle, h5⟩
  | some .start, h => exact h
  | some .yielding, h => exact h
  | none, h => exact h

lemma exists_cons_of_getElem? {β : Type} {l : List β} {i : ℕ} {x : β} (h : l[i]? = some x) :
    (l : Multiset β) = ([x] : List β) + (l.eraseIdx i : Multiset β) ∧ l.length = (l.eraseIdx i).length + 1 := by
  obtain ⟨hlt, rfl⟩ := List.getElem?_eq_some_iff.mp h
  have hperm : (l[i] :: l.eraseIdx i).Perm l := getElem_cons_eraseIdx_perm hlt
  refine ⟨?_, hperm.length_eq.symm⟩
  rw [Multiset.coe_singleton, Multiset.singleton_add, Multiset.cons_coe]
  exact (Multiset.coe_eq_coe.mpr hperm).symm

section

variable (h : s.Inv cfg)
include h

lemma Inv.count (hcfg : cfg.queueSize + min cfg.queueSize cfg.batchMaxSize ≤ 2 ^ 32) {i : ℕ}
    (hs : s.step cfg (.count i) = .ok s') : s'.Inv cfg ∧ s'.measure < s.measure := by
  simp only [step] at hs
  split at hs
  · cases hs
  next call hi =>
    obtain ⟨hcalls, hlen⟩ := exists_cons_of_getElem? hi
    have hcount := h.jobCount_eq hcfg (by omega)
    have hle := h.pushed_le
    have hcharge := h.charge
    have hlog := h.calls
    rw [hcalls] at hlog
    -- what both outcomes have in common
    have key (acquired accepted : List (ℕ × α))
        (hacc : (accepted + s.pushed.eraseIdx i + acquired : Multiset (ℕ × α)) = s.log)
        (hch : acquired.length + s.dispatched + s.active = 1) (hm : acquired.length ≤ s.acquired.length + 1) :
        Inv cfg { s with
            pushed := s.pushed.eraseIdx i, jobCount := (s.jobCount + 1) % 2 ^ 32, acquired := acquired,
            accepted := accepted } ∧
          measure { s with
            pushed := s.pushed.eraseIdx i, jobCount := (s.jobCount + 1) % 2 ^ 32, acquired := acquired,
            accepted := accepted } < s.measure := by
      have hcounted : counted { s with
          pushed := s.pushed.eraseIdx i, jobCount := (s.jobCount + 1) % 2 ^ 32, acquired := acquired,
          accepted := accepted } = s.counted + 1 := by
        simp only [counted, popped] at hle ⊢
        omega
      refine ⟨⟨h.order, hacc, h.size, ?_, ?_, ?_, ?_⟩, ?_⟩
      · simp only [popped] at hle ⊢
        omega
      · rw [hcounted, hcount]
      · rw [hcounted]
        exact h.job.mono (le_succ _)
      · rw [hcounted]
        exact hch
      · simp only [measure]
        omega
    split at hs
    next h0 =>
      cases hs
      rw [hcount] at h0
      rw [if_pos h0] at hcharge
      refine key _ _ ?_ ?_ ?_
      · rw [← hlog, ← Multiset.coe_add]
        abel
      · simp only [length_append, length_singleton]
        omega
      · simp only [length_append, length_singleton]
        omega
    next h0 =>
      cases hs
      rw [hcount] at h0
      rw [if_neg h0] at hcharge
      refine key _ _ ?_ hcharge (by omega)
      rw [← hlog, ← Multiset.coe_add]
      abel

lemma Inv.dispatch {i : ℕ} (hs : s.step cfg (.dispatch i) = .ok s') : s'.Inv cfg ∧ s'.measure < s.measure := by
  simp only [step] at hs
  split at hs
  · cases hs
  next call hi =>
    cases hs
    obtain ⟨hcalls, hlen⟩ := exists_cons_of_getElem? hi
    have hlog := h.calls
    rw [hcalls] at hlog
    have hcharge := h.charge
    refine ⟨{ h with calls := ?_, charge := ?_ }, ?_⟩
    · rw [← hlog, ← Multiset.coe_add]
      abel
    · change (s.acquired.eraseIdx i).length + (s.dispatched + 1) + s.active = if s.counted = 0 then 0 else 1
      rw [← hcharge]
      omega
    · simp only [measure]
      omega

/-! ### The steps of the jobs -/

lemma Inv.start (hs : s.step cfg .start = .ok s') : s'.Inv cfg ∧ s'.measure < s.measure := by
  simp only [step] at hs
  split at hs
  next hen =>
    obtain ⟨hr, hd⟩ := hen
    cases hs
    have hpop : popped { s with dispatched := s.dispatched - 1, running := some .start } = s.popped := by
      simp [popped, hr]
    have hcounted : counted { s with dispatched := s.dispatched - 1, running := some .start } = s.counted := by
      simp [counted, hpop]
    have hjob := h.job
    have hcharge := h.charge
    simp only [active, hr] at hcharge
    rw [hr] at hjob
    refine ⟨⟨h.order, h.calls, h.size, ?_, ?_, hjob, ?_⟩, ?_⟩
    · rw [hpop]
      exact h.pushed_le
    · rw [hcounted]
      exact h.jobCount
    · rw [hcounted, ← hcharge]
      simp only [active]
      omega
    · simp only [measure, hr]
      omega
  · cases hs

lemma Inv.counted_le (hp : s.popped = 0) : s.counted ≤ cfg.queueSize ∧ s.jobCount = s.counted := by
  have hsize := h.size
  have hlt := cfg.queueSize_lt
  have hle : s.counted ≤ cfg.queueSize := by
    unfold counted
    omega
  exact ⟨hle, by rw [h.jobCount, mod_eq_of_lt (by omega)]⟩

lemma Inv.goto {r : Option DequeuePc} {delivered batched : List (ℕ × α)} {disp : ℕ}
    (hp : s.popped = 0) (hp' : popped { s with running := r } = 0)
    (horder : delivered ++ batched = s.delivered ++ s.batchedValues) (hjob : JobOk cfg s.counted batched r)
    (hcharge : disp + active { s with running := r } = s.dispatched + s.active) :
    Inv cfg { s with running := r, delivered := delivered, batchedValues := batched, dispatched := disp } := by
  have hpop : popped { s with
      running := r, delivered := delivered, batchedValues := batched, dispatched := disp } = s.popped :=
    Eq.trans hp' hp.symm
  have hcounted : counted { s with
      running := r, delivered := delivered, batchedValues := batched, dispatched := disp } = s.counted := by
    simp [counted, hpop]
  have hch := h.charge
  refine ⟨?_, h.calls, h.size, ?_, ?_, ?_, ?_⟩
  · rw [← h.order, horder]
  · rw [hpop]
    exact h.pushed_le
  · rw [hcounted]
    exact h.jobCount
  · rw [hcounted]
    exact hjob
  · rw [hcounted, ← hch]
    change s.acquired.length + disp + active { s with running := r } = _
    omega

lemma Inv.counted_pos (hact : s.active = 1) : 0 < s.counted := by
  have hch := h.charge
  split at hch <;> omega

lemma Inv.work_start (hr : s.running = some .start) :
    (s.work cfg .start).Inv cfg ∧ (s.work cfg .start).measure < s.measure := by
  have hp : s.popped = 0 := by simp only [popped, hr]
  have hact : s.active = 1 := by simp only [active, hr]
  have hpos := h.counted_pos hact
  obtain ⟨hle, hcount⟩ := h.counted_le hp
  have hb := cfg.batchMaxSize_pos
  have hjob := h.job
  rw [hr] at hjob
  have hnil : s.batchedValues = [] := hjob
  simp only [work, whileQueueSize, if_pos (hcount ▸ hpos)]
  refine ⟨h.goto hp (by rfl) rfl ?_ ?_, ?_⟩
  · exact ⟨by rw [hnil]; rfl, Nat.zero_le _, by omega, by omega, by omega, by omega, le_rfl⟩
  · rw [hact]
    rfl
  · simp only [measure, hr, if_true]
    omega

lemma Inv.work_pop {mp maxCount runCount : ℕ}
    (hr : s.running = some (.popping mp maxCount runCount)) (hne : runCount ≠ maxCount) :
    (s.pop mp maxCount runCount).Inv cfg ∧ (s.pop mp maxCount runCount).measure < s.measure := by
  have hjob := h.job
  rw [hr] at hjob
  obtain ⟨h1, h2, h3, h4, h5, h6, h7⟩ := hjob
  have hp : s.popped = runCount := by simp only [popped, hr]
  have hle := h.pushed_le
  have hsize := h.size
  have hch := h.charge
  have horder := h.order
  have hcount := h.jobCount
  simp only [active, hr] at hch
  unfold pop
  cases hq : s.queue with
  | nil =>
    -- the queue holds the values that are counted and not popped
    simp only [counted, hp, hq, length_nil] at h5
    omega
  | cons x rest =>
    rw [hq, length_cons] at hsize hle
    rw [hq] at horder
    have hcounted : counted { s with
        queue := rest, batchedValues := s.batchedValues ++ [x],
        running := some (.popping mp maxCount (runCount + 1)) } = s.counted := by
      simp only [counted, popped, hr, hq, length_cons]
      omega
    refine ⟨⟨?_, h.calls, ?_, ?_, ?_, ?_, ?_⟩, ?_⟩
    · rw [← horder]
      simp
    · exact le_of_succ_le hsize
    · rw [hp] at hle
      change s.pushed.length ≤ rest.length + (runCount + 1)
      omega
    · rw [hcounted]
      exact hcount
    · rw [hcounted]
      refine ⟨?_, by omega, h3, h4, h5, h6, h7⟩
      simp [h1]
    · rw [hcounted]
      exact hch
    · simp only [measure, hr, hq, length_cons, add_one_ne_zero, if_false]
      split <;> omega

lemma Inv.work_fetchSub {mp maxCount : ℕ}
    (hr : s.running = some (.popping mp maxCount maxCount)) :
    (s.fetchSub mp maxCount).Inv cfg ∧ (s.fetchSub mp maxCount).measure < s.measure := by
  have hjob := h.job
  rw [hr] at hjob
  obtain ⟨h1, h2, h3, h4, h5, h6, h7⟩ := hjob
  have hp : s.popped = maxCount := by simp only [popped, hr]
  have hle := h.pushed_le
  have hsize := h.size
  have hch := h.charge
  have hlt := cfg.queueSize_lt
  have hcounted : s.counted = s.queue.length + maxCount - s.pushed.length := by rw [counted, hp]
  simp only [active, hr] at hch
  -- the subtraction leaves what is counted in the queue
  have hsub : (s.jobCount + (2 ^ 32 - maxCount)) % 2 ^ 32 = s.queue.length - s.pushed.length := by
    rw [h.jobCount]
    omega
  have hcounted' : counted (s.fetchSub mp maxCount) = s.queue.length - s.pushed.length := rfl
  refine ⟨⟨h.order, h.calls, hsize, ?_, ?_, ?_, ?_⟩, ?_⟩
  · change s.pushed.length ≤ s.queue.length + 0
    omega
  · rw [hcounted']
    change (s.jobCount + (2 ^ 32 - maxCount)) % 2 ^ 32 = _
    rw [hsub, mod_eq_of_lt (by omega)]
  · rw [hcounted', fetchSub, hsub]
    exact ⟨h1, h4, h7, le_rfl, by omega⟩
  · rw [hcounted']
    rw [if_neg (by omega)] at hch
    simp only [fetchSub, hsub, active]
    split <;> omega
  · simp only [measure, hr, fetchSub]
    rw [if_neg (by omega)]
    omega

lemma Inv.work_callback {queueSize mp runCount : ℕ}
    (hr : s.running = some (.calling queueSize mp runCount)) :
    (s.callback queueSize mp runCount).Inv cfg ∧ (s.callback queueSize mp runCount).measure < s.measure := by
  have hjob := h.job
  rw [hr] at hjob
  obtain ⟨h1, h2, h3, h4, h5⟩ := hjob
  have hp : s.popped = 0 := by simp only [popped, hr]
  have horder : s.delivered ++ s.batchedValues ++ [] = s.delivered ++ s.batchedValues := append_nil _
  unfold callback whileQueueSize
  dsimp only
  split
  next hc =>
    refine ⟨h.goto hp (by rfl) horder (by rfl) ?_, ?_⟩
    · simp only [active, hr]
      rw [if_neg (by omega)]
    · simp only [measure, hr]
      omega
  next hc =>
    split
    next hpos =>
      refine ⟨h.goto hp (by rfl) horder ⟨rfl, Nat.zero_le _, ?_, ?_, ?_, ?_, ?_⟩ ?_, ?_⟩
      · omega
      · omega
      · omega
      · omega
      · omega
      · simp only [active, hr]
        rw [if_neg (by omega)]
      · simp only [measure, hr, if_true]
        omega
    next h0 =>
      refine ⟨h.goto hp (by rfl) horder (by rfl) ?_, ?_⟩
      · simp only [active, hr]
        rw [if_pos (by omega)]
      · simp only [measure, hr]
        omega

lemma Inv.work_yielding (hr : s.running = some .yielding) :
    (s.work cfg .yielding).Inv cfg ∧ (s.work cfg .yielding).measure < s.measure := by
  have hjob := h.job
  rw [hr] at hjob
  have hp : s.popped = 0 := by simp only [popped, hr]
  refine ⟨h.goto hp (by rfl) rfl hjob ?_, ?_⟩
  · simp [active, hr]
  · simp only [measure, hr, work]
    omega

lemma Inv.work (hs : s.step cfg .work = .ok s') : s'.Inv cfg ∧ s'.measure < s.measure := by
  simp only [step] at hs
  split at hs
  · cases hs
  next pc hr =>
    cases hs
    cases pc with
    | start => exact h.work_start hr
    | popping mp maxCount runCount =>
      simp only [DispatchQueue.work]
      split
      next hne => exact h.work_pop hr hne
      next heq =>
        obtain rfl : runCount = maxCount := not_not.mp heq
        exact h.work_fetchSub hr
    | calling queueSize mp runCount => exact h.work_callback hr
    | yielding => exact h.work_yielding hr

end

/-! ### Runs -/

/-- No producer pushes. -/
def Continues (_ : DispatchQueue α) (a : DispatchQueueAction α) : Prop := ∀ producer v, a ≠ .push producer v

/-- No call is in progress, and no job is dispatched or runs. -/
def Quiet (s : DispatchQueue α) : Prop := s.pushed = [] ∧ s.acquired = [] ∧ s.dispatched = 0 ∧ s.running = none

section

variable (hcfg : cfg.queueSize + min cfg.queueSize cfg.batchMaxSize ≤ 2 ^ 32)
include hcfg

lemma Inv.step_continues
    {a : DispatchQueueAction α} (h : s.Inv cfg) (ha : Continues s a) (hs : s.step cfg a = .ok s') :
    s'.Inv cfg ∧ s'.measure < s.measure := by
  cases a with
  | push producer v => exact absurd rfl (ha producer v)
  | count i => exact h.count hcfg hs
  | dispatch i => exact h.dispatch hs
  | start => exact h.start hs
  | work => exact h.work hs

lemma Inv.step
    {a : DispatchQueueAction α} (h : s.Inv cfg) (hs : s.step cfg a = .ok s') : s'.Inv cfg := by
  by_cases ha : Continues s a
  · exact (h.step_continues hcfg ha hs).1
  · unfold Continues at ha
    push Not at ha
    obtain ⟨producer, v, rfl⟩ := ha
    simp only [DispatchQueue.step] at hs
    split at hs
    · cases hs
    · split at hs
      next hlt =>
        cases hs
        exact h.push _ hlt
      · cases hs
        exact h

end

lemma quiet_or_continues (s : DispatchQueue α) : s.Quiet ∨ ∃ a s', Continues s a ∧ s.step cfg a = .ok s' := by
  by_cases hpushed : s.pushed = []
  · by_cases hacquired : s.acquired = []
    · cases hr : s.running with
      | some pc => exact .inr ⟨.work, s.work cfg pc, by simp [Continues], by simp [step, hr]⟩
      | none =>
        by_cases hd : s.dispatched = 0
        · exact .inl ⟨hpushed, hacquired, hd, hr⟩
        · refine .inr ⟨.start, _, by simp [Continues], if_pos ⟨hr, Nat.pos_of_ne_zero hd⟩⟩
    · obtain ⟨call, rest, hl⟩ := exists_cons_of_ne_nil hacquired
      exact .inr ⟨.dispatch 0, _, by simp [Continues], by simp only [step, hl]; rfl⟩
  · obtain ⟨call, rest, hl⟩ := exists_cons_of_ne_nil hpushed
    refine .inr ⟨.count 0, ?_⟩
    by_cases h0 : s.jobCount = 0
    · exact ⟨_, by simp [Continues], by simp only [step, hl, h0, if_true]; rfl⟩
    · exact ⟨_, by simp [Continues], by simp only [step, hl, h0, if_false]; rfl⟩

/-- Every accepted task is delivered once, in order. -/
structure ExactlyOnce (cfg : DispatchQueueConfig) (s : DispatchQueue α) : Prop where
  order : s.delivered ++ s.batchedValues ++ s.queue = s.log
  producer : ∀ producer, s.delivered.filter (·.1 = producer) <+: s.log.filter (·.1 = producer)
  calls : (s.accepted + s.pushed + s.acquired : Multiset (ℕ × α)) = s.log
  job : s.dispatched + s.active ≤ 1
  /-- when all jobs have run, all accepted values have been passed to the callback -/
  quiet : s.Quiet → s.queue = [] ∧ s.batchedValues = [] ∧ (s.delivered : Multiset (ℕ × α)) = s.accepted
  progress : Inevitable (step cfg) Continues Quiet s

lemma Inv.exactlyOnce (hcfg : cfg.queueSize + min cfg.queueSize cfg.batchMaxSize ≤ 2 ^ 32) (h : s.Inv cfg) :
    s.ExactlyOnce cfg where
  order := h.order
  producer producer := by
    rw [← h.order, append_assoc, filter_append]
    exact prefix_append _ _
  calls := h.calls
  job := by
    have hch := h.charge
    split at hch <;> omega
  quiet := by
    rintro ⟨hpushed, hacquired, hd, hr⟩
    have hch := h.charge
    have hjob := h.job
    have hcalls := h.calls
    have horder := h.order
    simp only [hacquired, hd, active, hr] at hch
    rw [hr] at hjob
    have hbatch : s.batchedValues = [] := hjob
    have hcounted : s.counted = 0 := by
      by_contra hne
      rw [if_neg hne] at hch
      simp at hch
    have hqueue : s.queue = [] := by
      simp only [counted, popped, hr, hpushed, length_nil, Nat.add_zero, Nat.sub_zero] at hcounted
      exact length_eq_zero_iff.mp hcounted
    rw [hbatch, hqueue, append_nil, append_nil] at horder
    rw [hpushed, hacquired, ← horder] at hcalls
    refine ⟨hqueue, hbatch, ?_⟩
    simpa using hcalls.symm
  progress := Inevitable.of_measure (I := Inv cfg) measure
    (fun _ _ _ hi ha hs => hi.step_continues hcfg ha hs) (fun s _ => quiet_or_continues s) h

/-! ### The counter wraps when the queue is too large -/

/-- A reachable state in which no call is in progress. -/
structure Between (cfg : DispatchQueueConfig) (s : DispatchQueue α) (queue jobCount dispatched : ℕ)
    (running : Option DequeuePc) : Prop where
  reach : Reach (step cfg) (fun _ _ => True) (DispatchQueue.init : DispatchQueue α) s
  pushed : s.pushed = []
  acquired : s.acquired = []
  queue : s.queue.length = queue
  jobCount : s.jobCount = jobCount
  dispatched : s.dispatched = dispatched
  running : s.running = running

variable {queue jobCount dispatched disp : ℕ} {running : Option DequeuePc}

lemma Between.push (h : Between cfg s queue jobCount disp running) (x : ℕ × α) (hq : queue < cfg.queueSize) :
    s.step cfg (.push x.1 x.2) =
      .ok { s with queue := s.queue ++ [x], pushed := [x], log := s.log ++ [x] } := by
  simp [step, busy, h.pushed, h.acquired, h.queue, hq]

lemma Between.call (h : Between cfg s queue jobCount disp running) (x : ℕ × α) (hq : queue < cfg.queueSize)
    (hc : jobCount ≠ 0) :
    ∃ s' : DispatchQueue α, Between cfg s' (queue + 1) ((jobCount + 1) % 2 ^ 32) disp running := by
  have hcount := h.jobCount
  have h2 : step cfg { s with queue := s.queue ++ [x], pushed := [x], log := s.log ++ [x] } (.count 0) = .ok { s with
        queue := s.queue ++ [x], pushed := [], log := s.log ++ [x], jobCount := (s.jobCount + 1) % 2 ^ 32,
        accepted := s.accepted ++ [x] } := by
    simp [step, hcount, hc]
  refine ⟨_, .step (.step h.reach trivial (h.push x hq)) trivial h2, rfl, h.acquired, ?_, ?_, h.dispatched, h.running⟩
  · simp [h.queue]
  · simp [hcount]

lemma Between.call_edge (h : Between cfg s queue 0 disp running) (x : ℕ × α) (hq : queue < cfg.queueSize) :
    ∃ s' : DispatchQueue α, Between cfg s' (queue + 1) 1 (disp + 1) running := by
  have hcount := h.jobCount
  have hacquired := h.acquired
  have h2 : step cfg { s with queue := s.queue ++ [x], pushed := [x], log := s.log ++ [x] } (.count 0) = .ok { s with
        queue := s.queue ++ [x], pushed := [], log := s.log ++ [x], jobCount := 1, acquired := [x] } := by
    simp [step, hcount, hacquired]
  have h3 : step cfg { s with
        queue := s.queue ++ [x], pushed := [], log := s.log ++ [x], jobCount := 1, acquired := [x] } (.dispatch 0) =
      .ok { s with
        queue := s.queue ++ [x], pushed := [], log := s.log ++ [x], jobCount := 1, acquired := [],
        dispatched := s.dispatched + 1, accepted := s.accepted ++ [x] } := by
    simp [step]
  refine ⟨_, .step (.step (.step h.reach trivial (h.push x hq)) trivial h2) trivial h3, rfl, rfl, ?_, rfl, ?_,
    h.running⟩
  · simp [h.queue]
  · simp [h.dispatched]

lemma Between.calls (h : Between cfg s queue jobCount disp running) (x : ℕ × α) (hc : jobCount ≠ 0) (n : ℕ)
    (hq : queue + n ≤ cfg.queueSize) (hn : jobCount + n ≤ 2 ^ 32) (hlt : jobCount < 2 ^ 32) :
    ∃ s' : DispatchQueue α, Between cfg s' (queue + n) ((jobCount + n) % 2 ^ 32) disp running := by
  induction n with
  | zero =>
    refine ⟨s, ?_⟩
    rw [Nat.add_zero, Nat.add_zero, mod_eq_of_lt hlt]
    exact h
  | succ n ih =>
    obtain ⟨s1, h1⟩ := ih (by omega) (by omega)
    rw [mod_eq_of_lt (by omega)] at h1
    exact h1.call x (by omega) (by omega)

lemma Between.pops {mp maxCount : ℕ} (h : Between cfg s queue jobCount disp (some (.popping mp maxCount 0)))
    (n : ℕ) (hn : n ≤ maxCount) (hq : n ≤ queue) :
    ∃ s' : DispatchQueue α, Between cfg s' (queue - n) jobCount disp (some (.popping mp maxCount n)) := by
  induction n with
  | zero => exact ⟨s, h⟩
  | succ n ih =>
    obtain ⟨s1, h1⟩ := ih (by omega) (by omega)
    have hlen := h1.queue
    obtain ⟨x, rest, hx⟩ : ∃ x rest, s1.queue = x :: rest := by
      cases hs : s1.queue with
      | nil =>
        rw [hs] at hlen
        simp at hlen
        omega
      | cons x rest => exact ⟨x, rest, rfl⟩
    rw [hx, length_cons] at hlen
    have hne : n ≠ maxCount := by omega
    have h2 : s1.step cfg .work = .ok { s1 with
        queue := rest, batchedValues := s1.batchedValues ++ [x],
        running := some (.popping mp maxCount (n + 1)) } := by
      simp [step, h1.running, DispatchQueue.work, hne, pop, hx]
    refine ⟨_, .step h1.reach trivial h2, h1.pushed, h1.acquired, ?_, h1.jobCount, h1.dispatched, rfl⟩
    show rest.length = queue - (n + 1)
    omega

lemma Between.start (h : Between cfg s queue jobCount (disp + 1) none) (hc : 0 < jobCount) :
    ∃ s' : DispatchQueue α, Between cfg s' queue jobCount disp
      (some (.popping cfg.batchMaxSize (min jobCount cfg.batchMaxSize) 0)) := by
  have hcount := h.jobCount
  have h1 : s.step cfg .start = .ok { s with dispatched := s.dispatched - 1, running := some .start } :=
    if_pos ⟨h.running, by rw [h.dispatched]; omega⟩
  have h2 : step cfg { s with dispatched := s.dispatched - 1, running := some .start } .work = .ok { s with
        dispatched := s.dispatched - 1,
        running := some (.popping cfg.batchMaxSize (min jobCount cfg.batchMaxSize) 0) } := by
    simp [step, DispatchQueue.work, whileQueueSize, hcount, hc]
  refine ⟨_, .step (.step h.reach trivial h1) trivial h2, h.pushed, h.acquired, h.queue, hcount, ?_, rfl⟩
  show s.dispatched - 1 = disp
  rw [h.dispatched]
  omega

lemma exists_two_jobs (x : ℕ × α) (hcfg : 2 ^ 32 < cfg.queueSize + min cfg.queueSize cfg.batchMaxSize) :
    ∃ s : DispatchQueue α, Reach (step cfg) (fun _ _ => True) (DispatchQueue.init : DispatchQueue α) s ∧
      s.dispatched + s.active = 2 := by
  have hpos := cfg.batchMaxSize_pos
  have hsize := cfg.queueSize_lt
  have hinit : Between cfg (DispatchQueue.init : DispatchQueue α) 0 0 0 none := ⟨.init, rfl, rfl, rfl, rfl, rfl, rfl⟩
  set m := min cfg.queueSize cfg.batchMaxSize
  obtain ⟨s1, h1⟩ := hinit.call_edge x (by omega)
  obtain ⟨s2, h2⟩ := h1.calls x (by omega) (m - 1) (by omega) (by omega) (by omega)
  have hm' : (1 + (m - 1)) % 2 ^ 32 = m := by omega
  rw [hm'] at h2
  obtain ⟨s3, h3⟩ := h2.start (by omega)
  rw [show min m cfg.batchMaxSize = m by omega] at h3
  obtain ⟨s4, h4⟩ := h3.pops m le_rfl (by omega)
  obtain ⟨s5, h5⟩ := h4.calls x (by omega) (2 ^ 32 - m) (by omega) (by omega) (by omega)
  rw [show (m + (2 ^ 32 - m)) % 2 ^ 32 = 0 by omega] at h5
  obtain ⟨s6, h6⟩ := h5.call_edge x (by omega)
  refine ⟨s6, h6.reach, ?_⟩
  simp [active, h6.dispatched, h6.running]

/-- **Exactly once.** Every interleaving delivers the accepted values once and in order iff the counter is wide enough. -/
theorem dispatch_queue_exactly_once_iff [Inhabited α] (cfg : DispatchQueueConfig) :
    (∀ s, Reach (step cfg) (fun _ _ => True) (DispatchQueue.init : DispatchQueue α) s → s.ExactlyOnce cfg) ↔
      cfg.queueSize + min cfg.queueSize cfg.batchMaxSize ≤ 2 ^ 32 := by
  constructor
  · intro h
    by_contra hlt
    obtain ⟨s, hs, h2⟩ := exists_two_jobs (0, (default : α)) (not_le.mp hlt)
    have := (h s hs).job
    omega
  · intro hcfg s hs
    exact (hs.invariant (Inv.init cfg) fun _ _ _ hi _ h => hi.step hcfg h).exactlyOnce hcfg

def largeQueue : DispatchQueueConfig where
  queueSize := 2 ^ 31 + 1
  batchMaxSize := 2 ^ 32 - 1
  queueSize_lt := by decide
  batchMaxSize_lt := by decide
  batchMaxSize_pos := by decide

/-- A second job is dispatched while the first one is in its loop. -/
theorem largeQueue_two_jobs :
    ∃ s : DispatchQueue ℕ, Reach (step largeQueue) (fun _ _ => True) DispatchQueue.init s ∧
      s.dispatched + s.active = 2 :=
  exists_two_jobs (0, 0) (by decide)

end DispatchQueue

end SrsRan.Adt
