import SrsRan.Exec.Strand
import Mathlib.Data.List.Nodup
import Mathlib.Algebra.Order.BigOperators.Group.List

/-!
# The invariant of a strand

`StrandInv` holds in every reachable state, whatever the wrapped executor refuses.  The counter lags behind the queue by the
calls that have not counted their task, and runs ahead of it by the tasks that a worker has not yet subtracted.
-/

namespace SrsRan.Exec

open Lib.Run List

namespace Worker

def holds (w : Worker) : Bool := w.pc ≠ .start

def popped (w : Worker) : ℕ :=
  match w.pc with
  | .popping _ _ n => n
  | .inTask _ _ n _ => n
  | _ => 0

def weight (w : Worker) : ℕ :=
  match w.pc with
  | .start => 6
  | .locking => 5
  | .popping _ _ n => if n = 0 then 4 else 12
  | .inTask _ _ _ _ => 13
  | .unlocking => 11
  | .yielding => 7

/-- What holds for a worker at its program counter. -/
structure Ok (cfg : StrandConfig) (count : ℕ) (w : Worker) : Prop where
  unlimited : cfg.force = true → ∀ m, w.purpose ≠ .run (some m)
  batch : w.purpose = .run (some 0) → w.pc = .yielding
  pc : match w.pc with
    | .start => True
    | .locking => cfg.force = true
    | .popping _ left n => 0 < left + n ∧ left + n ≤ count
    | .inTask _ left n _ => 0 < n ∧ left + n ≤ count
    | .unlocking => cfg.force = true
    | .yielding => cfg.force = false

lemma Ok.mono {cfg : StrandConfig} {count count' : ℕ} {w : Worker} (h : w.Ok cfg count)
    (hle : w.holds = true → count ≤ count') : w.Ok cfg count' where
  unlimited := h.unlimited
  batch := h.batch
  pc := by
    have hpc := h.pc
    unfold holds at hle
    cases hw : w.pc <;> rw [hw] at hpc hle <;> simp_all <;> omega

end Worker

open Worker (popped weight holds)

def poppedOf (r : Option Worker) : ℕ := (r.map popped).getD 0
def weightOf (r : Option Worker) : ℕ := (r.map weight).getD 0

lemma poppedOf_some (w : Worker) : poppedOf (some w) = w.popped := rfl
lemma poppedOf_none : poppedOf none = 0 := rfl
lemma weightOf_some (w : Worker) : weightOf (some w) = w.weight := rfl
lemma weightOf_none : weightOf none = 0 := rfl

namespace Strand

/-- What a step of a worker does to the shared state. -/
structure WorkerStep (cfg : StrandConfig) (s : Shared) (w : Worker) (s' : Shared) (r : Option Worker) : Prop where
  history : s'.log = s.log ∧ s'.accepted = s.accepted ∧ s'.refused = s.refused
  order : s'.taken.map Prod.fst ++ s'.queue = s.taken.map Prod.fst ++ s.queue
  balance : s'.queue.length + poppedOf r + s.count = s.queue.length + w.popped + s'.count
  ok : ∀ w' ∈ r, w'.Ok cfg s'.count
  basic : cfg.force = false → s'.locked = s.locked ∧ (r = none ↔ s'.count = 0)
  start : cfg.force = true → w.holds = false →
    s'.count = s.count ∧ ((s.locked = true ∧ r = none ∧ s'.locked = true) ∨
      (s.locked = false ∧ (∃ w' ∈ r, w'.holds = true) ∧ s'.locked = true))
  held : cfg.force = true → w.holds = true →
    (r = none ∧ s'.locked = false ∧ s'.count = 0) ∨ ((∃ w' ∈ r, w'.holds = true) ∧ s'.locked = s.locked)
  weight : weightOf r + 10 * s'.queue.length < w.weight + 10 * s.queue.length

variable {cfg : StrandConfig}

lemma maxCount_le (p : Purpose) (n : ℕ) : Purpose.maxCount p n ≤ n := by
  unfold Purpose.maxCount
  split <;> omega

variable {p : Purpose} {n : ℕ} {l₁ l₂ : List Worker} {sh : Shared}

lemma maxCount_pos (hp : p ≠ .run (some 0)) (hn : 0 < n) : 0 < Purpose.maxCount p n := by
  match p with
  | .run none => exact hn
  | .drop _ => exact hn
  | .run (some m) =>
    have hm : m ≠ 0 := fun h => hp (by rw [h])
    exact lt_min hn (Nat.pos_of_ne_zero hm)

lemma enter_spec {w : Worker} (count : ℕ) (hu : cfg.force = true → ∀ m, w.purpose ≠ .run (some m))
    (hb : w.purpose ≠ .run (some 0)) (hle : n ≤ count) :
    (n = 0 ∧ enter w n = none) ∨
      (0 < n ∧ ∃ w', enter w n = some w' ∧ w'.popped = 0 ∧ w'.weight = 4 ∧ w'.holds = true ∧ w'.Ok cfg count) := by
  unfold enter
  split
  · exact .inl ⟨‹n = 0›, rfl⟩
  next hn =>
    have hpos := maxCount_pos hb (Nat.pos_of_ne_zero hn)
    have hmax := maxCount_le w.purpose n
    refine .inr ⟨Nat.pos_of_ne_zero hn, _, rfl, rfl, rfl, rfl, hu, fun h => absurd h hb, ?_⟩
    exact ⟨by omega, by omega⟩

lemma afterCompletion_spec {w : Worker} (hu : cfg.force = true → ∀ m, w.purpose ≠ .run (some m)) :
    (n = 0 ∧ afterCompletion w n = none) ∨
      (0 < n ∧ ∃ w', afterCompletion w n = some w' ∧ w'.popped = 0 ∧ w'.weight ≤ 7 ∧ w'.holds = true ∧
        w'.Ok cfg n) := by
  unfold afterCompletion
  split
  next h =>
    refine .inr ⟨h.2, _, rfl, rfl, le_rfl, rfl, hu, fun _ => rfl, ?_⟩
    cases hf : cfg.force with
    | false => rfl
    | true => exact absurd h.1 (hu hf 0)
  next h =>
    by_cases hn : n = 0
    · exact .inl ⟨hn, by rw [enter, if_pos hn]⟩
    · have hb : w.purpose ≠ .run (some 0) := fun hw => h ⟨hw, Nat.pos_of_ne_zero hn⟩
      obtain ⟨h0, -⟩ | ⟨h0, w', h1, h2, h3, h4, h5⟩ := enter_spec n hu hb le_rfl
      · exact absurd h0 hn
      · exact .inr ⟨h0, w', h1, h2, by omega, h4, h5⟩

lemma minus_unlimited (h : ∀ m, p ≠ .run (some m)) (n : ℕ) : Purpose.minus p n = p := by
  match p with
  | .run none => rfl
  | .drop _ => rfl
  | .run (some m) => exact absurd rfl (h m)

lemma minus_ne (p : Purpose) (n : ℕ) (h : cfg.force = true → ∀ m, p ≠ .run (some m)) :
    cfg.force = true → ∀ m, Purpose.minus p n ≠ .run (some m) := fun hf m => by
  rw [minus_unlimited (h hf)]
  exact h hf m

section Steps

variable {s : Shared} {w : Worker}

lemma getQueueSize_spec (hok : w.Ok cfg s.count) (hpc : w.pc = .start) (hc : cfg.force = false → 0 < s.count) :
    WorkerStep cfg s w (getQueueSize cfg s w).1 (getQueueSize cfg s w).2 := by
  have hb : w.purpose ≠ .run (some 0) := fun h => by
    have := hok.batch h
    rw [hpc] at this
    cases this
  have hp : w.popped = 0 := by rw [popped, hpc]
  have hw : w.weight = 6 := by rw [weight, hpc]
  have hh : w.holds = false := by rw [holds, hpc]; rfl
  have hno : ¬ w.holds = true := by rw [hh]; exact Bool.false_ne_true
  have henter := enter_spec s.count hok.unlimited hb (le_refl s.count)
  unfold getQueueSize
  cases hf : cfg.force with
  | true =>
    have hnf : ¬ cfg.force = false := by rw [hf]; exact Bool.true_eq_false.mp
    rw [if_pos rfl]
    by_cases hlk : s.locked = true
    · rw [if_pos hlk]
      refine ⟨⟨rfl, rfl, rfl⟩, rfl, ?_, fun _ h => (nomatch h), fun h => absurd h hnf,
        fun _ _ => ⟨rfl, .inl ⟨hlk, rfl, hlk⟩⟩, fun _ h => absurd h hno, ?_⟩
      · rw [poppedOf_none, hp]
      · rw [weightOf_none, hw]
        dsimp only
        omega
    · rw [if_neg hlk]
      have hlk : s.locked = false := by simpa using hlk
      obtain ⟨h0, -⟩ | ⟨h0, w', h1, h2, h3, h4, h5⟩ := henter
      · rw [if_pos h0]
        refine ⟨⟨rfl, rfl, rfl⟩, rfl, ?_, ?_, fun h => absurd h hnf,
          fun _ _ => ⟨rfl, .inr ⟨hlk, ⟨_, rfl, rfl⟩, rfl⟩⟩, fun _ h => absurd h hno, ?_⟩
        · rw [poppedOf_some, hp]; rfl
        · rintro w' ⟨⟩
          exact ⟨hok.unlimited, fun h => absurd h hb, hf⟩
        · rw [weightOf_some, hw]
          exact Nat.add_lt_add_right (show 5 < 6 by decide) _
      · rw [if_neg (by omega), h1]
        refine ⟨⟨rfl, rfl, rfl⟩, rfl, ?_, ?_, fun h => absurd h hnf,
          fun _ _ => ⟨rfl, .inr ⟨hlk, ⟨_, rfl, h4⟩, rfl⟩⟩, fun _ h => absurd h hno, ?_⟩
        · rw [poppedOf_some, h2, hp]
        · rintro w'' ⟨⟩
          exact h5
        · rw [weightOf_some, h3, hw]
          dsimp only
          omega
  | false =>
    have hnf : ¬ cfg.force = true := by rw [hf]; exact Bool.false_ne_true
    rw [if_neg Bool.false_ne_true]
    obtain ⟨h0, -⟩ | ⟨h0, w', h1, h2, h3, h4, h5⟩ := henter
    · exact absurd (hc hf) (by omega)
    · rw [h1]
      refine ⟨⟨rfl, rfl, rfl⟩, rfl, ?_, ?_, fun _ => ⟨rfl, ?_⟩, fun h => absurd h hnf, fun h => absurd h hnf, ?_⟩
      · rw [poppedOf_some, h2, hp]
      · rintro w'' ⟨⟩
        exact h5
      · exact iff_of_false (by simp) (by simp only; omega)
      · rw [weightOf_some, h3, hw]
        dsimp only
        omega

lemma tryUnlock_spec (hf : cfg.force = true) (hp : w.popped = 0) (hw : 4 < w.weight) (hh : w.holds = true)
    {next : ℕ → Option Worker} (hnext : 0 < s.count → ∃ w', next s.count = some w' ∧ w'.popped = 0 ∧
      w'.weight < w.weight ∧ w'.holds = true ∧ w'.Ok cfg s.count) :
    WorkerStep cfg s w (tryUnlock s next).1 (tryUnlock s next).2 := by
  have hnf : ¬ cfg.force = false := by rw [hf]; exact Bool.true_eq_false.mp
  have hno : ¬ w.holds = false := by rw [hh]; exact Bool.true_eq_false.mp
  unfold tryUnlock
  split
  next h0 =>
    refine ⟨⟨rfl, rfl, rfl⟩, rfl, ?_, fun _ h => (nomatch h), fun h => absurd h hnf, fun _ h => absurd h hno,
      fun _ _ => .inl ⟨rfl, rfl, h0⟩, ?_⟩
    · rw [poppedOf_none, hp]
    · rw [weightOf_none]
      dsimp only
      omega
  next h0 =>
    obtain ⟨w', h1, h2, h3, h4, h5⟩ := hnext (Nat.pos_of_ne_zero h0)
    rw [h1]
    refine ⟨⟨rfl, rfl, rfl⟩, rfl, ?_, ?_, fun h => absurd h hnf, fun _ h => absurd h hno,
      fun _ _ => .inr ⟨⟨w', rfl, h4⟩, rfl⟩, ?_⟩
    · rw [poppedOf_some, h2, hp]
    · rintro w'' ⟨⟩
      exact h5
    · rw [weightOf_some]
      dsimp only
      omega

lemma popTask_spec {p : Purpose} {k left n : ℕ} (hok : Worker.Ok cfg s.count ⟨p, .popping k (left + 1) n⟩)
    (hq : left + 1 ≤ s.queue.length) :
    WorkerStep cfg s ⟨p, .popping k (left + 1) n⟩ (popTask s ⟨p, .popping k (left + 1) n⟩ k left n).1
      (popTask s ⟨p, .popping k (left + 1) n⟩ k left n).2 := by
  have hb : p ≠ .run (some 0) := fun h => by cases hok.batch h
  have hpok : 0 < left + 1 + n ∧ left + 1 + n ≤ s.count := hok.pc
  have hw : 4 ≤ weight ⟨p, .popping k (left + 1) n⟩ := by
    unfold weight
    dsimp only
    split <;> omega
  obtain ⟨t, rest, hqueue⟩ : ∃ t rest, s.queue = t :: rest := by
    cases hs : s.queue with
    | nil => rw [hs] at hq; simp at hq
    | cons t rest => exact ⟨t, rest, rfl⟩
  have hcount : ¬ s.count = 0 := by omega
  unfold popTask
  rw [hqueue]
  -- the task leaves the queue, whether it runs or is discarded
  have hpop (b : Bool) {w' : Worker} (hp : w'.popped = n + 1) (hok' : w'.Ok cfg s.count) (hh : w'.holds = true)
      (hw' : w'.weight ≤ 13) :
      WorkerStep cfg s ⟨p, .popping k (left + 1) n⟩ { s with queue := rest, taken := s.taken ++ [(t, b)] } (some w') := by
    refine ⟨⟨rfl, rfl, rfl⟩, by simp [hqueue], ?_, ?_, fun _ => ⟨rfl, iff_of_false (by simp) hcount⟩,
      fun _ h => (nomatch h), fun _ _ => .inr ⟨⟨w', rfl, hh⟩, rfl⟩, ?_⟩
    · rw [poppedOf_some, hp, hqueue, length_cons]
      change rest.length + (n + 1) + s.count = rest.length + 1 + n + s.count
      omega
    · rintro w'' ⟨⟩
      exact hok'
    · rw [weightOf_some, hqueue, length_cons]
      dsimp only
      omega
  cases p with
  | run m =>
    exact hpop true rfl ⟨hok.unlimited, fun h => absurd h hb,
      show 0 < n + 1 ∧ left + (n + 1) ≤ s.count from ⟨by omega, by omega⟩⟩ rfl le_rfl
  | drop c =>
    exact hpop false rfl ⟨hok.unlimited, fun h => absurd h hb,
      show 0 < left + (n + 1) ∧ left + (n + 1) ≤ s.count from ⟨by omega, by omega⟩⟩ rfl (by decide : 12 ≤ 13)

lemma onTaskCompletion_spec {k n : ℕ} (hok : w.Ok cfg s.count) (hpc : w.pc = .popping k 0 n) :
    WorkerStep cfg s w (onTaskCompletion cfg s w n).1 (onTaskCompletion cfg s w n).2 := by
  have hpok := hok.pc
  rw [hpc] at hpok
  have hp : w.popped = n := by rw [popped, hpc]
  have hw : w.weight = 12 := by rw [weight, hpc]; exact if_neg (by omega)
  have hh : w.holds = true := by rw [holds, hpc]; rfl
  have hno : ¬ w.holds = false := by rw [hh]; exact Bool.true_eq_false.mp
  have hu := minus_ne w.purpose n hok.unlimited
  unfold onTaskCompletion
  simp only
  split
  next hf =>
    have hnf : ¬ cfg.force = false := by rw [hf.1]; exact Bool.true_eq_false.mp
    refine ⟨⟨rfl, rfl, rfl⟩, rfl, ?_, ?_, fun h => absurd h hnf, fun _ h => absurd h hno,
      fun _ _ => .inr ⟨⟨_, rfl, rfl⟩, rfl⟩, ?_⟩
    · rw [poppedOf_some, hp]
      change s.queue.length + 0 + s.count = s.queue.length + n + (s.count - n)
      omega
    · rintro w' ⟨⟩
      exact ⟨hu, fun h => absurd h (hu hf.1 0), hf.1⟩
    · rw [weightOf_some, hw]
      exact Nat.add_lt_add_right (show 11 < 12 by decide) _
  next hf =>
    obtain ⟨h0, h1⟩ | ⟨h0, w', h1, h2, h3, h4, h5⟩ :=
      afterCompletion_spec (w := { w with purpose := Purpose.minus w.purpose n }) (n := s.count - n) hu
    · rw [h1]
      have hnf : ¬ cfg.force = true := fun h => hf ⟨h, h0⟩
      refine ⟨⟨rfl, rfl, rfl⟩, rfl, ?_, fun _ h => (nomatch h), fun _ => ⟨rfl, iff_of_true rfl h0⟩,
        fun h => absurd h hnf, fun h => absurd h hnf, ?_⟩
      · simp only [poppedOf_none, hp]; omega
      · simp only [weightOf_none, hw]; omega
    · rw [h1]
      refine ⟨⟨rfl, rfl, rfl⟩, rfl, ?_, ?_, fun _ => ⟨rfl, iff_of_false (by simp) (by simp only; omega)⟩,
        fun _ h => absurd h hno, fun _ _ => .inr ⟨⟨w', rfl, h4⟩, rfl⟩, ?_⟩
      · simp only [poppedOf_some, hp, h2]; omega
      · rintro w'' ⟨⟩
        exact h5
      · simp only [weightOf_some, hw]; omega

/-- **The steps of a worker.**  The tasks that are left of its round are in the queue. -/
theorem workerStep_spec (hB : cfg.maxBatch ≠ some 0) (ok : Bool) (hok : w.Ok cfg s.count)
    (hq : ∀ k left n, w.pc = .popping k left n → left ≤ s.queue.length)
    (hc : cfg.force = false → 0 < s.count) :
    WorkerStep cfg s w (workerStep cfg s w ok).1 (workerStep cfg s w ok).2 := by
  have hpok := hok.pc
  unfold workerStep
  cases hpc : w.pc with
  | start => exact getQueueSize_spec hok hpc hc
  | locking =>
    rw [hpc] at hpok
    have hb : w.purpose ≠ .run (some 0) := hok.unlimited hpok 0
    refine tryUnlock_spec hpok (by rw [popped, hpc]) (by rw [weight, hpc]; decide)
      (by rw [holds, hpc]; rfl) fun h0 => ?_
    obtain ⟨h1, -⟩ | ⟨-, w', h1, h2, h3, h4, h5⟩ := enter_spec s.count hok.unlimited hb le_rfl
    · omega
    · exact ⟨w', h1, h2, by rw [h3, weight, hpc]; decide, h4, h5⟩
  | popping k left n =>
    cases left with
    | zero => exact onTaskCompletion_spec hok hpc
    | succ left =>
      obtain ⟨p, pc⟩ := w
      cases hpc
      exact popTask_spec hok (hq k _ n rfl)
  | inTask k left n t =>
    rw [hpc] at hpok
    have hb : w.purpose ≠ .run (some 0) := fun h => by
      have := hok.batch h
      rw [hpc] at this
      cases this
    have hh : w.holds = true := by rw [holds, hpc]; rfl
    refine ⟨⟨rfl, rfl, rfl⟩, rfl, ?_, ?_, fun _ => ⟨rfl, iff_of_false (by simp) (by simp only; omega)⟩,
      fun _ h => absurd h (by rw [hh]; exact Bool.true_eq_false.mp), fun _ _ => .inr ⟨⟨_, rfl, rfl⟩, rfl⟩, ?_⟩
    · simp [poppedOf_some, popped, hpc]
    · rintro w' ⟨⟩
      exact ⟨hok.unlimited, fun h => absurd h hb, ⟨by omega, hpok.2⟩⟩
    · simp only [weightOf_some, weight, hpc]
      rw [if_neg (by omega)]
      omega
  | unlocking =>
    rw [hpc] at hpok
    refine tryUnlock_spec hpok (by rw [popped, hpc]) (by rw [weight, hpc]; decide)
      (by rw [holds, hpc]; rfl) fun h0 => ?_
    obtain ⟨h1, -⟩ | ⟨-, w', h1, h2, h3, h4, h5⟩ := afterCompletion_spec (n := s.count) hok.unlimited
    · omega
    · exact ⟨w', h1, h2, by rw [Worker.weight.eq_def w, hpc]; simp only; omega, h4, h5⟩
  | yielding =>
    rw [hpc] at hpok
    have hnf : ¬ cfg.force = true := by
      have : cfg.force = false := hpok
      rw [this]
      exact Bool.false_ne_true
    refine ⟨⟨rfl, rfl, rfl⟩, rfl, ?_, ?_, fun hf => ⟨rfl, iff_of_false (by simp) (by have := hc hf; simp only; omega)⟩,
      fun h => absurd h hnf, fun h => absurd h hnf, ?_⟩
    · simp [poppedOf_some, popped, hpc]
    · rintro w' ⟨⟩
      refine ⟨fun h => absurd h hnf, fun h => ?_, trivial⟩
      cases ok with
      | true => exact absurd (Purpose.run.inj h) hB
      | false => cases h
    · simp only [weightOf_some, weight, hpc]
      omega

end Steps

/-! ### The system -/

/-- What all reachable states satisfy, with and without refused jobs. -/
structure StrandInv (cfg : StrandConfig) (s : Strand) : Prop where
  order : s.log = s.taken.map Prod.fst ++ s.queue
  nodup : s.log.Nodup
  logged : ∀ t, t ∈ s.pushed ∨ t ∈ s.acquired ∨ t ∈ s.accepted → t ∈ s.log
  balance : s.queue.length + (s.workers.map popped).sum = s.count + s.pushed.length
  ok : ∀ w ∈ s.workers, w.Ok cfg s.count
  basic : cfg.force = false →
    s.locked = false ∧ s.acquired.length + s.workers.length = if s.count = 0 then 0 else 1
  force : cfg.force = true → s.workers.countP holds = (if s.locked then 1 else 0) ∧
    (0 < s.count → s.locked = false → 0 < s.acquired.length + s.workers.length)

/-- A bound on the steps that the strand takes without a new call. -/
def measure (s : Strand) : ℕ :=
  8 * s.pushed.length + 7 * s.acquired.length + 10 * s.queue.length + (s.workers.map weight).sum

/-- No new call is made. -/
def Continues (a : StrandAction) : Prop := ∀ t, a ≠ .push t ∧ a ≠ .full t

lemma StrandInv.init (cfg : StrandConfig) : StrandInv cfg init where
  order := rfl
  nodup := nodup_nil
  logged _ h := by simp [Strand.init] at h
  balance := rfl
  ok _ h := by cases h
  basic _ := ⟨rfl, rfl⟩
  force _ := ⟨rfl, fun h => absurd h (Nat.lt_irrefl 0)⟩

lemma split_at {ws : List Worker} {i : ℕ} {w : Worker} (h : ws[i]? = some w) :
    ∃ l₁ l₂, ws = l₁ ++ w :: l₂ ∧ (∀ w', ws.set i w' = l₁ ++ w' :: l₂) ∧ ws.eraseIdx i = l₁ ++ l₂ := by
  obtain ⟨hi, rfl⟩ := List.getElem?_eq_some_iff.mp h
  refine ⟨ws.take i, ws.drop (i + 1), ?_, fun w' => ?_, ?_⟩
  · rw [getElem_cons_drop, List.take_append_drop]
  · exact set_eq_take_append_cons_drop.trans (if_pos hi)
  · exact List.eraseIdx_eq_take_drop_succ ..

lemma popped_of_not_holds {w : Worker} (h : w.holds = false) : w.popped = 0 := by
  unfold holds at h
  unfold popped
  cases hpc : w.pc <;> simp_all

lemma sum_popped_of_not_holds {ws : List Worker} (h : ∀ w ∈ ws, w.holds = false) : (ws.map popped).sum = 0 := by
  rw [sum_eq_zero]
  intro n hn
  obtain ⟨w, hw, rfl⟩ := mem_map.mp hn
  exact popped_of_not_holds (h w hw)

variable {s s' : Strand}

lemma StrandInv.others (h : StrandInv cfg s) {w : Worker} (hws : s.workers = l₁ ++ w :: l₂)
    (hw : w.holds = true) : ∀ w' ∈ l₁ ++ l₂, w'.holds = false := by
  cases hf : cfg.force with
  | false =>
    have hlen := (h.basic hf).2
    rw [hws] at hlen
    have hnil : (l₁ ++ l₂).length = 0 := by
      simp only [length_append, length_cons] at hlen ⊢
      split at hlen <;> omega
    intro w' hw'
    rw [length_eq_zero_iff.mp hnil] at hw'
    cases hw'
  | true =>
    have hcount := (h.force hf).1
    rw [hws, countP_append, countP_cons_of_pos hw] at hcount
    have hzero : (l₁ ++ l₂).countP holds = 0 := by
      rw [countP_append]
      split at hcount <;> omega
    intro w' hw'
    simpa using countP_eq_zero.mp hzero w' hw'

lemma StrandInv.worker (h : StrandInv cfg s) {w : Worker} (hws : s.workers = l₁ ++ w :: l₂) :
    w.Ok cfg s.count ∧ (∀ k left n, w.pc = .popping k left n → left ≤ s.queue.length) ∧
      (cfg.force = false → 0 < s.count) := by
  have hok : w.Ok cfg s.count := h.ok w (by rw [hws]; simp)
  refine ⟨hok, fun k left n hpc => ?_, fun hf => ?_⟩
  · have hw : w.holds = true := by rw [holds, hpc]; rfl
    have hoth := sum_popped_of_not_holds (h.others hws hw)
    have hbal := h.balance
    have hpok := hok.pc
    have hn : w.popped = n := by rw [popped, hpc]
    rw [hpc] at hpok
    simp only [hws, map_append, map_cons, sum_append, sum_cons] at hbal hoth
    omega
  · have hlen := (h.basic hf).2
    rw [hws] at hlen
    simp only [length_append, length_cons] at hlen
    split at hlen <;> omega

lemma StrandInv.others_ok (h : StrandInv cfg s) {w : Worker} (hws : s.workers = l₁ ++ w :: l₂) {r : Option Worker}
    (hst : WorkerStep cfg s.toShared w sh r) : ∀ w' ∈ l₁ ++ l₂, w'.Ok cfg sh.count := by
  intro w' hw'
  have hmem : w' ∈ s.workers := by
    rw [hws]
    simp only [mem_append, mem_cons] at hw' ⊢
    tauto
  refine (h.ok w' hmem).mono fun hh => ?_
  cases hwh : w.holds with
  | true => exact absurd (h.others hws hwh w' hw') (by rw [hh]; simp)
  | false =>
    cases hf : cfg.force with
    | true => exact le_of_eq (hst.start hf hwh).1.symm
    | false =>
      -- under the basic policy there is no other worker
      have hlen := (h.basic hf).2
      have hpos := length_pos_of_mem hw'
      rw [hws] at hlen
      simp only [length_append, length_cons] at hlen hpos
      split at hlen <;> omega

lemma StrandInv.work_some (h : StrandInv cfg s) {w w' : Worker}
    (hws : s.workers = l₁ ++ w :: l₂) (hst : WorkerStep cfg s.toShared w sh (some w')) :
    StrandInv cfg { s with toShared := sh, workers := l₁ ++ w' :: l₂ } ∧
      measure { s with toShared := sh, workers := l₁ ++ w' :: l₂ } < measure s := by
  have hoth := h.others_ok hws hst
  have hbal := h.balance
  have hbal' := hst.balance
  have hwt := hst.weight
  rw [poppedOf_some] at hbal'
  rw [weightOf_some] at hwt
  refine ⟨⟨?_, ?_, ?_, ?_, ?_, fun hf => ?_, fun hf => ?_⟩, ?_⟩
  · exact (hst.history.1.trans h.order).trans hst.order.symm
  · change sh.log.Nodup
    rw [hst.history.1]
    exact h.nodup
  · change ∀ t, t ∈ s.pushed ∨ t ∈ s.acquired ∨ t ∈ sh.accepted → t ∈ sh.log
    rw [hst.history.1, hst.history.2.1]
    exact h.logged
  · simp only [hws, map_append, map_cons, sum_append, sum_cons] at hbal ⊢
    omega
  · intro w'' hw''
    simp only [mem_append, mem_cons] at hw''
    rcases hw'' with hw'' | rfl | hw''
    · exact hoth w'' (mem_append_left _ hw'')
    · exact hst.ok w'' rfl
    · exact hoth w'' (mem_append_right _ hw'')
  · obtain ⟨h1, h2⟩ := hst.basic hf
    obtain ⟨h3, h4⟩ := h.basic hf
    have hne : sh.count ≠ 0 := fun h0 => by cases h2.mpr h0
    refine ⟨h1.trans h3, ?_⟩
    rw [hws] at h4
    simp only [length_append, length_cons, if_neg hne] at h4 ⊢
    split at h4 <;> omega
  · obtain ⟨h1, h2⟩ := h.force hf
    simp only [hws, countP_append] at h1 ⊢
    cases hwh : w.holds with
    | false =>
      obtain ⟨-, ⟨-, h3, -⟩ | ⟨h3, ⟨_, ⟨⟩, h4⟩, h5⟩⟩ := hst.start hf hwh
      · cases h3
      · rw [countP_cons_of_neg (by simp [hwh]), h3] at h1
        rw [countP_cons_of_pos h4, h5]
        refine ⟨?_, fun _ h6 => (nomatch h6)⟩
        simp only [Bool.false_eq_true, if_false, if_true] at h1 ⊢
        omega
    | true =>
      obtain ⟨h3, -⟩ | ⟨⟨_, ⟨⟩, h4⟩, h5⟩ := hst.held hf hwh
      · cases h3
      · rw [countP_cons_of_pos hwh] at h1
        rw [countP_cons_of_pos h4, h5]
        refine ⟨h1, fun _ hl => ?_⟩
        rw [hl] at h1
        simp at h1
  · simp only [measure, hws, map_append, map_cons, sum_append, sum_cons]
    omega

lemma finish_eq (sh : Shared) (w : Worker) :
    (finish sh w).queue = sh.queue ∧ (finish sh w).count = sh.count ∧ (finish sh w).locked = sh.locked ∧
      (finish sh w).log = sh.log ∧ (finish sh w).taken = sh.taken ∧ (finish sh w).accepted = sh.accepted := by
  unfold finish
  split <;> exact ⟨rfl, rfl, rfl, rfl, rfl, rfl⟩

lemma StrandInv.work_none (h : StrandInv cfg s) {w : Worker}
    (hws : s.workers = l₁ ++ w :: l₂) (hst : WorkerStep cfg s.toShared w sh none) :
    StrandInv cfg { s with toShared := finish sh w, workers := l₁ ++ l₂ } ∧
      measure { s with toShared := finish sh w, workers := l₁ ++ l₂ } < measure s := by
  obtain ⟨f1, f2, f3, f4, f5, f6⟩ := finish_eq sh w
  have hoth := h.others_ok hws hst
  have hbal := h.balance
  have hbal' := hst.balance
  have hwt := hst.weight
  rw [poppedOf_none] at hbal'
  rw [weightOf_none] at hwt
  refine ⟨⟨?_, ?_, ?_, ?_, ?_, fun hf => ?_, fun hf => ?_⟩, ?_⟩
  · simp only [f4, f5, f1]
    exact (hst.history.1.trans h.order).trans hst.order.symm
  · simp only [f4, hst.history.1]
    exact h.nodup
  · simp only [f4, f6, hst.history.1, hst.history.2.1]
    exact h.logged
  · simp only [hws, map_append, map_cons, sum_append, sum_cons, f1, f2] at hbal ⊢
    omega
  · simp only [f2]
    exact hoth
  · obtain ⟨h1, h2⟩ := hst.basic hf
    obtain ⟨h3, h4⟩ := h.basic hf
    have hz : sh.count = 0 := h2.mp rfl
    simp only [f2, f3]
    refine ⟨h1.trans h3, ?_⟩
    rw [hws] at h4
    simp only [length_append, length_cons, if_pos hz] at h4 ⊢
    split at h4 <;> omega
  · obtain ⟨h1, h2⟩ := h.force hf
    simp only [hws, countP_append, f2, f3] at h1 ⊢
    cases hwh : w.holds with
    | false =>
      obtain ⟨-, ⟨h3, -, h5⟩ | ⟨-, ⟨_, h4, -⟩, -⟩⟩ := hst.start hf hwh
      · rw [countP_cons_of_neg (by simp [hwh]), h3] at h1
        rw [h5]
        exact ⟨h1, fun _ h6 => (nomatch h6)⟩
      · cases h4
    | true =>
      obtain ⟨-, h4, h5⟩ | ⟨⟨_, h4, -⟩, -⟩ := hst.held hf hwh
      · rw [countP_cons_of_pos hwh] at h1
        rw [h4, h5]
        refine ⟨?_, fun h6 => absurd h6 (Nat.lt_irrefl 0)⟩
        simp only [Bool.false_eq_true, if_false]
        split at h1 <;> omega
      · cases h4
  · simp only [measure, hws, map_append, map_cons, sum_append, sum_cons, f1]
    omega

lemma Worker.ok_start (hB : cfg.maxBatch ≠ some 0) (count : ℕ)
    (hp : p = .run cfg.maxBatch ∨ ∃ c, p = .drop c) : Worker.Ok cfg count ⟨p, .start⟩ := by
  obtain rfl | ⟨c, rfl⟩ := hp
  · refine ⟨fun hf m heq => ?_, fun heq => absurd (Purpose.run.inj heq) hB, trivial⟩
    have hnone := cfg.batch_ok hf
    rw [hnone] at heq
    cases heq
  · exact ⟨fun _ m heq => (nomatch heq), fun heq => (nomatch heq), trivial⟩

lemma StrandInv.onNewTask (h : StrandInv cfg s) {t : ℕ} (ht : t ∈ s.pushed) {acq acc : List ℕ}
    (hcase : (acquires cfg s.toShared = true ∧ acq = s.acquired ++ [t] ∧ acc = s.accepted) ∨
      (acquires cfg s.toShared = false ∧ acq = s.acquired ∧ acc = s.accepted ++ [t])) :
    StrandInv cfg
        { s with count := s.count + 1, pushed := s.pushed.erase t, acquired := acq, accepted := acc } ∧
      measure { s with count := s.count + 1, pushed := s.pushed.erase t, acquired := acq, accepted := acc } <
        measure s := by
  have hlen := length_erase_of_mem ht
  have hpos := length_pos_of_mem ht
  have hacq : acq.length ≤ s.acquired.length + 1 := by
    obtain ⟨-, rfl, -⟩ | ⟨-, rfl, -⟩ := hcase
    · simp
    · omega
  have hbal := h.balance
  refine ⟨⟨h.order, h.nodup, ?_, ?_, fun w hw => (h.ok w hw).mono fun _ => Nat.le_succ _, fun hf => ?_,
    fun hf => ?_⟩, ?_⟩
  · intro x hx
    have hlog := h.logged
    have htl := hlog t (.inl ht)
    obtain ⟨-, rfl, rfl⟩ | ⟨-, rfl, rfl⟩ := hcase
    · simp only [mem_append, mem_singleton] at hx
      obtain hx | (hx | rfl) | hx := hx
      · exact hlog x (.inl (mem_of_mem_erase hx))
      · exact hlog x (.inr (.inl hx))
      · exact htl
      · exact hlog x (.inr (.inr hx))
    · simp only [mem_append, mem_singleton] at hx
      obtain hx | hx | hx | rfl := hx
      · exact hlog x (.inl (mem_of_mem_erase hx))
      · exact hlog x (.inr (.inl hx))
      · exact hlog x (.inr (.inr hx))
      · exact htl
  · simp only
    omega
  · obtain ⟨h1, h2⟩ := h.basic hf
    refine ⟨h1, ?_⟩
    simp only [acquires, hf, Bool.false_eq_true, if_false, decide_eq_true_eq, decide_eq_false_iff_not] at hcase
    obtain ⟨h3, rfl, -⟩ | ⟨h3, rfl, -⟩ := hcase
    · rw [if_pos h3] at h2
      rw [if_neg (Nat.succ_ne_zero _)]
      simp only [length_append, length_singleton]
      omega
    · rw [if_neg h3] at h2
      rw [if_neg (Nat.succ_ne_zero _)]
      exact h2
  · obtain ⟨h1, h2⟩ := h.force hf
    refine ⟨h1, fun _ hl => ?_⟩
    simp only at hl
    simp only [acquires, hf, if_true, hl, Bool.not_false, true_and, Bool.true_eq_false, false_and, or_false] at hcase
    obtain ⟨rfl, -⟩ := hcase
    simp only [length_append, length_singleton]
    omega
  · simp only [measure]
    omega

lemma StrandInv.dispatch (hB : cfg.maxBatch ≠ some 0) (h : StrandInv cfg s) {t : ℕ} (ht : t ∈ s.acquired)
    {acc : List ℕ} (hacc : ∀ x ∈ acc, x = t ∨ x ∈ s.accepted)
    (hp : p = .run cfg.maxBatch ∨ ∃ c, p = .drop c) :
    StrandInv cfg { s with
        acquired := s.acquired.erase t, accepted := acc, workers := s.workers ++ [⟨p, .start⟩] } ∧
      measure { s with acquired := s.acquired.erase t, accepted := acc, workers := s.workers ++ [⟨p, .start⟩] } <
        measure s := by
  have hlen := length_erase_of_mem ht
  have hpos := length_pos_of_mem ht
  have hpop : popped ⟨p, .start⟩ = 0 := rfl
  have hwt : weight ⟨p, .start⟩ = 6 := rfl
  refine ⟨⟨h.order, h.nodup, ?_, ?_, ?_, fun hf => ?_, fun hf => ?_⟩, ?_⟩
  · intro x hx
    obtain hx | hx | hx := hx
    · exact h.logged x (.inl hx)
    · exact h.logged x (.inr (.inl (mem_of_mem_erase hx)))
    · obtain rfl | hx := hacc x hx
      · exact h.logged x (.inr (.inl ht))
      · exact h.logged x (.inr (.inr hx))
  · simp only [map_append, map_cons, map_nil, sum_append, sum_cons, sum_nil, hpop]
    exact h.balance
  · intro w hw
    obtain hw | hw := mem_append.mp hw
    · exact h.ok w hw
    · rw [mem_singleton.mp hw]
      exact Worker.ok_start hB s.count hp
  · obtain ⟨h1, h2⟩ := h.basic hf
    refine ⟨h1, ?_⟩
    simp only [length_append, length_singleton]
    rw [← h2]
    omega
  · obtain ⟨h1, h2⟩ := h.force hf
    refine ⟨?_, fun _ _ => ?_⟩
    · simp only [countP_append, h1]
      rfl
    · simp only [length_append, length_singleton]
      omega
  · simp only [measure, map_append, map_cons, map_nil, sum_append, sum_cons, sum_nil, hwt]
    omega

/-- **One step of the strand** keeps the invariant, and decreases the measure unless it is a new call. -/
theorem StrandInv.step (hB : cfg.maxBatch ≠ some 0) (h : StrandInv cfg s) {a : StrandAction}
    (hstep : step cfg s a = .ok s') : StrandInv cfg s' ∧ (Continues a → measure s' < measure s) := by
  cases a with
  | push t =>
    unfold Strand.step at hstep
    simp only at hstep
    split at hstep
    · cases hstep
    rename_i hfresh
    cases hstep
    have hnot : t ∉ s.log := fun hm => hfresh (.inl hm)
    have hbal := h.balance
    refine ⟨⟨?_, ?_, fun x hx => ?_, ?_, h.ok, h.basic, h.force⟩, fun hc => absurd rfl (hc t).1⟩
    · simp [h.order]
    · exact h.nodup.append (nodup_singleton t) (by simpa using hnot)
    · simp only [mem_append, mem_singleton] at hx ⊢
      obtain (hx | hx) | hx := hx
      · exact .inl (h.logged x (.inl hx))
      · exact .inr hx
      · exact .inl (h.logged x (.inr hx))
    · simp only [length_append, length_singleton]
      omega
  | full t =>
    unfold Strand.step at hstep
    simp only at hstep
    split at hstep
    · cases hstep
    cases hstep
    exact ⟨{ h with }, fun hc => absurd rfl (hc t).2⟩
  | onNewTask t =>
    unfold Strand.step at hstep
    simp only at hstep
    split at hstep
    next ht =>
      split at hstep
      next hacq =>
        cases hstep
        exact (h.onNewTask ht (.inl ⟨hacq, rfl, rfl⟩)).imp id fun hm _ => hm
      next hacq =>
        cases hstep
        exact (h.onNewTask ht (.inr ⟨by simpa using hacq, rfl, rfl⟩)).imp id fun hm _ => hm
    · cases hstep
  | dispatch t ok =>
    unfold Strand.step at hstep
    simp only at hstep
    split at hstep
    next ht =>
      split at hstep
      · cases hstep
        refine (h.dispatch hB ht (fun x hx => ?_) (.inl rfl)).imp id fun hm _ => hm
        obtain hx | hx := mem_append.mp hx
        · exact .inr hx
        · exact .inl (mem_singleton.mp hx)
      · cases hstep
        exact (h.dispatch hB ht (fun x hx => .inr hx) (.inr ⟨_, rfl⟩)).imp id fun hm _ => hm
    · cases hstep
  | work i ok =>
    unfold Strand.step at hstep
    simp only at hstep
    split at hstep
    · cases hstep
    rename_i w hw
    obtain ⟨l₁, l₂, hws, hset, herase⟩ := split_at hw
    obtain ⟨h1, h2, h3⟩ := h.worker hws
    have hst := workerStep_spec hB ok h1 h2 h3
    split at hstep
    next w' hr =>
      rw [hr] at hst
      rw [hset] at hstep
      cases hstep
      exact (h.work_some hws hst).imp id fun hm _ => hm
    next hr =>
      rw [hr] at hst
      rw [herase] at hstep
      cases hstep
      exact (h.work_none hws hst).imp id fun hm _ => hm

/-- All calls and jobs have ended, and no task is left. -/
def Done (s : Strand) : Prop := s.queue = [] ∧ s.pushed = [] ∧ s.acquired = [] ∧ s.workers = []

lemma StrandInv.done_or_enabled (h : StrandInv cfg s) :
    Done s ∨ ∃ a s', (a = .onNewTask (s.pushed.headD 0) ∨ a = .dispatch (s.acquired.headD 0) true ∨
      a = .work 0 true) ∧ Strand.step cfg s a = .ok s' := by
  cases hp : s.pushed with
  | cons t ts =>
    refine .inr ⟨.onNewTask t, ?_⟩
    unfold Strand.step
    simp only [hp, mem_cons_self, if_true]
    split <;> exact ⟨_, .inl rfl, rfl⟩
  | nil =>
    cases ha : s.acquired with
    | cons t ts =>
      refine .inr ⟨.dispatch t true, ?_⟩
      unfold Strand.step
      simp only [ha, mem_cons_self, if_true]
      exact ⟨_, .inr (.inl rfl), rfl⟩
    | nil =>
      cases hw : s.workers with
      | cons w ws =>
        refine .inr ⟨.work 0 true, ?_⟩
        unfold Strand.step
        simp only [hw, getElem?_cons_zero]
        split <;> exact ⟨_, by simp, rfl⟩
      | nil =>
        refine .inl ⟨?_, hp, ha, hw⟩
        -- nobody is in charge, so nothing is counted, and the queue is empty
        have hbal := h.balance
        have hcount : s.count = 0 := by
          by_contra hne
          cases hf : cfg.force with
          | false =>
            have := (h.basic hf).2
            rw [ha, hw, if_neg hne] at this
            simp at this
          | true =>
            obtain ⟨h1, h2⟩ := h.force hf
            rw [hw] at h1
            have hl : s.locked = false := by
              cases hlk : s.locked with
              | false => rfl
              | true => rw [hlk] at h1; simp at h1
            have := h2 (Nat.pos_of_ne_zero hne) hl
            rw [ha, hw] at this
            simp at this
        rw [hw, hp, hcount] at hbal
        exact length_eq_zero_iff.mp (by simpa using hbal)

end Strand

end SrsRan.Exec
