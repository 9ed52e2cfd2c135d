import SrsRan.Lib.Run
import Mathlib.Data.List.Nodup

/-!
# Protocol transactions

`protocol_transaction_manager` and the handles `protocol_transaction`, for any type of response.  Setting an outcome resumes
the coroutine that awaits the handle, within the call and only if the event was not set before; the coroutine then drops the
handle or keeps it.  The iterations of the loop of `stop` are steps, and `running_transactions.begin()` may be any live one.
-/

namespace SrsRan.Async

open Lib.Run List Nat

inductive ProtocolTransactionFailure where
  | timeout
  | cancel
  | abnormal
deriving DecidableEq

/-- `expected<ResponseType, protocol_transaction_failure>` -/
inductive Outcome (T : Type) where
  | response (v : T)
  | failure (cause : ProtocolTransactionFailure)
deriving DecidableEq

/-- What a coroutine does with its handle when it is resumed. -/
inductive OnResume where
  | release
  | keep
deriving DecidableEq

/-- `transaction_context` under its id, and the coroutine that awaits the handle. -/
structure Transaction (T : Type) where
  id : ℕ
  timer : Bool
  /-- the data of the event, if it is set -/
  outcome : Option (Outcome T)
  awaiter : Option OnResume
  /-- history: the number of transactions that were created before -/
  serial : ℕ
deriving DecidableEq

/-- `protocol_transaction_manager`. -/
structure TransactionManager (T : Type) where
  running : Bool
  nextTransactionId : ℕ
  runningTransactions : List (Transaction T)
  /-- in the loop of `stop` -/
  stopping : Bool
  /-- history: the number of transactions that were created -/
  created : ℕ
  /-- history: the outcomes in the order in which they were stored -/
  outcomes : List (ℕ × Outcome T)
deriving DecidableEq

/-- The steps of the callers. -/
inductive TransactionAction (T : Type) where
  | createAutomatic
  | createChosen (id : ℕ)
  | setResponse (id : ℕ) (v : T)
  | cancelTransaction (id : ℕ)
  | expire (id : ℕ)
  | await (id : ℕ) (onResume : OnResume)
  | release (id : ℕ)
  | stop
  | stopIteration (i : ℕ)
  | stopReturn
deriving DecidableEq

inductive TransactionFault where
  | notEnabled
deriving DecidableEq

namespace TransactionManager

variable {T : Type}

def init : TransactionManager T where
  running := true
  nextTransactionId := 0
  runningTransactions := []
  stopping := false
  created := 0
  outcomes := []

variable (s : TransactionManager T)

def find (id : ℕ) : Option (Transaction T) := s.runningTransactions.find? (·.id == id)

def update (t : Transaction T) : TransactionManager T :=
  { s with runningTransactions := s.runningTransactions.map fun u => if u.id = t.id then t else u }

def removeTransaction (id : ℕ) : TransactionManager T :=
  { s with runningTransactions := s.runningTransactions.filter (·.id != id) }

/-- `event.set`; its `flush` resumes the coroutine if the event was not set before. -/
def setTransactionOutcome (id : ℕ) (result : Outcome T) : Bool × TransactionManager T :=
  match s.find id with
  | none => (false, s)
  | some t =>
    let s := { s.update { t with timer := false, outcome := some result } with
      outcomes := s.outcomes ++ [(t.serial, result)] }
    if t.outcome = none ∧ t.awaiter = some .release then (true, s.removeTransaction id) else (true, s)

def setResponse (id : ℕ) (v : T) : Bool × TransactionManager T := s.setTransactionOutcome id (.response v)

def cancelTransaction (id : ℕ) : Bool × TransactionManager T := s.setTransactionOutcome id (.failure .cancel)

def timeout (id : ℕ) : Bool × TransactionManager T := s.setTransactionOutcome id (.failure .timeout)

def createChosen (id : ℕ) : Option ℕ × TransactionManager T :=
  if (s.find id).isSome then (none, s)
  else
    let t : Transaction T := { id, timer := s.running, outcome := none, awaiter := none, serial := s.created }
    let s' := { s with runningTransactions := s.runningTransactions ++ [t], created := s.created + 1 }
    if s.running then (some id, s') else (some id, (s'.cancelTransaction id).2)

def allocate (nofTransactionIds : ℕ) : (count next : ℕ) → Option ℕ × ℕ
  | 0, next => (none, next)
  | left + 1, next =>
    if (s.find next).isNone then (some next, (next + 1) % nofTransactionIds)
    else allocate nofTransactionIds left ((next + 1) % nofTransactionIds)

variable (nofTransactionIds : ℕ)

def createAutomatic : Option ℕ × TransactionManager T :=
  let r := s.allocate nofTransactionIds nofTransactionIds s.nextTransactionId
  let s := { s with nextTransactionId := r.2 }
  match r.1 with
  | none => (none, s)
  | some id => s.createChosen id

/-- An awaiter is resumed at once if there is an outcome. -/
def await (t : Transaction T) (onResume : OnResume) : TransactionManager T :=
  match t.outcome, onResume with
  | none, _ => s.update { t with awaiter := some onResume }
  | some _, .release => s.removeTransaction t.id
  | some _, .keep => s

def step (s : TransactionManager T) (a : TransactionAction T) : Except TransactionFault (TransactionManager T) :=
  if s.stopping then
    match a with
    | .stopIteration i =>
      match s.runningTransactions[i]? with
      | some t => .ok (s.cancelTransaction t.id).2
      | none => .error .notEnabled
    | .stopReturn => if s.runningTransactions = [] then .ok { s with stopping := false } else .error .notEnabled
    | _ => .error .notEnabled
  else
    match a with
    | .createAutomatic => .ok (s.createAutomatic nofTransactionIds).2
    | .createChosen id => .ok (s.createChosen id).2
    | .setResponse id v => .ok (s.setResponse id v).2
    | .cancelTransaction id => .ok (s.cancelTransaction id).2
    | .expire id =>
      match s.find id with
      | some t => if t.timer then .ok (s.timeout id).2 else .error .notEnabled
      | none => .error .notEnabled
    | .await id onResume =>
      match s.find id with
      | some t => if t.awaiter = none then .ok (s.await t onResume) else .error .notEnabled
      | none => .error .notEnabled
    | .release id =>
      match s.find id with
      | some t =>
        -- a coroutine that waits for the outcome holds on to its handle
        if t.awaiter = none ∨ t.outcome ≠ none then .ok (s.removeTransaction id) else .error .notEnabled
      | none => .error .notEnabled
    | .stop => .ok (if s.running then { s with running := false, stopping := true } else s)
    | _ => .error .notEnabled

/-! ### The map of live transactions -/

def ids : List ℕ := s.runningTransactions.map (·.id)

variable {s} {s' : TransactionManager T} {t : Transaction T} {id : ℕ}

lemma mem_of_find (h : s.find id = some t) : t ∈ s.runningTransactions ∧ t.id = id := by
  refine ⟨mem_of_find?_eq_some h, ?_⟩
  simpa using find?_some h

lemma find_eq_none : s.find id = none ↔ id ∉ s.ids := by
  unfold find ids
  rw [find?_eq_none, mem_map]
  constructor
  · rintro h ⟨t, ht, rfl⟩
    exact h t ht (by simp)
  · intro h t ht hid
    exact h ⟨t, ht, by simpa using hid⟩

lemma find_of_mem (hnd : s.ids.Nodup) (ht : t ∈ s.runningTransactions) : s.find t.id = some t := by
  cases hf : s.find t.id with
  | none => exact absurd (mem_map_of_mem ht) (find_eq_none.mp hf)
  | some u =>
    obtain ⟨hu, hid⟩ := mem_of_find hf
    rw [inj_on_of_nodup_map hnd hu ht hid]

lemma ids_update (t : Transaction T) : (s.update t).ids = s.ids := by
  unfold ids update
  rw [List.map_map]
  refine map_congr_left fun u _ => ?_
  simp only [Function.comp]
  split
  next h => exact h.symm
  · rfl

variable {u : Transaction T} {a : TransactionAction T} {s₀ : TransactionManager T}

lemma mem_update (h : u ∈ (s.update t).runningTransactions) : u = t ∨ u ∈ s.runningTransactions ∧ u.id ≠ t.id := by
  obtain ⟨v, hv, rfl⟩ := mem_map.mp h
  split
  · exact .inl rfl
  next hne => exact .inr ⟨hv, hne⟩

lemma mem_update_self (hu : u ∈ s.runningTransactions) (hid : u.id = t.id) : t ∈ (s.update t).runningTransactions := by
  refine mem_map.mpr ⟨u, hu, ?_⟩
  rw [if_pos hid]

lemma mem_removeTransaction :
    u ∈ (s.removeTransaction id).runningTransactions ↔ u ∈ s.runningTransactions ∧ u.id ≠ id := by
  simp [removeTransaction, mem_filter]

lemma ids_removeTransaction_sublist (id : ℕ) : (s.removeTransaction id).ids.Sublist s.ids := filter_sublist.map _

lemma removeTransaction_update (t : Transaction T) :
    ((s.update t).removeTransaction t.id).runningTransactions = s.runningTransactions.filter (·.id != t.id) := by
  unfold removeTransaction update
  induction s.runningTransactions with
  | nil => rfl
  | cons u l ih =>
    rw [map_cons]
    by_cases hu : u.id = t.id
    · rw [if_pos hu, filter_cons_of_neg (by simp), filter_cons_of_neg (by simp [hu])]
      exact ih
    · rw [if_neg hu, filter_cons_of_pos (by simpa using hu), filter_cons_of_pos (by simpa using hu)]
      exact congrArg (u :: ·) ih

/-! ### Outcomes -/

def Transaction.withOutcome (t : Transaction T) (result : Outcome T) : Transaction T :=
  { t with timer := false, outcome := some result }

lemma setTransactionOutcome_some (h : s.find id = some t) (result : Outcome T) :
    s.setTransactionOutcome id result = (true, if t.outcome = none ∧ t.awaiter = some .release
      then removeTransaction { s.update (Transaction.withOutcome t result) with
        outcomes := s.outcomes ++ [(t.serial, result)] } id
      else { s.update (Transaction.withOutcome t result) with outcomes := s.outcomes ++ [(t.serial, result)] }) := by
  unfold setTransactionOutcome
  rw [h]
  simp only [Transaction.withOutcome]
  split <;> rfl

lemma setTransactionOutcome_none (h : s.find id = none) (result : Outcome T) :
    s.setTransactionOutcome id result = (false, s) := by
  unfold setTransactionOutcome
  rw [h]

/-- What holds of the transactions and the loop of `stop`. -/
structure Inv (nofTransactionIds : ℕ) (s : TransactionManager T) : Prop where
  nodup : s.ids.Nodup
  next : 0 < nofTransactionIds → s.nextTransactionId < nofTransactionIds
  stored : ∀ t ∈ s.runningTransactions, ∀ o, t.outcome = some o → (t.serial, o) ∈ s.outcomes
  stopping : s.stopping = true → s.running = false
  stopped : s.running = false → s.stopping = false → ∀ t ∈ s.runningTransactions, t.outcome ≠ none

variable {n : ℕ}

lemma Inv.init : (init : TransactionManager T).Inv n where
  nodup := nodup_nil
  next h := h
  stored _ h := by cases h
  stopping h := by cases h
  stopped h := by cases h

lemma Inv.removeTransaction (h : s.Inv n) (id : ℕ) : (s.removeTransaction id).Inv n where
  nodup := h.nodup.sublist (ids_removeTransaction_sublist id)
  next := h.next
  stored u hu := h.stored u (mem_removeTransaction.mp hu).1
  stopping := h.stopping
  stopped h1 h2 u hu := h.stopped h1 h2 u (mem_removeTransaction.mp hu).1

lemma Inv.withOutcome (h : s.Inv n) (t : Transaction T) (result : Outcome T) :
    Inv n { s.update (Transaction.withOutcome t result) with
      outcomes := s.outcomes ++ [(t.serial, result)] } where
  nodup := by
    have hids : (s.update (Transaction.withOutcome t result)).ids.Nodup := by
      rw [ids_update]
      exact h.nodup
    exact hids
  next := h.next
  stored u hu o ho := by
    obtain rfl | ⟨hu, -⟩ := mem_update hu
    · obtain rfl : result = o := Option.some.inj ho
      exact mem_append_right _ (mem_singleton_self _)
    · exact mem_append_left _ (h.stored u hu o ho)
  stopping := h.stopping
  stopped h1 h2 u hu := by
    obtain rfl | ⟨hu, -⟩ := mem_update hu
    · exact Option.some_ne_none _
    · exact h.stopped h1 h2 u hu

lemma Inv.setTransactionOutcome (h : s.Inv n) (id : ℕ) (result : Outcome T) :
    (s.setTransactionOutcome id result).2.Inv n := by
  cases hf : s.find id with
  | none =>
    rw [setTransactionOutcome_none hf]
    exact h
  | some t =>
    rw [setTransactionOutcome_some hf]
    have h' := h.withOutcome t result
    split
    · exact h'.removeTransaction id
    · exact h'

/-! ### Creation -/

def added (s : TransactionManager T) (id : ℕ) : TransactionManager T :=
  { s with
    runningTransactions := s.runningTransactions ++
      [{ id, timer := s.running, outcome := none, awaiter := none, serial := s.created }]
    created := s.created + 1 }

lemma createChosen_eq (h : s.find id = none) :
    s.createChosen id = (some id, if s.running then s.added id else ((s.added id).cancelTransaction id).2) := by
  unfold createChosen
  rw [h]
  cases hr : s.running <;> simp [added, hr]

lemma find_added (h : s.find id = none) : (s.added id).find id =
    some { id, timer := s.running, outcome := none, awaiter := none, serial := s.created } := by
  have hnone := find?_eq_none.mp h
  unfold find added
  rw [find?_append, find?_eq_none.mpr hnone]
  simp

lemma Inv.createChosen (h : s.Inv n) (id : ℕ) : (s.createChosen id).2.Inv n := by
  cases hf : s.find id with
  | some t =>
    unfold TransactionManager.createChosen
    rw [hf]
    exact h
  | none =>
    have hnd : (s.added id).ids.Nodup := by
      unfold ids added
      rw [map_append]
      exact List.Nodup.append h.nodup (nodup_singleton _) (by simpa [ids] using find_eq_none.mp hf)
    have hstored : ∀ t ∈ (s.added id).runningTransactions, ∀ o, t.outcome = some o → (t.serial, o) ∈ s.outcomes := by
      intro t ht o ho
      obtain ht | ht := mem_append.mp ht
      · exact h.stored t ht o ho
      · rw [mem_singleton.mp ht] at ho
        cases ho
    rw [createChosen_eq hf]
    split
    next hr =>
      refine ⟨hnd, h.next, hstored, h.stopping, fun h1 => ?_⟩
      cases hr.symm.trans h1
    · -- the transaction is cancelled at once, and so it has an outcome as all others do
      rename_i hr
      rw [cancelTransaction, setTransactionOutcome_some (find_added hf)]
      simp only [reduceCtorEq, and_false, if_false]
      refine ⟨?_, h.next, ?_, h.stopping, ?_⟩
      · have hids := ids_update (s := s.added id) (Transaction.withOutcome
          { id, timer := s.running, outcome := none, awaiter := none, serial := s.created } (.failure .cancel))
        exact hids ▸ hnd
      · intro u hu o ho
        obtain rfl | ⟨hu, -⟩ := mem_update hu
        · obtain rfl := Option.some.inj ho
          exact mem_append_right _ (mem_singleton_self _)
        · exact mem_append_left _ (hstored u hu o ho)
      · intro h1 h2 u hu
        obtain rfl | ⟨hu, hne⟩ := mem_update hu
        · exact Option.some_ne_none _
        · obtain hu | hu := mem_append.mp hu
          · exact h.stopped h1 h2 u hu
          · exact absurd (by rw [mem_singleton.mp hu]; rfl) hne

lemma allocate_spec (s : TransactionManager T) (count : ℕ) {next : ℕ} (hlt : next < n) :
    ((s.allocate n count next).1 = none →
        ∀ k < count, s.find ((next + k) % n) ≠ none) ∧
      (∀ id, (s.allocate n count next).1 = some id → id < n ∧ s.find id = none) ∧
      (s.allocate n count next).2 < n := by
  have hpos : 0 < n := by omega
  induction count generalizing next with
  | zero => exact ⟨fun _ k hk => by omega, nofun, hlt⟩
  | succ count ih =>
    unfold allocate
    split
    next hfree =>
      refine ⟨nofun, fun id hid => ?_, mod_lt _ hpos⟩
      obtain rfl := Option.some.inj hid
      exact ⟨hlt, by simpa using hfree⟩
    next hlive =>
      obtain ⟨h1, h2, h3⟩ := ih (mod_lt (next + 1) hpos)
      refine ⟨fun h k hk => ?_, h2, h3⟩
      cases k with
      | zero =>
        rw [Nat.add_zero, mod_eq_of_lt hlt]
        simpa using hlive
      | succ k =>
        have hk' := h1 h k (by omega)
        rwa [mod_add_mod, Nat.add_assoc, Nat.add_comm 1 k] at hk'

lemma createAutomatic_fst (h : s.Inv n) : (s.createAutomatic n).1 = (s.allocate n n s.nextTransactionId).1 := by
  unfold createAutomatic
  dsimp only
  split
  next hr => exact hr.symm
  next id hr =>
    obtain hzero | hpos := Nat.eq_zero_or_pos n
    · subst hzero
      cases hr
    · obtain ⟨-, hfree⟩ := (allocate_spec s n (h.next hpos)).2.1 id hr
      have hfree' : find { s with
          nextTransactionId := (s.allocate n n s.nextTransactionId).2 } id = none := hfree
      rw [createChosen_eq hfree']
      exact hr.symm

lemma createAutomatic_spec (h : s.Inv n) :
    (∀ id, (s.createAutomatic n).1 = some id → id < n ∧ s.find id = none) ∧
      ((s.createAutomatic n).1 = none ↔ ∀ id < n, s.find id ≠ none) := by
  rw [createAutomatic_fst h]
  obtain hzero | hpos := Nat.eq_zero_or_pos n
  · subst hzero
    exact ⟨nofun, iff_of_true rfl fun id hid => by omega⟩
  · obtain ⟨h1, h2, -⟩ := allocate_spec s n (h.next hpos)
    refine ⟨h2, fun hn id hid => ?_, fun hall => ?_⟩
    · have hnext := h.next hpos
      have hk := h1 hn ((id + (n - s.nextTransactionId)) % n) (mod_lt _ hpos)
      rw [add_mod_mod, show s.nextTransactionId + (id + (n - s.nextTransactionId)) =
        id + n by omega, add_mod_right, mod_eq_of_lt hid] at hk
      exact hk
    · cases hr : (s.allocate n n s.nextTransactionId).1 with
      | none => rfl
      | some id => exact absurd (h2 id hr).2 (hall id (h2 id hr).1)

lemma Inv.createAutomatic (h : s.Inv n) : (s.createAutomatic n).2.Inv n := by
  have hnext : Inv n { s with
      nextTransactionId := (s.allocate n n s.nextTransactionId).2 } :=
    { h with next := fun hpos => (allocate_spec s n (h.next hpos)).2.2 }
  unfold TransactionManager.createAutomatic
  dsimp only
  split
  · exact hnext
  · exact hnext.createChosen _

/-! ### Runs -/

lemma Inv.await (h : s.Inv n) (hf : s.find id = some t) (onResume : OnResume) : (s.await t onResume).Inv n := by
  obtain ⟨ht, -⟩ := mem_of_find hf
  unfold TransactionManager.await
  split
  · refine ⟨?_, h.next, ?_, h.stopping, ?_⟩
    · rw [ids_update]
      exact h.nodup
    · intro u hu o ho
      obtain rfl | ⟨hu, -⟩ := mem_update hu
      · exact h.stored t ht o ho
      · exact h.stored u hu o ho
    · intro h1 h2 u hu
      obtain rfl | ⟨hu, -⟩ := mem_update hu
      · exact h.stopped h1 h2 t ht
      · exact h.stopped h1 h2 u hu
  · exact h.removeTransaction _
  · exact h

lemma Inv.step (h : s.Inv n) (hs : s.step n a = .ok s') : s'.Inv n := by
  unfold TransactionManager.step at hs
  split at hs
  · split at hs
    · split at hs
      · cases hs
        exact h.setTransactionOutcome _ _
      · cases hs
    · split at hs
      next hnil =>
        cases hs
        refine ⟨h.nodup, h.next, h.stored, nofun, fun _ _ u hu => ?_⟩
        have hu' : u ∈ s.runningTransactions := hu
        rw [hnil] at hu'
        cases hu'
      · cases hs
    · cases hs
  next hstop =>
    cases a with
    | createAutomatic =>
      cases hs
      exact h.createAutomatic
    | createChosen id =>
      cases hs
      exact h.createChosen id
    | setResponse id v =>
      cases hs
      exact h.setTransactionOutcome _ _
    | cancelTransaction id =>
      cases hs
      exact h.setTransactionOutcome _ _
    | expire id =>
      dsimp only at hs
      split at hs
      · split at hs
        · cases hs
          exact h.setTransactionOutcome _ _
        · cases hs
      · cases hs
    | await id onResume =>
      dsimp only at hs
      split at hs
      next t hf =>
        split at hs
        · cases hs
          exact h.await hf onResume
        · cases hs
      · cases hs
    | release id =>
      dsimp only at hs
      split at hs
      · split at hs
        · cases hs
          exact h.removeTransaction id
        · cases hs
      · cases hs
    | stop =>
      cases hs
      split
      · exact ⟨h.nodup, h.next, h.stored, fun _ => rfl, nofun⟩
      · exact h
    | stopIteration i => cases hs
    | stopReturn => cases hs

/-! ### `stop` -/

/-- The step belongs to `stop`. -/
def InStop (_ : TransactionManager T) (a : TransactionAction T) : Prop := a = .stopReturn ∨ ∃ i, a = .stopIteration i

/-- `stop` has returned, and all transactions that were running have an outcome. -/
def Stopped (s₀ s : TransactionManager T) : Prop :=
  s.stopping = false ∧ ∀ t ∈ s₀.runningTransactions, ∃ o, (t.serial, o) ∈ s.outcomes ∧
    (t.outcome = none → o = .failure .cancel)

/-- Whatever the order of its steps, `stop` ends with all transactions completed. -/
def StopCompletes (s : TransactionManager T) : Prop :=
  ∀ s', s.step nofTransactionIds .stop = .ok s' → Inevitable (step nofTransactionIds) InStop (Stopped s) s'

/-- The outcome of the transaction resumes an awaiter that releases it. -/
def Transaction.Releases (t : Transaction T) : Prop := t.outcome = none ∧ t.awaiter = some .release

/-- The loop of `stop` over transactions that all go away. -/
structure Draining (s₀ s : TransactionManager T) : Prop where
  stopping : s.stopping = true
  nodup : s.ids.Nodup
  releases : ∀ t ∈ s.runningTransactions, Transaction.Releases t
  outcome : ∀ t ∈ s₀.runningTransactions, t ∈ s.runningTransactions ∨ (t.serial, .failure .cancel) ∈ s.outcomes

lemma cancelTransaction_releases (hnd : s.ids.Nodup) (ht : t ∈ s.runningTransactions) (hrel : Transaction.Releases t) :
    (s.cancelTransaction t.id).2.stopping = s.stopping ∧
      (s.cancelTransaction t.id).2.outcomes = s.outcomes ++ [(t.serial, .failure .cancel)] ∧
      (s.cancelTransaction t.id).2.runningTransactions = s.runningTransactions.filter (·.id != t.id) := by
  have hrel' : t.outcome = none ∧ t.awaiter = some .release := hrel
  rw [cancelTransaction, setTransactionOutcome_some (find_of_mem hnd ht)]
  simp only [if_pos hrel']
  exact ⟨rfl, rfl, removeTransaction_update (Transaction.withOutcome t (.failure .cancel))⟩

lemma step_stopIteration (hs : s.stopping = true) {i : ℕ} (hi : s.runningTransactions[i]? = some t) :
    s.step n (.stopIteration i) = .ok (s.cancelTransaction t.id).2 := by
  unfold step
  rw [if_pos hs]
  simp [hi]

lemma step_stopReturn (hs : s.stopping = true) (hnil : s.runningTransactions = []) :
    s.step n .stopReturn = .ok { s with stopping := false } := by
  unfold step
  rw [if_pos hs]
  simp [hnil]

lemma step_inStop (hs : s.stopping = true) (ha : InStop s a) (h : s.step n a = .ok s') :
    (s.runningTransactions = [] ∧ s' = { s with stopping := false }) ∨
      ∃ t ∈ s.runningTransactions, s' = (s.cancelTransaction t.id).2 := by
  unfold step at h
  rw [if_pos hs] at h
  obtain rfl | ⟨i, rfl⟩ := ha
  · dsimp only at h
    split at h
    next hnil =>
      cases h
      exact .inl ⟨hnil, rfl⟩
    · cases h
  · dsimp only at h
    split at h
    next t hi =>
      cases h
      exact .inr ⟨t, mem_of_getElem? hi, rfl⟩
    · cases h

lemma Draining.step (h : Draining s₀ s) (ha : InStop s a) (hs : s.step n a = .ok s') :
    (Stopped s₀ s' ∧ s'.runningTransactions = s.runningTransactions) ∨
      (Draining s₀ s' ∧ s'.runningTransactions.length < s.runningTransactions.length) := by
  obtain ⟨hnil, rfl⟩ | ⟨t, ht, rfl⟩ := step_inStop h.stopping ha hs
  · refine .inl ⟨⟨rfl, fun t ht => ?_⟩, rfl⟩
    obtain hmem | hout := h.outcome t ht
    · rw [hnil] at hmem
      cases hmem
    · exact ⟨_, hout, fun _ => rfl⟩
  · obtain ⟨h1, h2, h3⟩ := cancelTransaction_releases h.nodup ht (h.releases t ht)
    refine .inr ⟨⟨h1.trans h.stopping, ?_, fun u hu => ?_, fun u hu => ?_⟩, ?_⟩
    · unfold ids
      rw [h3]
      exact h.nodup.sublist (filter_sublist.map _)
    · rw [h3] at hu
      exact h.releases u (mem_of_mem_filter hu)
    · rw [h2, h3]
      obtain hmem | hout := h.outcome u hu
      · by_cases hid : u.id = t.id
        · rw [inj_on_of_nodup_map h.nodup hmem ht hid]
          exact .inr (mem_append_right _ (mem_singleton_self _))
        · exact .inl (mem_filter.mpr ⟨hmem, by simpa using hid⟩)
      · exact .inr (mem_append_left _ hout)
    · rw [h3]
      exact length_filter_lt_length_iff_exists.mpr ⟨t, ht, by simp⟩

lemma Draining.inevitable (h : Draining s₀ s) : Inevitable (TransactionManager.step n) InStop (Stopped s₀) s := by
  refine Inevitable.of_measure (I := fun s => Stopped s₀ s ∨ Draining s₀ s)
    (fun s => s.runningTransactions.length + if s.stopping then 1 else 0) ?_ ?_ (.inr h)
  · rintro s a s' (hdone | hdrain) ha hs
    · -- no step of `stop` is enabled any more
      exfalso
      unfold TransactionManager.step at hs
      rw [hdone.1] at hs
      simp only [Bool.false_eq_true, if_false] at hs
      obtain rfl | ⟨i, rfl⟩ := ha
      · cases hs
      · cases hs
    · obtain ⟨hdone, heq⟩ | ⟨hdrain', hlt⟩ := hdrain.step ha hs
      · refine ⟨.inl hdone, ?_⟩
        simp only [heq, hdone.1, hdrain.stopping, Bool.false_eq_true, if_false, if_true]
        omega
      · refine ⟨.inr hdrain', ?_⟩
        simp only [hdrain'.stopping, hdrain.stopping, if_true]
        omega
  · rintro s (hdone | hdrain)
    · exact .inl hdone
    · refine .inr ?_
      cases hl : s.runningTransactions with
      | nil => exact ⟨.stopReturn, _, .inl rfl, step_stopReturn hdrain.stopping hl⟩
      | cons t l => exact ⟨.stopIteration 0, _, .inr ⟨0, rfl⟩, step_stopIteration hdrain.stopping (by rw [hl]; rfl)⟩

lemma not_inevitable_of_stays (hs : s.stopping = true) (hnd : s.ids.Nodup)
    (ht : t ∈ s.runningTransactions) (hstay : ¬ Transaction.Releases t) :
    ¬ Inevitable (step n) InStop (Stopped s₀) s := by
  refine Inevitable.not_of_trap (I := fun s => s.stopping = true ∧ s.ids.Nodup ∧
    ∃ t ∈ s.runningTransactions, ¬ Transaction.Releases t) ?_ ⟨hs, hnd, t, ht, hstay⟩
  rintro s ⟨hs, hnd, t, ht, hstay⟩
  refine ⟨fun hdone => ?_, ?_⟩
  · cases hs.symm.trans hdone.1
  · obtain ⟨i, hi⟩ := getElem?_of_mem ht
    refine ⟨.stopIteration i, _, .inr ⟨i, rfl⟩, step_stopIteration hs hi, ?_⟩
    have hstay' : ¬ (t.outcome = none ∧ t.awaiter = some .release) := hstay
    rw [cancelTransaction, setTransactionOutcome_some (find_of_mem hnd ht)]
    simp only [if_neg hstay']
    refine ⟨hs, ?_, Transaction.withOutcome t (.failure .cancel), mem_update_self ht rfl, ?_⟩
    · have hids := ids_update (s := s) (Transaction.withOutcome t (.failure .cancel))
      exact hids ▸ hnd
    · intro hrel
      cases hrel.1

lemma stopCompletes_iff (h : s.Inv n) (hs : s.stopping = false) :
    s.StopCompletes n ↔
      s.running = false ∨ ∀ t ∈ s.runningTransactions, Transaction.Releases t := by
  have hstep : s.step n .stop = .ok (if s.running then { s with running := false, stopping := true } else s) := by
    simp [TransactionManager.step, hs]
  cases hr : s.running with
  | false =>
    refine iff_of_true ?_ (.inl rfl)
    intro s' hs'
    rw [hstep, hr] at hs'
    cases hs'
    refine .now ⟨hs, fun t ht => ?_⟩
    obtain ⟨o, ho⟩ := Option.ne_none_iff_exists'.mp (h.stopped hr hs t ht)
    exact ⟨o, h.stored t ht o ho, fun hn => by rw [hn] at ho; cases ho⟩
  | true =>
    rw [hr, if_pos rfl] at hstep
    constructor
    · intro hc
      refine .inr fun t ht => ?_
      by_contra hstay
      exact not_inevitable_of_stays (s := { s with running := false, stopping := true }) rfl h.nodup ht hstay
        (hc _ hstep)
    · rintro (hf | hall) s' hs'
      · cases hf
      · rw [hstep] at hs'
        cases hs'
        exact Draining.inevitable ⟨rfl, h.nodup, hall, fun t ht => .inl ht⟩

/-! ### The contract -/

/-- Setting an outcome stores the first one, and has no other effect. -/
def OutcomeFinal (s : TransactionManager T) (id : ℕ) (result : Outcome T) : Prop :=
  match s.find id with
  | none => s.setTransactionOutcome id result = (false, s)
  | some t =>
    match t.outcome with
    | none =>
      (s.setTransactionOutcome id result).1 = true ∧
        (s.setTransactionOutcome id result).2.outcomes = s.outcomes ++ [(t.serial, result)] ∧
        ∀ t', (s.setTransactionOutcome id result).2.find id = some t' → t'.outcome = some result
    | some _ => s.setTransactionOutcome id result = (false, s)

/-- The transaction has its outcome. -/
def Complete (s : TransactionManager T) (id : ℕ) : Prop := ∃ t, s.find id = some t ∧ t.outcome ≠ none

lemma outcomeFinal_iff (id : ℕ) (result : Outcome T) : s.OutcomeFinal id result ↔ ¬ s.Complete id := by
  unfold OutcomeFinal Complete
  cases hf : s.find id with
  | none => exact iff_of_true (setTransactionOutcome_none hf result) (by simp)
  | some t =>
    dsimp only
    cases ho : t.outcome with
    | some o =>
      refine iff_of_false ?_ (by simp [ho])
      rw [setTransactionOutcome_some hf]
      intro h
      cases congrArg Prod.fst h
    | none =>
      refine iff_of_true ?_ (by simp [ho])
      rw [setTransactionOutcome_some hf]
      refine ⟨rfl, ?_, fun t' ht' => ?_⟩
      · dsimp only
        split <;> rfl
      · obtain ⟨hmem, hid⟩ := mem_of_find ht'
        obtain ⟨-, hid'⟩ := mem_of_find hf
        have hmem' : t' ∈ (s.update (Transaction.withOutcome t result)).runningTransactions := by
          dsimp only at hmem
          split at hmem
          · exact (mem_removeTransaction.mp hmem).1
          · exact hmem
        obtain rfl | ⟨-, hne⟩ := mem_update hmem'
        · rfl
        · exact absurd (hid.trans hid'.symm) hne

variable {nofTransactionIds : ℕ}

/-- **Protocol transactions.** In every reachable state the live ids are distinct, and an outcome is final iff it is the
first. -/
theorem protocol_transactions (h : Reach (step nofTransactionIds) (fun _ _ => True) (init : TransactionManager T) s) :
    s.ids.Nodup ∧
      (∀ id, (s.createAutomatic nofTransactionIds).1 = some id → id < nofTransactionIds ∧ id ∉ s.ids) ∧
      ((s.createAutomatic nofTransactionIds).1 = none ↔ ∀ id < nofTransactionIds, id ∈ s.ids) ∧
      (∀ id v, id ∉ s.ids → s.setResponse id v = (false, s)) ∧
      (∀ id result, s.OutcomeFinal id result ↔ ¬ s.Complete id) ∧
      (s.stopping = false → (s.StopCompletes nofTransactionIds ↔
        s.running = false ∨ ∀ t ∈ s.runningTransactions, Transaction.Releases t)) := by
  have hi : s.Inv nofTransactionIds := h.invariant Inv.init fun _ _ _ hi _ hs => hi.step hs
  obtain ⟨h1, h2⟩ := createAutomatic_spec hi
  refine ⟨hi.nodup, fun id hid => ?_, ?_, fun id v hid => ?_, outcomeFinal_iff, stopCompletes_iff hi⟩
  · obtain ⟨hlt, hfree⟩ := h1 id hid
    exact ⟨hlt, find_eq_none.mp hfree⟩
  · rw [h2]
    refine forall₂_congr fun id _ => ?_
    rw [Ne, find_eq_none, not_not]
  · exact setTransactionOutcome_none (find_eq_none.mpr hid) _

theorem protocol_transactions_run : ∃ s : TransactionManager ℕ,
    Reach (step 1) (fun _ _ => True) TransactionManager.init s ∧ s.ids = [0] ∧ (s.createAutomatic 1).1 = none ∧
      s.StopCompletes 1 := by
  obtain ⟨s, hreach, h1, h2, h3⟩ : ∃ s, Reach (step 1) (fun _ _ => True) (init : TransactionManager ℕ) s ∧
      s.stopping = false ∧ s.ids = [0] ∧ ∀ t ∈ s.runningTransactions, t.outcome = none ∧ t.awaiter = some .release :=
    Reach.exists_run [.createAutomatic, .await 0 .release, .setResponse 0 7, .createChosen 0, .await 0 .release]
      (by decide +kernel)
  obtain ⟨-, -, h4, -, -, h5⟩ := protocol_transactions hreach
  refine ⟨s, hreach, h2, h4.mpr fun id hid => ?_, (h5 h1).mpr (.inr h3)⟩
  rw [h2]
  simpa using hid

/-- A second response replaces the first one, and `stop` does not return while a handle that nobody awaits exists. -/
theorem second_outcome_accepted :
    (∃ s : TransactionManager ℕ, Reach (step 2) (fun _ _ => True) TransactionManager.init s ∧
      (s.find 0).bind (·.outcome) = some (.response 1) ∧ (s.setResponse 0 2).1 = true ∧
      ((s.setResponse 0 2).2.find 0).bind (·.outcome) = some (.response 2)) ∧
      ∃ s : TransactionManager ℕ, Reach (step 2) (fun _ _ => True) TransactionManager.init s ∧
        ¬ s.StopCompletes 2 := by
  constructor
  · exact Reach.exists_run [.createAutomatic, .setResponse 0 1] (by decide +kernel)
  · obtain ⟨s, hreach, h1, h2, h3⟩ : ∃ s, Reach (step 2) (fun _ _ => True) (init : TransactionManager ℕ) s ∧
        s.stopping = false ∧ s.running = true ∧
          ¬ ∀ t ∈ s.runningTransactions, t.outcome = none ∧ t.awaiter = some .release :=
      Reach.exists_run [.createAutomatic] (by decide +kernel)
    refine ⟨s, hreach, fun hc => ?_⟩
    have hi : s.Inv 2 := hreach.invariant Inv.init fun _ _ _ hi _ hs => hi.step hs
    obtain hr | hall := (stopCompletes_iff hi h1).mp hc
    · cases h2.symm.trans hr
    · exact h3 hall

end TransactionManager

end SrsRan.Async
