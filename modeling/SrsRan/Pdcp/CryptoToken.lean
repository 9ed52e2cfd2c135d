import SrsRan.Lib.Run
import Mathlib.Data.List.Perm.Basic

/-!
# Crypto tokens

`pdcp_crypto_token_manager` and `pdcp_crypto_token` with the calls of `pdcp_entity_rx` that use them, as threads that
interleave at the accesses to `tokens`, `was_set` and the event.  The counter has 32 bits and holds the number of live
tokens, less one while processing is stopped: the thread that brings it below zero sets the event.
-/

namespace SrsRan.Pdcp

open Lib.Run List

inductive SetOncePc where
  | test
  | set
  | mark
deriving DecidableEq

inductive ControlPc where
  | idle
  /-- in `stop` of the token manager -/
  | setting (pc : SetOncePc)
  /-- in `start` of the token manager, before the event is reset -/
  | reset
  /-- in `start` of the token manager, before the increment -/
  | increment
deriving DecidableEq

/-- The token manager and the tokens alive. -/
structure CryptoTokens where
  wasSet : Bool
  pendingCrypto : Bool
  tokens : ℕ
  stopped : Bool
  /-- `was_moved` of the token objects -/
  objects : List Bool
  /-- the destructors that have brought the counter below zero -/
  returning : List SetOncePc
  control : ControlPc
  /-- history: the processing of PDUs is stopped -/
  halted : Bool
  /-- history: how often the event was set since then -/
  sets : ℕ
deriving DecidableEq

/-- The steps of tokens and control. -/
inductive TokenAction where
  | create
  | move (i : ℕ)
  | destroy (i : ℕ)
  | setOnce (i : ℕ)
  | notifyPduProcessingStopped
  | restartPduProcessing
  | stop
  | control
deriving DecidableEq

inductive TokenFault where
  | notEnabled
  | assertion
deriving DecidableEq

namespace CryptoTokens

def init : CryptoTokens where
  wasSet := false
  pendingCrypto := false
  tokens := 0
  stopped := false
  objects := []
  returning := []
  control := .idle
  halted := false
  sets := 0

def fetchSub (tokens : ℕ) : ℕ := (tokens + (2 ^ 32 - 1)) % 2 ^ 32

variable (s : CryptoTokens)

def incrementToken : CryptoTokens := { s with tokens := (s.tokens + 1) % 2 ^ 32 }

/-- `return_token` before `set_once`, and whether that will be called. -/
def returnToken : Except TokenFault (Bool × CryptoTokens) :=
  if s.tokens = 2 ^ 32 - 1 then .error .assertion
  else .ok (s.tokens = 0, { s with tokens := fetchSub s.tokens })

/-- A step of `set_once`, and where the thread is if it has not returned. -/
def setOnce : SetOncePc → CryptoTokens × Option SetOncePc
  | .test => (s, if s.wasSet then none else some .set)
  | .set => ({ s with pendingCrypto := true, sets := s.sets + 1 }, some .mark)
  | .mark => ({ s with wasSet := true }, none)

def destroy (i : ℕ) : Except TokenFault CryptoTokens :=
  match s.objects[i]? with
  | none => .error .notEnabled
  | some true => .ok { s with objects := s.objects.eraseIdx i }
  | some false => do
    let (last, s) ← s.returnToken
    let s := { s with objects := s.objects.eraseIdx i }
    return if last then { s with returning := s.returning ++ [.test] } else s

def stopManager : Except TokenFault CryptoTokens := do
  let (last, s) ← s.returnToken
  return { s with control := if last then .setting .test else .idle, halted := true, sets := 0 }

/-- The next access of the control executor. -/
def controlStep : Except TokenFault CryptoTokens :=
  match s.control with
  | .idle => .error .notEnabled
  | .setting pc =>
    let r := s.setOnce pc
    .ok { r.1 with control := (r.2.map .setting).getD .idle }
  | .reset => .ok { s with pendingCrypto := false, control := .increment }
  | .increment => .ok { s.incrementToken with control := .idle, halted := false }

def step : TokenAction → Except TokenFault CryptoTokens
  | .create => .ok { s.incrementToken with objects := s.objects ++ [false] }
  | .move i =>
    match s.objects[i]? with
    | none => .error .notEnabled
    | some _ => .ok { s with objects := s.objects.set i true ++ [false] }
  | .destroy i => s.destroy i
  | .setOnce i =>
    match s.returning[i]? with
    | none => .error .notEnabled
    | some pc =>
      match s.setOnce pc with
      | (s, some pc') => .ok { s with returning := s.returning.set i pc' }
      | (s, none) => .ok { s with returning := s.returning.eraseIdx i }
  | .notifyPduProcessingStopped =>
    if s.control ≠ .idle then .error .notEnabled
    else if s.stopped then .ok s
    else s.stopManager
  | .restartPduProcessing =>
    if s.control ≠ .idle then .error .notEnabled
    else if s.stopped then .ok s
    else .ok { s with wasSet := false, control := .reset }
  | .stop =>
    if s.control ≠ .idle then .error .notEnabled
    else if s.stopped then .ok s
    else { s with stopped := true }.stopManager
  | .control => s.controlStep

def alive : ℕ := s.objects.count false

/-- Stops and restarts alternate; no token is created while stopped, and no object is moved twice. -/
def Client : TokenAction → Prop
  | .create => s.halted = false
  | .move i => s.objects[i]? = some false
  | .notifyPduProcessingStopped => s.halted = false ∧ s.stopped = false
  | .restartPduProcessing => s.halted = true ∧ s.stopped = false
  | .stop => s.stopped = false
  | _ => True

/-- No token is being returned, and no control call is in progress. -/
def Settled : Prop := s.returning = [] ∧ s.control = .idle

/-- The entity is not stopped while processing is, and the restart meets no other call. -/
def Safe : TokenAction → Prop
  | .create => s.alive + 2 < 2 ^ 32
  | .stop => s.halted = false
  | .restartPduProcessing => s.Settled
  | .destroy i => s.control = .reset ∨ s.control = .increment → s.objects[i]? = some false → s.alive ≠ 1
  | _ => True

instance (s : CryptoTokens) : (a : TokenAction) → Decidable (s.Client a)
  | .create => inferInstanceAs (Decidable (_ = _))
  | .move _ => inferInstanceAs (Decidable (_ = _))
  | .notifyPduProcessingStopped => inferInstanceAs (Decidable (_ ∧ _))
  | .restartPduProcessing => inferInstanceAs (Decidable (_ ∧ _))
  | .stop => inferInstanceAs (Decidable (_ = _))
  | .destroy _ => .isTrue trivial
  | .setOnce _ => .isTrue trivial
  | .control => .isTrue trivial

instance (s : CryptoTokens) : (a : TokenAction) → Decidable (s.Safe a)
  | .create => inferInstanceAs (Decidable (_ < _))
  | .stop => inferInstanceAs (Decidable (_ = _))
  | .restartPduProcessing => inferInstanceAs (Decidable (_ ∧ _))
  | .destroy _ => inferInstanceAs (Decidable (_ → _))
  | .move _ => .isTrue trivial
  | .setOnce _ => .isTrue trivial
  | .notifyPduProcessingStopped => .isTrue trivial
  | .control => .isTrue trivial

/-! ### The phases of the manager -/

/-- The one thread that is in `set_once`, at `pc`. -/
def Setter (pc : SetOncePc) : Prop :=
  (s.returning = [pc] ∧ s.control = .idle) ∨ (s.returning = [] ∧ s.control = .setting pc)

/-- The phases of the drain signal. -/
inductive Phase (s : CryptoTokens) : Prop
  | running : s.halted = false → s.control = .idle → s.returning = [] → s.pendingCrypto = false → s.wasSet = false →
      s.sets ≤ 1 → Phase s
  /-- processing is stopped, and tokens are left -/
  | draining : s.halted = true → s.control = .idle → s.returning = [] → s.pendingCrypto = false → s.wasSet = false →
      s.sets = 0 → 0 < s.alive → Phase s
  /-- the last token has been returned, by a destructor or by the stop itself -/
  | signalling (pc : SetOncePc) : s.halted = true → s.Setter pc → s.pendingCrypto = decide (pc = .mark) →
      s.wasSet = false → s.sets = (if pc = .mark then 1 else 0) → s.alive = 0 → Phase s
  | signalled : s.halted = true → s.control = .idle → s.returning = [] → s.pendingCrypto = true → s.wasSet = true →
      s.sets = 1 → s.alive = 0 → Phase s
  | resetting : s.halted = true → s.control = .reset → s.returning = [] → (s.pendingCrypto = true → s.alive = 0) →
      s.wasSet = false → s.sets ≤ 1 → Phase s
  | incrementing : s.halted = true → s.control = .increment → s.returning = [] → s.pendingCrypto = false →
      s.wasSet = false → s.sets ≤ 1 → Phase s

/-- What all reachable states satisfy. -/
structure Inv (s : CryptoTokens) : Prop where
  tokens : s.halted = false → s.tokens = s.alive
  tokens_halted : s.halted = true → s.tokens = fetchSub s.alive
  alive_lt : s.alive + 1 < 2 ^ 32
  phase : s.Phase

lemma Inv.init : init.Inv where
  tokens _ := rfl
  tokens_halted h := by cases h
  alive_lt := by decide
  phase := .running rfl rfl rfl rfl rfl (Nat.zero_le 1)

variable {s s' : CryptoTokens}

/-! ### The token objects -/

lemma count_eraseIdx {l : List Bool} {i : ℕ} {b : Bool} (h : l[i]? = some b) :
    (b :: l.eraseIdx i).count false = l.count false := by
  obtain ⟨hlt, rfl⟩ := List.getElem?_eq_some_iff.mp h
  exact (getElem_cons_eraseIdx_perm hlt).count_eq false

lemma count_moved {l : List Bool} {i : ℕ} (h : l[i]? = some false) :
    (l.set i true ++ [false]).count false = l.count false := by
  obtain ⟨hlt, hi⟩ := List.getElem?_eq_some_iff.mp h
  have hpos : 0 < l.count false := count_pos_iff.mpr (hi ▸ List.getElem_mem hlt)
  rw [count_append, List.count_set hlt, hi]
  simp
  omega

lemma Phase.of_running (h : s.Phase) (hh : s.halted = false) :
    s.control = .idle ∧ s.returning = [] ∧ s.pendingCrypto = false ∧ s.wasSet = false ∧ s.sets ≤ 1 := by
  cases h with
  | running _ h2 h3 h4 h5 h6 => exact ⟨h2, h3, h4, h5, h6⟩
  | draining h1 | signalling _ h1 | signalled h1 | resetting h1 | incrementing h1 =>
    rw [hh] at h1
    cases h1

lemma Phase.objects (h : s.Phase) (tokens : ℕ) {objects : List Bool}
    (ha : s.halted = true → (objects.count false = 0 ↔ s.alive = 0)) :
    Phase { s with tokens := tokens, objects := objects } := by
  cases h with
  | running h1 h2 h3 h4 h5 h6 => exact .running h1 h2 h3 h4 h5 h6
  | draining h1 h2 h3 h4 h5 h6 h7 =>
    refine .draining h1 h2 h3 h4 h5 h6 (Nat.pos_of_ne_zero fun h0 => ?_)
    exact absurd ((ha h1).mp h0) h7.ne'
  | signalling pc h1 h2 h3 h4 h5 h6 => exact .signalling pc h1 h2 h3 h4 h5 ((ha h1).mpr h6)
  | signalled h1 h2 h3 h4 h5 h6 h7 => exact .signalled h1 h2 h3 h4 h5 h6 ((ha h1).mpr h7)
  | resetting h1 h2 h3 h4 h5 h6 => exact .resetting h1 h2 h3 (fun hp => (ha h1).mpr (h4 hp)) h5 h6
  | incrementing h1 h2 h3 h4 h5 h6 => exact .incrementing h1 h2 h3 h4 h5 h6

lemma Inv.create (h : s.Inv) (hc : s.Client .create) (hs : s.Safe .create) :
    Inv { s.incrementToken with objects := s.objects ++ [false] } := by
  have hhalted : s.halted = false := hc
  have hlt : s.alive + 2 < 2 ^ 32 := hs
  have halive : (s.objects ++ [false]).count false = s.alive + 1 := by simp [alive]
  have htok := h.tokens hhalted
  refine ⟨fun _ => ?_, fun hh => ?_, ?_, h.phase.objects _ fun hh => ?_⟩
  · show (s.tokens + 1) % 2 ^ 32 = (s.objects ++ [false]).count false
    omega
  · cases hhalted.symm.trans hh
  · show (s.objects ++ [false]).count false + 1 < 2 ^ 32
    omega
  · cases hhalted.symm.trans hh

lemma Inv.objects (h : s.Inv) {objects : List Bool} (ha : objects.count false = s.alive) :
    Inv { s with objects := objects } := by
  refine ⟨fun hh => ?_, fun hh => ?_, ?_, h.phase.objects s.tokens fun _ => by rw [ha]⟩
  · exact (h.tokens hh).trans ha.symm
  · exact (h.tokens_halted hh).trans (congrArg fetchSub ha.symm)
  · show objects.count false + 1 < 2 ^ 32
    rw [ha]
    exact h.alive_lt

lemma Inv.returnToken (h : s.Inv) (last : Bool)
    (hlast : (s.halted = false ∧ (last = true ↔ s.alive = 0)) ∨
      (s.halted = true ∧ 0 < s.alive ∧ (last = true ↔ s.alive = 1))) :
    s.returnToken = .ok (last, { s with tokens := fetchSub s.tokens }) := by
  have hlt := h.alive_lt
  have key : s.tokens ≠ 2 ^ 32 - 1 ∧ (s.tokens = 0 ↔ last = true) := by
    obtain ⟨hh, hl⟩ | ⟨hh, hpos, hl⟩ := hlast
    · rw [h.tokens hh, hl]
      exact ⟨by omega, .rfl⟩
    · rw [h.tokens_halted hh, hl]
      unfold fetchSub
      exact ⟨by omega, by omega⟩
  have hdec : decide (s.tokens = 0) = last := by
    rw [Bool.eq_iff_iff, decide_eq_true_iff]
    exact key.2
  rw [CryptoTokens.returnToken, if_neg key.1, hdec]

lemma Inv.fetchSub_alive (h : s.Inv) {n : ℕ} (hn : n + 1 = s.alive) :
    (s.halted = false → fetchSub s.tokens = n) ∧ (s.halted = true → fetchSub s.tokens = fetchSub n) := by
  have hlt := h.alive_lt
  refine ⟨fun hh => ?_, fun hh => congrArg fetchSub ?_⟩
  · rw [h.tokens hh]
    unfold fetchSub
    omega
  · rw [h.tokens_halted hh]
    unfold fetchSub
    omega

lemma Inv.destroy (h : s.Inv) {i : ℕ} (hsafe : s.Safe (.destroy i)) (hs : s.destroy i = .ok s') : s'.Inv := by
  unfold CryptoTokens.destroy at hs
  split at hs
  · cases hs
  next hi =>
    cases hs
    have hcount := count_eraseIdx hi
    exact h.objects (by simpa [alive] using hcount)
  next hi =>
    have hcount : (s.objects.eraseIdx i).count false + 1 = s.alive := by simpa [alive] using count_eraseIdx hi
    have hlt := h.alive_lt
    obtain ⟨htok, htok'⟩ := h.fetchSub_alive hcount
    have hlt' : (s.objects.eraseIdx i).count false + 1 < 2 ^ 32 := by omega
    by_cases hlast : s.halted = true ∧ s.alive = 1
    · -- the last token, of a manager that is draining
      obtain ⟨hh, h1⟩ := hlast
      rw [h.returnToken true (.inr ⟨hh, by omega, by simp [h1]⟩), ok_bind] at hs
      simp only [if_true] at hs
      cases hs
      refine ⟨htok, htok', hlt', ?_⟩
      cases h.phase with
      | running hr => rw [hh] at hr; cases hr
      | draining _ h2 h3 h4 h5 h6 _ =>
        refine .signalling .test hh (.inl ⟨?_, h2⟩) h4 h5 h6 ?_
        · rw [h3]
          rfl
        · show (s.objects.eraseIdx i).count false = 0
          omega
      | signalling _ _ _ _ _ _ h0 => omega
      | signalled _ _ _ _ _ _ h0 => omega
      | resetting _ hc => exact absurd h1 (hsafe (.inl hc) hi)
      | incrementing _ hc => exact absurd h1 (hsafe (.inr hc) hi)
    · have hno : s.returnToken = .ok (false, { s with tokens := fetchSub s.tokens }) := by
        refine h.returnToken false ?_
        cases hh : s.halted with
        | true => exact .inr ⟨rfl, by omega, by simpa using fun h1 => hlast ⟨hh, h1⟩⟩
        | false => exact .inl ⟨rfl, by simp; omega⟩
      rw [hno, ok_bind] at hs
      simp only [Bool.false_eq_true, if_false] at hs
      cases hs
      refine ⟨htok, htok', hlt', h.phase.objects _ fun hh => ?_⟩
      have : s.alive ≠ 1 := fun h1 => hlast ⟨hh, h1⟩
      omega

/-! ### `set_once` -/

lemma Phase.of_setter {pc : SetOncePc} (h : s.Phase) (hset : pc ∈ s.returning ∨ s.control = .setting pc) :
    s.Setter pc ∧ s.halted = true ∧ s.pendingCrypto = decide (pc = .mark) ∧ s.wasSet = false ∧
      s.sets = (if pc = .mark then 1 else 0) ∧ s.alive = 0 := by
  cases h with
  | running _ h2 h3 | draining _ h2 h3 | signalled _ h2 h3 | resetting _ h2 h3 | incrementing _ h2 h3 =>
    simp [h2, h3] at hset
  | signalling pc' h1 h2 h3 h4 h5 h6 =>
    have hpc : pc' = pc := by
      obtain ⟨hr, hc⟩ | ⟨hr, hc⟩ := h2
      · simpa [hr, hc, eq_comm] using hset
      · simpa [hr, hc] using hset
    subst hpc
    exact ⟨h2, h1, h3, h4, h5, h6⟩

lemma setOnce_frame (pc : SetOncePc) :
    (s.setOnce pc).1.returning = s.returning ∧ (s.setOnce pc).1.control = s.control := by
  cases pc <;> exact ⟨rfl, rfl⟩

section

variable (h : s.Inv)
include h

lemma Inv.setOnce {pc : SetOncePc} (hset : pc ∈ s.returning ∨ s.control = .setting pc)
    {returning : List SetOncePc} {control : ControlPc}
    (hnext : ∀ pc', (s.setOnce pc).2 = some pc' →
      (returning = [pc'] ∧ control = .idle) ∨ (returning = [] ∧ control = .setting pc'))
    (hend : (s.setOnce pc).2 = none → returning = [] ∧ control = .idle) :
    Inv { (s.setOnce pc).1 with returning := returning, control := control } := by
  obtain ⟨-, h1, h2, h3, h4, h5⟩ := h.phase.of_setter hset
  cases pc with
  | test =>
    have hstep : s.setOnce .test = (s, some .set) := by simp [CryptoTokens.setOnce, h3]
    rw [hstep] at hnext ⊢
    exact { h with phase := .signalling .set h1 (hnext .set rfl) h2 h3 h4 h5 }
  | set =>
    refine { h with phase := .signalling .mark h1 (hnext .mark rfl) rfl h3 ?_ h5 }
    show s.sets + 1 = 1
    rw [h4]
    rfl
  | mark =>
    obtain ⟨hr, hc⟩ := hend rfl
    exact { h with phase := .signalled h1 hc hr h2 rfl h4 h5 }

lemma Inv.returningStep {i : ℕ} (hs : s.step (.setOnce i) = .ok s') : s'.Inv := by
  simp only [step] at hs
  split at hs
  · cases hs
  next pc hi =>
    have hmem : pc ∈ s.returning := List.mem_of_getElem? hi
    obtain ⟨hr, hc⟩ := setOnce_frame pc
    obtain ⟨⟨hpc, hidle⟩ | ⟨hpc, -⟩, -⟩ := h.phase.of_setter (.inl hmem)
    · rw [hpc] at hi
      obtain rfl : i = 0 := by
        obtain ⟨hlt, -⟩ := List.getElem?_eq_some_iff.mp hi
        simpa using hlt
      rw [hpc] at hr
      rw [hidle] at hc
      split at hs
      next s1 pc' hpc' =>
        cases hs
        have h1 : (s.setOnce pc).1 = s1 := by rw [hpc']
        have h2 : (s.setOnce pc).2 = some pc' := by rw [hpc']
        subst h1
        refine h.setOnce (.inl hmem) (fun pc'' h3 => .inl ⟨?_, hc⟩) fun h3 => ?_
        · rw [hr, Option.some.inj (h2.symm.trans h3)]
          rfl
        · rw [h2] at h3
          cases h3
      next s1 hpc' =>
        cases hs
        have h1 : (s.setOnce pc).1 = s1 := by rw [hpc']
        have h2 : (s.setOnce pc).2 = none := by rw [hpc']
        subst h1
        refine h.setOnce (.inl hmem) (fun pc'' h3 => ?_) fun _ => ⟨?_, hc⟩
        · rw [h2] at h3
          cases h3
        · rw [hr]
          rfl
    · rw [hpc] at hmem
      cases hmem

/-! ### The control thread -/

lemma Inv.controlStep (hs : s.controlStep = .ok s') : s'.Inv := by
  unfold CryptoTokens.controlStep at hs
  split at hs
  · cases hs
  next pc hpc =>
    cases hs
    obtain ⟨⟨-, hidle⟩ | ⟨hnil, -⟩, -⟩ := h.phase.of_setter (.inr hpc)
    · rw [hidle] at hpc
      cases hpc
    · have hr : (s.setOnce pc).1.returning = [] := (setOnce_frame pc).1.trans hnil
      refine h.setOnce (.inr hpc) (fun pc' hpc' => .inr ⟨hr, ?_⟩) fun hend => ⟨hr, ?_⟩
      · rw [hpc']
        rfl
      · rw [hend]
        rfl
  next hc =>
    cases hs
    refine { h with phase := ?_ }
    cases h.phase with
    | resetting h1 _ h3 _ h5 h6 => exact .incrementing h1 rfl h3 rfl h5 h6
    | running _ h2 | draining _ h2 | signalled _ h2 | incrementing _ h2 =>
      rw [hc] at h2
      cases h2
    | signalling _ _ h2 =>
      obtain ⟨-, h2⟩ | ⟨-, h2⟩ := h2
      · rw [hc] at h2
        cases h2
      · rw [hc] at h2
        cases h2
  next hc =>
    cases hs
    have hlt := h.alive_lt
    cases h.phase with
    | incrementing h1 _ h3 h4 h5 h6 =>
      have htok := h.tokens_halted h1
      refine ⟨fun _ => ?_, nofun, hlt, .running rfl rfl h3 h4 h5 h6⟩
      show (s.tokens + 1) % 2 ^ 32 = s.alive
      unfold fetchSub at htok
      omega
    | running _ h2 | draining _ h2 | signalled _ h2 | resetting _ h2 =>
      rw [hc] at h2
      cases h2
    | signalling _ _ h2 =>
      obtain ⟨-, h2⟩ | ⟨-, h2⟩ := h2
      · rw [hc] at h2
        cases h2
      · rw [hc] at h2
        cases h2

lemma Inv.stopped (stopped : Bool) : Inv { s with stopped := stopped } := by
  refine { h with phase := ?_ }
  cases h.phase with
  | running h1 h2 h3 h4 h5 h6 => exact .running h1 h2 h3 h4 h5 h6
  | draining h1 h2 h3 h4 h5 h6 h7 => exact .draining h1 h2 h3 h4 h5 h6 h7
  | signalling pc h1 h2 h3 h4 h5 h6 => exact .signalling pc h1 h2 h3 h4 h5 h6
  | signalled h1 h2 h3 h4 h5 h6 h7 => exact .signalled h1 h2 h3 h4 h5 h6 h7
  | resetting h1 h2 h3 h4 h5 h6 => exact .resetting h1 h2 h3 h4 h5 h6
  | incrementing h1 h2 h3 h4 h5 h6 => exact .incrementing h1 h2 h3 h4 h5 h6

lemma Inv.stopManager_eq (hh : s.halted = false) : s.stopManager = .ok { s with
      tokens := fetchSub s.tokens, control := if s.alive = 0 then .setting .test else .idle, halted := true,
      sets := 0 } := by
  rw [stopManager, h.returnToken (decide (s.alive = 0)) (.inl ⟨hh, decide_eq_true_iff⟩), ok_bind]
  simp only [decide_eq_true_eq]
  rfl

lemma Inv.stopManager (hh : s.halted = false) (hs : s.stopManager = .ok s') : s'.Inv := by
  obtain ⟨hc, hr, hp, hw, -⟩ := h.phase.of_running hh
  rw [h.stopManager_eq hh] at hs
  cases hs
  have halive : s.objects.count false = s.alive := rfl
  refine ⟨nofun, fun _ => ?_, ?_, ?_⟩
  · exact (congrArg fetchSub (h.tokens hh)).trans (congrArg fetchSub halive.symm)
  · show s.objects.count false + 1 < 2 ^ 32
    exact h.alive_lt
  · by_cases h0 : s.objects.count false = 0
    · exact .signalling .test rfl (.inr ⟨hr, if_pos h0⟩) hp hw rfl h0
    · exact .draining rfl (if_neg h0) hr hp hw rfl (Nat.pos_of_ne_zero h0)

lemma Inv.restart (hh : s.halted = true) (hsettled : s.Settled) :
    Inv { s with wasSet := false, control := .reset } := by
  refine { h with phase := ?_ }
  cases h.phase with
  | running h1 =>
    rw [hh] at h1
    cases h1
  | draining h1 _ h3 h4 _ h6 =>
    refine .resetting h1 rfl h3 (fun hp => ?_) rfl (by show s.sets ≤ 1; omega)
    have hp' : s.pendingCrypto = true := hp
    rw [h4] at hp'
    cases hp'
  | signalling _ _ h2 =>
    obtain ⟨h2, -⟩ | ⟨-, h2⟩ := h2
    · rw [hsettled.1] at h2
      cases h2
    · rw [hsettled.2] at h2
      cases h2
  | signalled h1 _ h3 _ _ h6 h7 => exact .resetting h1 rfl h3 (fun _ => h7) rfl (le_of_eq h6)
  | resetting _ h2 | incrementing _ h2 =>
    rw [hsettled.2] at h2
    cases h2

end

lemma Inv.step {a : TokenAction} (h : s.Inv) (hc : s.Client a) (hsafe : s.Safe a) (hs : s.step a = .ok s') :
    s'.Inv := by
  cases a with
  | create =>
    cases hs
    exact h.create hc hsafe
  | move i =>
    simp only [CryptoTokens.step] at hs
    split at hs
    · cases hs
    · cases hs
      exact h.objects (count_moved hc)
  | destroy i => exact h.destroy hsafe hs
  | setOnce i => exact h.returningStep hs
  | control => exact h.controlStep hs
  | notifyPduProcessingStopped =>
    simp only [CryptoTokens.step] at hs
    split at hs
    · cases hs
    · split at hs
      · cases hs
        exact h
      · exact h.stopManager hc.1 hs
  | restartPduProcessing =>
    simp only [CryptoTokens.step] at hs
    split at hs
    · cases hs
    · split at hs
      · cases hs
        exact h
      · cases hs
        exact h.restart hc.1 hsafe
  | stop =>
    simp only [CryptoTokens.step] at hs
    split at hs
    · cases hs
    · split at hs
      · cases hs
        exact h
      · exact (h.stopped true).stopManager hsafe hs

lemma Inv.no_assertion {a : TokenAction} (h : s.Inv) (hc : s.Client a) (hsafe : s.Safe a) :
    s.step a ≠ .error .assertion := by
  cases a with
  | create => simp [CryptoTokens.step]
  | move i =>
    simp only [CryptoTokens.step]
    split <;> simp
  | destroy i =>
    simp only [CryptoTokens.step, CryptoTokens.destroy]
    split
    · simp
    · simp
    next hi =>
      have hcount : (s.objects.eraseIdx i).count false + 1 = s.alive := by simpa [alive] using count_eraseIdx hi
      obtain ⟨last, hlast⟩ : ∃ last, s.returnToken = .ok (last, { s with tokens := fetchSub s.tokens }) := by
        by_cases hh : s.halted = true
        · exact ⟨decide (s.alive = 1), h.returnToken _ (.inr ⟨hh, by omega, decide_eq_true_iff⟩)⟩
        · exact ⟨decide (s.alive = 0), h.returnToken _ (.inl ⟨by simpa using hh, decide_eq_true_iff⟩)⟩
      rw [hlast, ok_bind]
      intro he
      cases he
  | setOnce i =>
    simp only [CryptoTokens.step]
    split
    · simp
    · split <;> simp
  | control =>
    simp only [CryptoTokens.step, CryptoTokens.controlStep]
    split <;> simp
  | notifyPduProcessingStopped =>
    simp only [CryptoTokens.step]
    split
    · simp
    · split
      · simp
      · rw [h.stopManager_eq hc.1]
        simp
  | restartPduProcessing =>
    simp only [CryptoTokens.step]
    split
    · simp
    · split <;> simp
  | stop =>
    simp only [CryptoTokens.step]
    split
    · simp
    · split
      · simp
      · rw [(h.stopped true).stopManager_eq hsafe]
        simp

lemma Phase.pending (h : s.Phase) :
    (s.pendingCrypto = true → s.halted = true ∧ s.alive = 0) ∧ s.sets ≤ 1 ∧
      (s.control = .idle → s.returning = [] → s.halted = true → s.alive = 0 → s.pendingCrypto = true) := by
  cases h with
  | running h1 h2 h3 h4 h5 h6 => exact ⟨by simp [h4], h6, by simp [h1]⟩
  | draining h1 h2 h3 h4 h5 h6 h7 => exact ⟨by simp [h4], by omega, fun _ _ _ h0 => by omega⟩
  | signalling pc h1 h2 h3 h4 h5 h6 =>
    refine ⟨fun _ => ⟨h1, h6⟩, by split at h5 <;> omega, fun hc hr => ?_⟩
    obtain ⟨h2, -⟩ | ⟨-, h2⟩ := h2
    · rw [hr] at h2
      cases h2
    · rw [hc] at h2
      cases h2
  | signalled h1 h2 h3 h4 h5 h6 h7 => exact ⟨fun _ => ⟨h1, h7⟩, le_of_eq h6, fun _ _ _ _ => h4⟩
  | resetting h1 h2 h3 h4 h5 h6 => exact ⟨fun hp => ⟨h1, h4 hp⟩, h6, by simp [h2]⟩
  | incrementing h1 h2 h3 h4 h5 h6 => exact ⟨by simp [h4], h6, by simp [h2]⟩

/-- **The drain signal.** Under `Safe` the event is set once per stop, when no token is alive. -/
theorem crypto_drain_signal (h : Reach step (fun s a => s.Client a ∧ s.Safe a) init s) :
    (∀ a, s.Client a → s.Safe a → s.step a ≠ .error .assertion) ∧
      (s.pendingCrypto = true → s.halted = true ∧ s.alive = 0) ∧ s.sets ≤ 1 ∧
      (s.control = .idle → s.returning = [] → (s.pendingCrypto = true ↔ s.halted = true ∧ s.alive = 0)) := by
  have hi : s.Inv := h.invariant Inv.init fun _ _ _ hi hc hs => hi.step hc.1 hc.2 hs
  obtain ⟨h1, h2, h3⟩ := hi.phase.pending
  exact ⟨fun a hc hsafe => hi.no_assertion hc hsafe, h1, h2, fun hc hr => ⟨h1, fun hh => h3 hc hr hh.1 hh.2⟩⟩

/-- A token is moved and returned after processing was stopped. -/
theorem crypto_drain_signal_run : ∃ s, Reach step (fun s a => s.Client a ∧ s.Safe a) init s ∧ s.alive = 0 ∧
    (s.pendingCrypto = true ↔ s.halted = true ∧ s.alive = 0) := by
  obtain ⟨s, hreach, h0, hc, hr⟩ : ∃ s, Reach step (fun s a => s.Client a ∧ s.Safe a) init s ∧
      s.alive = 0 ∧ s.control = .idle ∧ s.returning = [] :=
    Reach.exists_run [.create, .move 0, .notifyPduProcessingStopped, .destroy 0, .destroy 0, .setOnce 0, .setOnce 0,
      .setOnce 0] (by decide +kernel)
  exact ⟨s, hreach, h0, (crypto_drain_signal hreach).2.2.2 hc hr⟩

/-- The entity is stopped after its processing: the assertion fails, or the event is set while a token is alive. -/
theorem stop_after_notify :
    (∃ s, Reach step Client init s ∧ s.Client .stop ∧ s.step .stop = .error .assertion) ∧
      ∃ s, Reach step Client init s ∧ s.pendingCrypto = true ∧ s.alive = 1 :=
  ⟨Reach.exists_run [.notifyPduProcessingStopped, .control, .control, .control] (by decide +kernel),
    Reach.exists_run [.create, .notifyPduProcessingStopped, .stop, .control, .control] (by decide +kernel)⟩

end CryptoTokens

end SrsRan.Pdcp
