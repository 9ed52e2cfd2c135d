import Mathlib.Tactic.Ring

/-!
# Runs of a system whose steps can fail

A component is a state together with a function `step` that executes one action; a step either fails (the process stops) or
gives the next state.  `Reach step C s₀ s` says that some run from `s₀` to `s` consists of steps that satisfy the condition
`C`, and `Inevitable step A P s` that every schedule of the actions `A` from `s` leads to `P`.
-/

namespace SrsRan.Lib.Run

section Bind

variable {ε α β : Type}

lemma ok_bind (a : α) (f : α → Except ε β) : (Except.ok a >>= f) = f a := rfl

lemma error_bind (e : ε) (f : α → Except ε β) : (Except.error e >>= f) = .error e := rfl

lemma bind_eq_ok {x : Except ε α} {f : α → Except ε β} {b : β} : (x >>= f) = .ok b ↔ ∃ a, x = .ok a ∧ f a = .ok b := by
  cases x with
  | error e => exact ⟨fun h => (nomatch h), fun ⟨a, h, _⟩ => (nomatch h)⟩
  | ok a =>
    refine ⟨fun h => ⟨a, rfl, h⟩, ?_⟩
    rintro ⟨a', h, h'⟩
    cases h
    exact h'

lemma eq_ok_of_toOption {x : Except ε α} {a : α} (h : x.toOption = some a) : x = .ok a := by
  cases x with
  | error _ => cases h
  | ok _ => exact congrArg Except.ok (Option.some.inj h)

lemma bind_eq_error {x : Except ε α} {f : α → Except ε β} {e : ε} :
    (x >>= f) = .error e ↔ x = .error e ∨ ∃ a, x = .ok a ∧ f a = .error e := by
  cases x with
  | error e' =>
    refine ⟨fun h => .inl ?_, ?_⟩
    · have h' : (Except.error e' : Except ε β) = .error e := h
      cases h'
      rfl
    · rintro (h | ⟨a, h, _⟩)
      · cases h; rfl
      · cases h
  | ok a =>
    refine ⟨fun h => .inr ⟨a, rfl, h⟩, ?_⟩
    rintro (h | ⟨a', h, h'⟩)
    · cases h
    · cases h; exact h'

end Bind

section Reach

variable {ε σ α : Type} (step : σ → α → Except ε σ)

/-- The states at the end of the runs from `s₀` whose steps all satisfy `C`. -/
inductive Reach (C : σ → α → Prop) (s₀ : σ) : σ → Prop
  | init : Reach C s₀ s₀
  | step {s s' : σ} {a : α} : Reach C s₀ s → C s a → step s a = .ok s' → Reach C s₀ s'

variable {step} {C : σ → α → Prop} {s₀ s : σ}

/-- **Invariant rule.** -/
theorem Reach.invariant {P : σ → Prop} (h : Reach step C s₀ s) (h0 : P s₀)
    (hs : ∀ s a s', P s → C s a → step s a = .ok s' → P s') : P s := by
  induction h with
  | init => exact h0
  | step _ hc hstep ih => exact hs _ _ _ ih hc hstep

/-- The run of a list of actions, checking the condition of each. -/
def run (step : σ → α → Except ε σ) (c : σ → α → Bool) : σ → List α → Option σ
  | s, [] => some s
  | s, a :: rest =>
    if c s a then
      match step s a with
      | .ok s' => run step c s' rest
      | .error _ => none
    else none

lemma Reach.of_run {c : σ → α → Bool} (hc : ∀ s a, c s a = true → C s a) {as : List α} {s' : σ}
    (h : Reach step C s₀ s) (hr : run step c s as = some s') : Reach step C s₀ s' := by
  induction as generalizing s with
  | nil => cases hr; exact h
  | cons a rest ih =>
    simp only [run] at hr
    split at hr
    next hca =>
      split at hr
      next s1 hs => exact ih (.step h (hc _ _ hca) hs) hr
      · cases hr
    · cases hr

lemma Reach.exists_of_run {c : σ → α → Bool} (hc : ∀ s a, c s a = true → C s a) {as : List α} {p : σ → Bool}
    (hr : (run step c s₀ as).any p = true) : ∃ s, Reach step C s₀ s ∧ p s = true := by
  obtain ⟨s, hs, hp⟩ := (Option.any_eq_true p _).mp hr
  exact ⟨s, .of_run hc .init hs, hp⟩

lemma Reach.exists_run [∀ s a, Decidable (C s a)] {P : σ → Prop} [DecidablePred P] (as : List α)
    (hr : (run step (fun s a => decide (C s a)) s₀ as).any (fun s => decide (P s)) = true) :
    ∃ s, Reach step C s₀ s ∧ P s := by
  obtain ⟨s, hs, hp⟩ := Reach.exists_of_run (fun _ _ h => of_decide_eq_true h) hr
  exact ⟨s, hs, of_decide_eq_true hp⟩

/-- `P` holds of every step of the run of a list of actions, which ends with the first step that fails. -/
def Along (step : σ → α → Except ε σ) (P : σ → α → σ → Prop) : σ → List α → Prop
  | _, [] => True
  | s, a :: rest => ∀ s', step s a = .ok s' → P s a s' ∧ Along step P s' rest

/-- **Equivalence rule.**  Two properties of steps agree along every run if they agree on the steps from the states with
an invariant that the steps with the second one keep. -/
theorem Along.iff {P Q : σ → α → σ → Prop} {I : σ → Prop}
    (hPQ : ∀ s a s', I s → step s a = .ok s' → (P s a s' ↔ Q s a s'))
    (hI : ∀ s a s', I s → step s a = .ok s' → Q s a s' → I s') (hs : I s) (as : List α) :
    Along step P s as ↔ Along step Q s as := by
  induction as generalizing s with
  | nil => exact Iff.rfl
  | cons a rest ih =>
    refine forall₂_congr fun s' hstep => ?_
    rw [hPQ s a s' hs hstep]
    exact and_congr_right fun hQ => ih (hI s a s' hs hstep hQ)

end Reach

section Inevitable

variable {ε σ α : Type} (step : σ → α → Except ε σ)

/-- Every schedule of actions that satisfy `A` leads to `P`. -/
inductive Inevitable (A : σ → α → Prop) (P : σ → Prop) : σ → Prop
  | now {s : σ} : P s → Inevitable A P s
  | later {s : σ} : (∃ a s', A s a ∧ step s a = .ok s') →
      (∀ a s', A s a → step s a = .ok s' → Inevitable A P s') → Inevitable A P s

variable {step} {A : σ → α → Prop} {P I : σ → Prop}

/-- **Measure rule.** The actions keep `I` and decrease the measure, and one is enabled unless `P` holds. -/
theorem Inevitable.of_measure (μ : σ → ℕ) (hI : ∀ s a s', I s → A s a → step s a = .ok s' → I s' ∧ μ s' < μ s)
    (hP : ∀ s, I s → P s ∨ ∃ a s', A s a ∧ step s a = .ok s') {s : σ} (h : I s) : Inevitable step A P s := by
  induction hn : μ s using Nat.strongRecOn generalizing s with
  | _ n ih =>
    obtain hp | hen := hP s h
    · exact .now hp
    · refine .later hen fun a s' ha hs => ?_
      obtain ⟨h1, h2⟩ := hI s a s' h ha hs
      exact ih (μ s') (hn ▸ h2) h1 rfl

/-- **Trap rule.**  What never satisfies `P` and can go on forever does not lead to `P`. -/
theorem Inevitable.not_of_trap (hI : ∀ s, I s → ¬ P s ∧ ∃ a s', A s a ∧ step s a = .ok s' ∧ I s') {s : σ} (h : I s) :
    ¬ Inevitable step A P s := by
  intro hP
  induction hP with
  | now hp => exact (hI _ h).1 hp
  | later _ _ ih =>
    obtain ⟨-, a, s', ha, hs, h'⟩ := hI _ h
    exact ih a s' ha hs h'

end Inevitable

end SrsRan.Lib.Run
