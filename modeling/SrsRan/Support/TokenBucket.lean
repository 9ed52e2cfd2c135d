import SrsRan.Lib.Run

/-!
# The token bucket of the rate limiter

`token_bucket` keeps its content in 32 bits, takes a signed difference for the content that a call of `consume` leaves, and
adds at a refill without widening.  `step` is the code, and `idealStep` the bucket over unbounded numbers.
-/

namespace SrsRan.Support

open Lib.Run

/-- The configuration, with the assertions of the constructor. -/
structure TokenBucketConfig where
  refillToken : ℕ
  maxTokens : ℕ
  refillToken_pos : 0 < refillToken
  refillToken_le : refillToken ≤ maxTokens
  maxTokens_lt : maxTokens < 2 ^ 32

/-- The bucket, the last result of `consume`, and the totals so far. -/
structure TokenBucket where
  tokensInBucket : ℕ
  refillTimerRunning : Bool := true
  stopped : Bool := false
  accepted : Bool := false
  consumed : ℕ := 0
  refills : ℕ := 0
deriving DecidableEq

inductive BucketAction where
  | consume (tokens : Fin (2 ^ 32))
  | expiry
  | stop

/-- `int32_t tokens_left`: the difference of two `uint32_t`, converted -/
def tokensLeft (tokensInBucket tokens : ℕ) : ℤ := ((tokensInBucket : ℤ) - tokens).bmod (2 ^ 32)

namespace TokenBucket

variable (cfg : TokenBucketConfig) (s : TokenBucket)

def init : TokenBucket := { tokensInBucket := cfg.maxTokens }

/-- The end of a successful `consume`, which restarts the timer if it does not run -/
def take (tokens left : ℕ) : TokenBucket :=
  { s with tokensInBucket := left, refillTimerRunning := true, accepted := true, consumed := s.consumed + tokens }

def consume (tokens : ℕ) : TokenBucket :=
  if s.stopped then { s with accepted := false }
  else if tokensLeft s.tokensInBucket tokens < 0 then { s with accepted := false }
  else s.take tokens (tokensLeft s.tokensInBucket tokens).toNat

/-- `refill`; the timer is run again unless the bucket is full. -/
def refill (tokensAdded : ℕ) : TokenBucket :=
  if s.stopped then s
  else
    let tokensInBucket := min cfg.maxTokens tokensAdded
    { s with tokensInBucket, refillTimerRunning := decide (tokensInBucket ≠ cfg.maxTokens), refills := s.refills + 1 }

def step : BucketAction → Except Unit TokenBucket
  | .consume tokens => .ok (s.consume tokens)
  | .expiry =>
    if s.refillTimerRunning then .ok (s.refill cfg ((s.tokensInBucket + cfg.refillToken) % 2 ^ 32)) else .error ()
  | .stop => .ok { s with refillTimerRunning := false, stopped := true }

/-- `consume` in numbers without bounds. -/
def idealConsume (tokens : ℕ) : TokenBucket :=
  if s.stopped then { s with accepted := false }
  else if tokens ≤ s.tokensInBucket then s.take tokens (s.tokensInBucket - tokens)
  else { s with accepted := false }

/-- The bucket over unbounded numbers -/
def idealStep : BucketAction → Except Unit TokenBucket
  | .consume tokens => .ok (s.idealConsume tokens)
  | .expiry => if s.refillTimerRunning then .ok (s.refill cfg (s.tokensInBucket + cfg.refillToken)) else .error ()
  | .stop => .ok { s with refillTimerRunning := false, stopped := true }

/-- A difference is in the signed range, and a sum in the unsigned one. -/
def Fits : BucketAction → Prop
  | .consume tokens => s.stopped = false → s.tokensInBucket < tokens + 2 ^ 31 ∧ tokens ≤ s.tokensInBucket + 2 ^ 31
  | .expiry => s.refillTimerRunning = true → s.stopped = false → s.tokensInBucket + cfg.refillToken < 2 ^ 32
  | .stop => True

/-- The content is within its limits, and the timer runs unless it is full. -/
structure Inv (cfg : TokenBucketConfig) (s : TokenBucket) : Prop where
  content : s.tokensInBucket ≤ cfg.maxTokens
  timer : s.stopped = false → s.tokensInBucket ≠ cfg.maxTokens → s.refillTimerRunning = true

/-! ### Steps -/

variable {cfg s} {a : BucketAction} {s' : TokenBucket}

lemma consume_eq_iff {n : ℕ} (hc : s.tokensInBucket < 2 ^ 32) (hn : n < 2 ^ 32) : s.consume n = s.idealConsume n ↔
    (s.stopped = false → s.tokensInBucket < n + 2 ^ 31 ∧ n ≤ s.tokensInBucket + 2 ^ 31) := by
  unfold consume idealConsume
  cases hs : s.stopped with
  | true => simp
  | false =>
    simp only [Bool.false_eq_true, if_false, forall_const]
    by_cases hfit : s.tokensInBucket < n + 2 ^ 31 ∧ n ≤ s.tokensInBucket + 2 ^ 31
    · refine iff_of_true ?_ hfit
      have hleft : tokensLeft s.tokensInBucket n = (s.tokensInBucket : ℤ) - n := by
        refine Int.bmod_eq_of_le ?_ ?_ <;> omega
      by_cases hle : n ≤ s.tokensInBucket
      · rw [if_neg (by omega), if_pos hle, hleft, ← Nat.cast_sub hle, Int.toNat_natCast]
      · rw [if_pos (by omega), if_neg hle]
    · -- the difference changes its sign
      have hsign : tokensLeft s.tokensInBucket n < 0 ↔ n ≤ s.tokensInBucket := by
        rw [tokensLeft, Int.bmod_def]
        omega
      refine iff_of_false (fun heq => ?_) hfit
      have hres := congrArg accepted heq
      by_cases hle : n ≤ s.tokensInBucket
      · simp [take, hle, hsign.mpr hle] at hres
      · simp [take, hle, mt hsign.mp hle] at hres

lemma Inv.step_eq_iff (h : Inv cfg s) (a : BucketAction) : s.step cfg a = s.idealStep cfg a ↔ s.Fits cfg a := by
  have hc := h.content
  have hmax := cfg.maxTokens_lt
  have hrefill := cfg.refillToken_le
  cases a with
  | consume n => simpa [step, idealStep, Fits] using consume_eq_iff (hc.trans_lt hmax) n.isLt
  | expiry =>
    cases hr : s.refillTimerRunning <;> cases hs : s.stopped
    case true.false =>
      simp only [step, idealStep, Fits, refill, hr, hs, if_true, Bool.false_eq_true, if_false, Except.ok.injEq,
        TokenBucket.mk.injEq, forall_const]
      constructor
      · intro heq
        omega
      · intro hlt
        rw [Nat.mod_eq_of_lt hlt]
        simp
    all_goals simp [step, idealStep, Fits, refill, hr, hs]
  | stop => exact iff_of_true rfl trivial

lemma Inv.idealStep (h : Inv cfg s) (hs : s.idealStep cfg a = .ok s') :
    Inv cfg s' ∧ s.refills ≤ s'.refills ∧ s'.consumed + s'.tokensInBucket ≤
      s.consumed + s.tokensInBucket + cfg.refillToken * (s'.refills - s.refills) := by
  have hc := h.content
  cases a with
  | consume n =>
    cases hs
    unfold idealConsume
    split
    next hst => exact ⟨⟨hc, fun hf => by simp [hst] at hf⟩, le_rfl, Nat.le_add_right _ _⟩
    · split
      next hle =>
        refine ⟨⟨(Nat.sub_le _ _).trans hc, fun _ _ => rfl⟩, le_rfl, ?_⟩
        show s.consumed + n + (s.tokensInBucket - n) ≤ _
        omega
      · exact ⟨⟨hc, h.timer⟩, le_rfl, Nat.le_add_right _ _⟩
  | expiry =>
    rw [TokenBucket.idealStep] at hs
    split at hs
    · cases hs
      unfold refill
      split
      · exact ⟨h, le_rfl, Nat.le_add_right _ _⟩
      · refine ⟨⟨min_le_left _ _, fun _ hne => decide_eq_true hne⟩, Nat.le_succ _, ?_⟩
        show s.consumed + min cfg.maxTokens _ ≤ _ + cfg.refillToken * (s.refills + 1 - s.refills)
        rw [Nat.add_sub_cancel_left]
        omega
    · cases hs
  | stop =>
    cases hs
    exact ⟨⟨hc, nofun⟩, le_rfl, Nat.le_add_right _ _⟩

lemma Inv.of_reach (h : Inv cfg s) (hr : Reach (step cfg) (Fits cfg) s s') :
    Inv cfg s' ∧ s.refills ≤ s'.refills ∧ s'.consumed + s'.tokensInBucket ≤
      s.consumed + s.tokensInBucket + cfg.refillToken * (s'.refills - s.refills) := by
  induction hr with
  | init => exact ⟨h, le_rfl, Nat.le_add_right _ _⟩
  | step _ hfit hstep ih =>
    obtain ⟨h1, hle1, hsum1⟩ := ih
    rw [(h1.step_eq_iff _).mpr hfit] at hstep
    obtain ⟨h2, hle2, hsum2⟩ := h1.idealStep hstep
    refine ⟨h2, hle1.trans hle2, hsum2.trans ?_⟩
    rw [← Nat.sub_add_sub_cancel hle2 hle1, Nat.mul_add]
    omega

/-- **The token bucket.** The next step is that of the bucket over unbounded numbers iff its numbers fit. -/
theorem tokenBucket_iff (cfg : TokenBucketConfig) (s : TokenBucket)
    (hr : Reach (step cfg) (Fits cfg) (init cfg) s) :
    s.tokensInBucket ≤ cfg.maxTokens ∧
    (s.stopped = false → s.tokensInBucket ≠ cfg.maxTokens → s.refillTimerRunning = true) ∧
    (∀ s', Reach (step cfg) (Fits cfg) s s' →
      s'.consumed ≤ s.consumed + cfg.maxTokens + cfg.refillToken * (s'.refills - s.refills)) ∧
    ∀ a, s.step cfg a = s.idealStep cfg a ↔ s.Fits cfg a := by
  have hinit : Inv cfg (init cfg) := ⟨le_rfl, fun _ _ => rfl⟩
  have h := (hinit.of_reach hr).1
  refine ⟨h.content, h.timer, fun s' hr' => ?_, h.step_eq_iff⟩
  have hsum := (h.of_reach hr').2.2
  have hc := h.content
  omega

/-- Requests of at most half of the unsigned range. -/
def Small : BucketAction → Prop
  | .consume tokens => (tokens : ℕ) ≤ 2 ^ 31
  | .expiry | .stop => True

lemma Inv.fits_of_small (h : Inv cfg s) (hmax : cfg.maxTokens < 2 ^ 31) (ha : Small a) : s.Fits cfg a := by
  have hc := h.content
  have hrefill := cfg.refillToken_le
  cases a with
  | consume n =>
    intro _
    rw [Small] at ha
    omega
  | expiry =>
    intro _ _
    omega
  | stop => trivial

/-- **A bucket of less than `2 ^ 31` tokens** with requests of at most `2 ^ 31` is the one over unbounded numbers. -/
theorem step_eq_idealStep_of_small (hmax : cfg.maxTokens < 2 ^ 31)
    (hr : Reach (step cfg) (fun _ a => Small a) (init cfg) s) (ha : Small a) : s.step cfg a = s.idealStep cfg a := by
  have h : Inv cfg s := hr.invariant ⟨le_rfl, fun _ _ => rfl⟩ fun s a s' hi ha hs => by
    rw [(hi.step_eq_iff a).mpr (hi.fits_of_small hmax ha)] at hs
    exact (hi.idealStep hs).1
  exact (h.step_eq_iff a).mpr (h.fits_of_small hmax ha)

def tenTokens : TokenBucketConfig := ⟨1, 10, one_pos, Nat.le_of_ble_eq_true rfl, Nat.le_of_ble_eq_true rfl⟩

theorem tokenBucket_three : ∃ s, Reach (step tenTokens) (Fits tenTokens) (init tenTokens) s ∧ s.consumed = 3 ∧
    s.refillTimerRunning = true := by
  have hfits : (init tenTokens).Fits tenTokens (.consume 3) := fun _ => by decide
  have hr : Reach (step tenTokens) (Fits tenTokens) (init tenTokens) _ := .step .init hfits rfl
  exact ⟨_, hr, rfl, (tokenBucket_iff _ _ hr).2.1 rfl (by decide)⟩

/-- The same bucket gives `2 ^ 32 - 1` tokens away and has eleven left. -/
theorem tokenBucket_overdrawn : (init tenTokens).step tenTokens (.consume 4294967295) =
    .ok { tokensInBucket := 11, accepted := true, consumed := 4294967295 } := by decide

end TokenBucket

end SrsRan.Support
