/-
# The token bucket of webhook deliveries

A bucket per endpoint starts full, refills at the steady rate up to its capacity and pays the
weight of every admitted attempt. A timer forgets the buckets that were not refilled for half a
minute.

A forgotten bucket is full again at the next attempt.
-/

import Fluxora.Lib.Credit
import Fluxora.Lib.Transition
import Fluxora.Webhooks.Retry

namespace Fluxora.Webhooks.RateLimiter

open Fluxora.Lib.Transition
open Fluxora.Lib.Credit

/-! ## Configuration -/

structure RateLimitConfig where
  limit : ℚ
  windowMs : ℚ
  burst : ℚ
  weight : Option ℚ≥0 := none
  deriving DecidableEq

def rateLimitMaxWindowMs : ℚ := 60 * 60 * 1000

def rateLimitMaxLimit : ℚ := 100000

def rateLimitMinWindowMs : ℚ := 100

/-- The rejected number stands at the end of the message. -/
structure RateLimitConfigError where
  message : String
  got : ℚ
  deriving DecidableEq

def validateRateLimitConfig (config : RateLimitConfig) : Except RateLimitConfigError Unit := do
  if config.limit ≤ 0 then
    throw ⟨"RateLimitConfig.limit must be a positive finite number, got ", config.limit⟩
  if rateLimitMaxLimit < config.limit then
    throw ⟨"RateLimitConfig.limit exceeds maximum allowed (100000), got ", config.limit⟩
  if config.windowMs < rateLimitMinWindowMs then
    throw ⟨"RateLimitConfig.windowMs must be >= 100ms, got ", config.windowMs⟩
  if rateLimitMaxWindowMs < config.windowMs then
    throw ⟨"RateLimitConfig.windowMs exceeds maximum allowed (3600000ms), got ", config.windowMs⟩
  if config.burst < 0 then
    throw ⟨"RateLimitConfig.burst must be a non-negative finite number, got ", config.burst⟩

namespace RateLimitConfig

variable (config : RateLimitConfig)

/-- `config.burst > 0 ? config.burst : config.limit` -/
def capacity : ℚ := if 0 < config.burst then config.burst else config.limit

def refillRate : ℚ := config.limit / config.windowMs

/-- `config.weight ?? 1` -/
def cost : ℚ≥0 := config.weight.getD 1

/-- Two configurations differ at most in the cost of the attempt. -/
def SameQuota (config' : RateLimitConfig) : Prop :=
  config.limit = config'.limit ∧ config.windowMs = config'.windowMs ∧ config.burst = config'.burst

instance (config' : RateLimitConfig) : Decidable (config.SameQuota config') :=
  inferInstanceAs (Decidable (_ ∧ _))

variable {config} {config' : RateLimitConfig}

theorem SameQuota.capacity_eq (hsame : config.SameQuota config') :
    config.capacity = config'.capacity := by
  rw [capacity, capacity, hsame.1, hsame.2.2]

theorem SameQuota.refillRate_eq (hsame : config.SameQuota config') :
    config.refillRate = config'.refillRate := by
  rw [refillRate, refillRate, hsame.1, hsame.2.1]

end RateLimitConfig

theorem pos_of_validateRateLimitConfig {config : RateLimitConfig}
    (hvalid : validateRateLimitConfig config = .ok ()) :
    0 < config.limit ∧ 0 < config.windowMs := by
  rw [validateRateLimitConfig] at hvalid
  by_cases hlimit : config.limit ≤ 0
  · rw [if_pos hlimit] at hvalid
    cases hvalid
  · rw [if_neg hlimit] at hvalid
    by_cases hmax : rateLimitMaxLimit < config.limit
    · rw [if_pos hmax] at hvalid
      cases hvalid
    · rw [if_neg hmax] at hvalid
      by_cases hwindow : config.windowMs < rateLimitMinWindowMs
      · rw [if_pos hwindow] at hvalid
        cases hvalid
      · have hmin : (0 : ℚ) < rateLimitMinWindowMs := by norm_num [rateLimitMinWindowMs]
        exact ⟨not_le.mp hlimit, hmin.trans_le (not_lt.mp hwindow)⟩

theorem refillRate_pos {config : RateLimitConfig}
    (hvalid : validateRateLimitConfig config = .ok ()) : 0 < config.refillRate :=
  div_pos (pos_of_validateRateLimitConfig hvalid).1 (pos_of_validateRateLimitConfig hvalid).2

theorem capacity_pos {config : RateLimitConfig}
    (hvalid : validateRateLimitConfig config = .ok ()) : 0 < config.capacity := by
  rw [RateLimitConfig.capacity]
  by_cases hburst : 0 < config.burst
  · rwa [if_pos hburst]
  · rw [if_neg hburst]
    exact (pos_of_validateRateLimitConfig hvalid).1

/-! ## Buckets -/

structure TokenBucket where
  tokens : ℚ
  lastRefillMs : ℤ

def minStaleAgeMs : ℤ := 30000

/-- The tokens that flow in since the last refill, up to the capacity. -/
def TokenBucket.refill (config : RateLimitConfig) (now : ℤ) (bucket : TokenBucket) :
    TokenBucket :=
  let elapsed := now - bucket.lastRefillMs
  if 0 < elapsed then
    ⟨min config.capacity (bucket.tokens + elapsed * config.refillRate), now⟩
  else bucket



/-- The bucket of an attempt: a new one is full. -/
def currentBucket (config : RateLimitConfig) (now : ℤ) (stored : Option TokenBucket) :
    TokenBucket :=
  (stored.getD ⟨config.capacity, now⟩).refill config now

variable {κ : Type} [DecidableEq κ] (hash : String → κ)

/-- Of the dimensions only the endpoint enters the key. -/
def hashDimensions (dimensions : RateLimitDimensions) : κ := hash dimensions.endpoint

def checkLimit (buckets : κ → Option TokenBucket) (now : ℤ) (dimensions : RateLimitDimensions)
    (config : RateLimitConfig) :
    Except RateLimitConfigError (RateLimitResult × (κ → Option TokenBucket)) := do
  validateRateLimitConfig config
  let key := hashDimensions hash dimensions
  let bucket := currentBucket config now (buckets key)
  if config.cost ≤ bucket.tokens then
    return (⟨true, none⟩,
      Function.update buckets key (some { bucket with tokens := bucket.tokens - config.cost }))
  else
    -- the quotient is positive, so its ceiling is a natural number
    return (⟨false, some ⌈(config.cost - bucket.tokens) / config.refillRate⌉₊⟩,
      Function.update buckets key (some bucket))

def getBucketLevel (buckets : κ → Option TokenBucket) (now : ℤ)
    (dimensions : RateLimitDimensions) (config : Option RateLimitConfig) :
    ℚ × (κ → Option TokenBucket) :=
  let key := hashDimensions hash dimensions
  match buckets key with
  | none => (0, buckets)
  | some bucket =>
    match config with
    | none => (bucket.tokens, buckets)
    | some config =>
      let refilled := bucket.refill config now
      (refilled.tokens, Function.update buckets key (some refilled))

def cleanupStaleBuckets (buckets : κ → Option TokenBucket) (now : ℤ) : κ → Option TokenBucket :=
  fun key => (buckets key).filter fun bucket => now - bucket.lastRefillMs ≤ minStaleAgeMs

/-! ## Runs -/

deriving instance DecidableEq for RateLimitResult

inductive Call where
  | checkLimit (dimensions : RateLimitDimensions) (config : RateLimitConfig)
  | getBucketLevel (dimensions : RateLimitDimensions) (config : Option RateLimitConfig)
  | cleanupStaleBuckets

/-- A call and the instant at which the clock is read. -/
structure Event where
  now : ℤ
  call : Call

/-- The limiter, the last instant and the admitted attempts of every key. -/
structure Limiter (κ : Type) where
  buckets : κ → Option TokenBucket
  now : ℤ
  admitted : κ → List (Spending ℚ)

namespace Limiter

def initial (now : ℤ) : Limiter κ := ⟨fun _ => none, now, fun _ => []⟩

/-- What an attempt is answered. -/
def answer (l : Limiter κ) (now : ℤ) (dimensions : RateLimitDimensions)
    (config : RateLimitConfig) : Except RateLimitConfigError RateLimitResult :=
  (checkLimit hash l.buckets now dimensions config).map Prod.fst

/-- The limiter after a call at a later instant. -/
def after (l : Limiter κ) (now : ℤ) : Call → Limiter κ
  | .checkLimit dimensions config =>
    match RateLimiter.checkLimit hash l.buckets now dimensions config with
    | .error _ => { l with now := now }
    | .ok (result, buckets) =>
      let key := hashDimensions hash dimensions
      { buckets := buckets
        now := now
        admitted := if result.canAttempt then
            Function.update l.admitted key (⟨now, config.cost⟩ :: l.admitted key)
          else l.admitted }
  | .getBucketLevel dimensions config =>
    { l with
      now := now
      buckets := (RateLimiter.getBucketLevel hash l.buckets now dimensions config).2 }
  | .cleanupStaleBuckets =>
    { l with
      now := now
      buckets := RateLimiter.cleanupStaleBuckets l.buckets now }

/-- Instants do not go back. -/
def step (l : Limiter κ) (event : Event) : Option (Limiter κ) :=
  if l.now ≤ event.now then some (l.after hash event.now event.call) else none

end Limiter

/-! ## The credit of a stored bucket -/

section Credit

variable (c : RateLimitConfig)

/-- What an attempt at an instant finds in a bucket. -/
def credit (now : ℤ) (stored : Option TokenBucket) : ℚ := (currentBucket c now stored).tokens

/-- A stored bucket holds between nothing and the capacity, and was refilled before. -/
def Sound (now : ℤ) (stored : Option TokenBucket) : Prop :=
  ∀ bucket, stored = some bucket →
    0 ≤ bucket.tokens ∧ bucket.tokens ≤ c.capacity ∧ bucket.lastRefillMs ≤ now

variable {c} {now : ℤ} {stored : Option TokenBucket}

theorem currentBucket_congr {config : RateLimitConfig} (hsame : config.SameQuota c) (now : ℤ)
    (stored : Option TokenBucket) :
    currentBucket config now stored = currentBucket c now stored := by
  simp only [currentBucket, TokenBucket.refill, hsame.capacity_eq, hsame.refillRate_eq]

theorem currentBucket_none : currentBucket c now none = ⟨c.capacity, now⟩ := by
  simp [currentBucket, TokenBucket.refill]

@[simp] theorem credit_none : credit c now none = c.capacity := by
  rw [credit, currentBucket_none]

/-- A bucket refilled at this very instant holds what it is said to hold. -/
@[simp] theorem credit_refilled (tokens : ℚ) : credit c now (some ⟨tokens, now⟩) = tokens := by
  simp [credit, currentBucket, TokenBucket.refill]

theorem tokens_refill {bucket : TokenBucket} (hsound : Sound c now (some bucket)) :
    (bucket.refill c now).tokens =
      min c.capacity (bucket.tokens + (now - bucket.lastRefillMs) * c.refillRate) := by
  obtain ⟨-, hcap, hlast⟩ := hsound bucket rfl
  by_cases helapsed : 0 < now - bucket.lastRefillMs
  · rw [TokenBucket.refill, if_pos helapsed]
    push_cast
    rfl
  · have hnow : now = bucket.lastRefillMs := by omega
    rw [TokenBucket.refill, if_neg helapsed, hnow, sub_self, zero_mul, add_zero, min_eq_right hcap]

theorem lastRefillMs_currentBucket (hsound : Sound c now stored) :
    (currentBucket c now stored).lastRefillMs = now := by
  cases stored with
  | none => rw [currentBucket_none]
  | some bucket =>
    obtain ⟨-, -, hlast⟩ := hsound bucket rfl
    by_cases helapsed : 0 < now - bucket.lastRefillMs
    · rw [currentBucket, Option.getD_some, TokenBucket.refill, if_pos helapsed]
    · rw [currentBucket, Option.getD_some, TokenBucket.refill, if_neg helapsed]
      omega

theorem currentBucket_eq (hsound : Sound c now stored) :
    currentBucket c now stored = ⟨credit c now stored, now⟩ := by
  rw [TokenBucket.mk.injEq]
  exact ⟨rfl, lastRefillMs_currentBucket hsound⟩

theorem Sound.later (hsound : Sound c now stored) {now' : ℤ} (hnow : now ≤ now') :
    Sound c now' stored := by
  intro bucket hbucket
  obtain ⟨hnonneg, hcap, hlast⟩ := hsound bucket hbucket
  exact ⟨hnonneg, hcap, hlast.trans hnow⟩

theorem sound_refilled {tokens : ℚ} (hnonneg : 0 ≤ tokens) (hcap : tokens ≤ c.capacity) :
    Sound c now (some ⟨tokens, now⟩) := by
  intro bucket hbucket
  cases hbucket
  exact ⟨hnonneg, hcap, le_refl _⟩

variable (hvalid : validateRateLimitConfig c = .ok ())

include hvalid

theorem credit_later (hsound : Sound c now stored) {now' : ℤ} (hnow : now ≤ now') :
    credit c now' stored =
      min c.capacity (credit c now stored + c.refillRate * ((now' : ℚ) - now)) := by
  have hrate : 0 ≤ c.refillRate := (refillRate_pos hvalid).le
  have helapsed : (0 : ℚ) ≤ (now' : ℚ) - now := by
    have hcast : (now : ℚ) ≤ now' := by exact_mod_cast hnow
    linarith
  have haccrued : 0 ≤ c.refillRate * ((now' : ℚ) - now) := mul_nonneg hrate helapsed
  cases stored with
  | none =>
    rw [credit_none, credit_none, min_eq_left]
    linarith
  | some bucket =>
    rw [credit, credit, currentBucket, currentBucket, Option.getD_some, Option.getD_some,
      tokens_refill hsound, tokens_refill (hsound.later hnow)]
    have hsplit : bucket.tokens + ((now' : ℚ) - bucket.lastRefillMs) * c.refillRate =
        bucket.tokens + ((now : ℚ) - bucket.lastRefillMs) * c.refillRate +
          c.refillRate * ((now' : ℚ) - now) := by ring
    rw [hsplit]
    cases le_total c.capacity
        (bucket.tokens + ((now : ℚ) - bucket.lastRefillMs) * c.refillRate) with
    | inl hfull =>
      rw [min_eq_left hfull, min_eq_left (by linarith), min_eq_left (by linarith)]
    | inr hshort => rw [min_eq_right hshort]

theorem credit_le (hsound : Sound c now stored) : credit c now stored ≤ c.capacity := by
  rw [credit_later hvalid hsound (le_refl now)]
  exact min_le_left _ _

theorem credit_nonneg (hsound : Sound c now stored) : 0 ≤ credit c now stored := by
  have hcap : 0 < c.capacity := capacity_pos hvalid
  cases stored with
  | none => rw [credit_none]; exact hcap.le
  | some bucket =>
    obtain ⟨hnonneg, -, hlast⟩ := hsound bucket rfl
    have helapsed : (0 : ℚ) ≤ (now : ℚ) - bucket.lastRefillMs := by
      have hcast : (bucket.lastRefillMs : ℚ) ≤ now := by exact_mod_cast hlast
      linarith
    have haccrued := mul_nonneg helapsed (refillRate_pos hvalid).le
    rw [credit, currentBucket, Option.getD_some, tokens_refill hsound]
    exact le_min hcap.le (by linarith)

end Credit

/-! ## What a call does to a key -/

/-- The calls on a key use its quota, with any cost. -/
def UsesQuota (c : RateLimitConfig) (key : κ) (event : Event) : Prop :=
  match event.call with
  | .checkLimit dimensions config => hashDimensions hash dimensions = key → config.SameQuota c
  | .getBucketLevel dimensions config =>
    hashDimensions hash dimensions = key → ∀ given ∈ config, given.SameQuota c
  | .cleanupStaleBuckets => True

def IsAttemptOn (key : κ) (call : Call) : Prop :=
  ∃ dimensions config, call = .checkLimit dimensions config ∧ hashDimensions hash dimensions = key

/-- What becomes of the bucket and the admitted attempts of a key. -/
inductive Effect (c : RateLimitConfig) (key : κ) (now : ℤ) (call : Call)
    (stored : Option TokenBucket) (log : List (Spending ℚ)) :
    Option TokenBucket → List (Spending ℚ) → Prop where
  | idle : Effect c key now call stored log stored log
  | refilled : Effect c key now call stored log (some ⟨credit c now stored, now⟩) log
  | paid (hcall : IsAttemptOn hash key call) (weight : ℚ) (hnonneg : 0 ≤ weight)
      (henough : weight ≤ credit c now stored) :
      Effect c key now call stored log (some ⟨credit c now stored - weight, now⟩)
        (⟨now, weight⟩ :: log)
  | forgotten (hcall : call = .cleanupStaleBuckets) (bucket : TokenBucket)
      (hstored : stored = some bucket) (hstale : minStaleAgeMs < now - bucket.lastRefillMs) :
      Effect c key now call stored log none log

section Steps

variable {hash} {c : RateLimitConfig} {key : κ} {now : ℤ}

theorem validateRateLimitConfig_congr {config : RateLimitConfig} (hsame : config.SameQuota c) :
    validateRateLimitConfig config = validateRateLimitConfig c := by
  obtain ⟨hlimit, hwindow, hburst⟩ := hsame
  simp only [validateRateLimitConfig, hlimit, hwindow, hburst]

theorem checkLimit_eq (hvalid : validateRateLimitConfig c = .ok ()) {config : RateLimitConfig}
    (hsame : config.SameQuota c) {buckets : κ → Option TokenBucket}
    {dimensions : RateLimitDimensions}
    (hsound : Sound c now (buckets (hashDimensions hash dimensions))) :
    checkLimit hash buckets now dimensions config =
      .ok (if config.cost ≤ credit c now (buckets (hashDimensions hash dimensions)) then
        (⟨true, none⟩, Function.update buckets (hashDimensions hash dimensions)
          (some ⟨credit c now (buckets (hashDimensions hash dimensions)) - config.cost, now⟩))
      else
        (⟨false, some ⌈(config.cost - credit c now (buckets (hashDimensions hash dimensions))) /
            c.refillRate⌉₊⟩,
          Function.update buckets (hashDimensions hash dimensions)
            (some ⟨credit c now (buckets (hashDimensions hash dimensions)), now⟩))) := by
  rw [checkLimit, validateRateLimitConfig_congr hsame, hvalid]
  simp only [currentBucket_congr hsame, currentBucket_eq hsound, hsame.refillRate_eq]
  by_cases henough : config.cost ≤ credit c now (buckets (hashDimensions hash dimensions))
  · rw [if_pos henough, if_pos henough]
    rfl
  · rw [if_neg henough, if_neg henough]
    rfl

theorem buckets_checkLimit_of_ne {buckets buckets' : κ → Option TokenBucket}
    {dimensions : RateLimitDimensions} {config : RateLimitConfig} {result : RateLimitResult}
    (hother : hashDimensions hash dimensions ≠ key)
    (hok : checkLimit hash buckets now dimensions config = .ok (result, buckets')) :
    buckets' key = buckets key := by
  rw [checkLimit] at hok
  cases hcheck : validateRateLimitConfig config with
  | error =>
    rw [hcheck] at hok
    cases hok
  | ok =>
    rw [hcheck] at hok
    by_cases henough : config.cost ≤
        (currentBucket config now (buckets (hashDimensions hash dimensions))).tokens
    · cases (if_pos henough).symm.trans hok
      exact Function.update_of_ne (Ne.symm hother) _ _
    · cases (if_neg henough).symm.trans hok
      exact Function.update_of_ne (Ne.symm hother) _ _

theorem effect_after (hvalid : validateRateLimitConfig c = .ok ()) {l : Limiter κ} {call : Call}
    (huses : UsesQuota hash c key ⟨now, call⟩) (hsound : Sound c now (l.buckets key)) :
    Effect hash c key now call (l.buckets key) (l.admitted key)
      ((l.after hash now call).buckets key) ((l.after hash now call).admitted key) := by
  cases call with
  | checkLimit dimensions config =>
    by_cases hkey : hashDimensions hash dimensions = key
    · have hsame : config.SameQuota c := huses hkey
      subst hkey
      simp only [Limiter.after, checkLimit_eq hvalid hsame hsound]
      by_cases henough : config.cost ≤ credit c now (l.buckets (hashDimensions hash dimensions))
      · simp only [if_pos henough, Function.update_self, if_true]
        exact .paid ⟨dimensions, config, rfl, rfl⟩ _ config.cost.coe_nonneg henough
      · simp only [if_neg henough, Function.update_self, Bool.false_eq_true, if_false]
        exact .refilled
    · simp only [Limiter.after]
      split
      · exact .idle
      · next result buckets hok =>
          simp only [buckets_checkLimit_of_ne hkey hok]
          cases result.canAttempt with
          | true =>
            simp only [if_true, Function.update_of_ne (Ne.symm hkey)]
            exact .idle
          | false =>
            simp only [Bool.false_eq_true, if_false]
            exact .idle
  | getBucketLevel dimensions config =>
    simp only [Limiter.after, getBucketLevel]
    by_cases hkey : hashDimensions hash dimensions = key
    · subst hkey
      cases hstored : l.buckets (hashDimensions hash dimensions) with
      | none =>
        simp only [hstored]
        exact .idle
      | some bucket =>
        cases config with
        | none =>
          simp only [hstored]
          exact .idle
        | some config =>
          have hsame : config.SameQuota c := huses rfl config rfl
          have hrefill : bucket.refill config now = ⟨credit c now (some bucket), now⟩ :=
            (currentBucket_congr hsame now (some bucket)).trans
              (currentBucket_eq (hstored ▸ hsound))
          simp only [hrefill, Function.update_self]
          exact .refilled
    · split
      · exact .idle
      · split
        · exact .idle
        · simp only [Function.update_of_ne (Ne.symm hkey)]
          exact .idle
  | cleanupStaleBuckets =>
    simp only [Limiter.after, cleanupStaleBuckets]
    cases hstored : l.buckets key with
    | none => exact .idle
    | some bucket =>
      by_cases hfresh : now - bucket.lastRefillMs ≤ minStaleAgeMs
      · rw [Option.filter_some, if_pos (decide_eq_true hfresh)]
        exact .idle
      · rw [Option.filter_some, if_neg (by simpa using hfresh)]
        exact .forgotten rfl bucket rfl (not_le.mp hfresh)

theorem now_after (l : Limiter κ) (call : Call) : (l.after hash now call).now = now := by
  cases call with
  | checkLimit =>
    simp only [Limiter.after]
    split <;> rfl
  | getBucketLevel | cleanupStaleBuckets => rfl

theorem step_eq_some_iff {l l' : Limiter κ} {event : Event} :
    l.step hash event = some l' ↔ l.now ≤ event.now ∧ l.after hash event.now event.call = l' := by
  simp [Limiter.step]

variable {call : Call} {stored stored' : Option TokenBucket} {log log' : List (Spending ℚ)}

omit [DecidableEq κ] in
theorem sound_of_effect (hvalid : validateRateLimitConfig c = .ok ())
    (heffect : Effect hash c key now call stored log stored' log') (hsound : Sound c now stored) :
    Sound c now stored' := by
  have hnonneg : 0 ≤ credit c now stored := credit_nonneg hvalid hsound
  have hcap : credit c now stored ≤ c.capacity := credit_le hvalid hsound
  cases heffect with
  | idle => exact hsound
  | refilled => exact sound_refilled hnonneg hcap
  | paid => exact sound_refilled (by linarith) (by linarith)
  | forgotten => simp [Sound]

/-- The buckets that the timer forgets would be full. -/
def KeepsCredit (c : RateLimitConfig) (key : κ) (l : Limiter κ) (event : Event) : Prop :=
  event.call = .cleanupStaleBuckets → ∀ bucket, l.buckets key = some bucket →
    minStaleAgeMs < event.now - bucket.lastRefillMs →
    c.capacity ≤ bucket.tokens + (event.now - bucket.lastRefillMs) * c.refillRate

omit [DecidableEq κ] in
theorem covered_of_effect (hvalid : validateRateLimitConfig c = .ok ())
    (heffect : Effect hash c key now call stored log stored' log') (hsound : Sound c now stored)
    (hkeeps : call = .cleanupStaleBuckets → ∀ bucket, stored = some bucket →
      minStaleAgeMs < now - bucket.lastRefillMs →
      c.capacity ≤ bucket.tokens + (now - bucket.lastRefillMs) * c.refillRate)
    (hcovered : Covered c.capacity c.refillRate (now : ℚ) (credit c now stored) log) :
    Covered c.capacity c.refillRate (now : ℚ) (credit c now stored') log' := by
  cases heffect with
  | idle => exact hcovered
  | refilled => rwa [credit_refilled]
  | paid _ _ hweight henough =>
    rw [credit_refilled]
    exact hcovered.spend (refillRate_pos hvalid).le hweight henough
  | forgotten hcall bucket hstored hstale =>
    have hfull : credit c now (some bucket) = c.capacity := by
      rw [credit, currentBucket, Option.getD_some, tokens_refill (hstored ▸ hsound)]
      exact min_eq_left (hkeeps hcall bucket hstored hstale)
    rw [hstored, hfull] at hcovered
    rwa [credit_none]

end Steps

/-! ## The bound -/

section Bound

variable {hash} {c : RateLimitConfig} {key : κ} (hvalid : validateRateLimitConfig c = .ok ())
  {l l' : Limiter κ}

/-- The weight admitted in an interval is at most the capacity and what flows in over it. -/
def IsBounded (c : RateLimitConfig) (log : List (Spending ℚ)) : Prop :=
  ∀ start length, 0 ≤ length →
    spentWithin start (start + length) log ≤ c.capacity + c.refillRate * length

include hvalid

variable {allowed : Limiter κ → Event → Prop}

theorem sound_of_reaches (huses : ∀ l event, allowed l event → UsesQuota hash c key event)
    (hsound : Sound c l.now (l.buckets key)) (hrun : Reaches (Limiter.step hash) allowed l l') :
    Sound c l'.now (l'.buckets key) := by
  apply Reaches.invariant (P := fun l => Sound c l.now (l.buckets key)) _ hsound hrun
  intro l event l' hsound hallowed hstep
  obtain ⟨hnow, rfl⟩ := step_eq_some_iff.mp hstep
  have hlater : Sound c event.now (l.buckets key) := hsound.later hnow
  rw [now_after]
  exact sound_of_effect hvalid (effect_after hvalid (huses l event hallowed) hlater) hlater

theorem isBounded_of_reaches {start : ℤ}
    (huses : ∀ l event, allowed l event → UsesQuota hash c key event)
    (hkeeps : ∀ l event, Sound c l.now (l.buckets key) → l.now ≤ event.now → allowed l event →
      KeepsCredit c key l event) (hrun : Reaches (Limiter.step hash) allowed (.initial start) l) :
    IsBounded c (l.admitted key) := by
  have hrate : 0 ≤ c.refillRate := (refillRate_pos hvalid).le
  have hcovered : Sound c l.now (l.buckets key) ∧
      Covered c.capacity c.refillRate (l.now : ℚ) (credit c l.now (l.buckets key))
        (l.admitted key) := by
    apply Reaches.invariant (P := fun l : Limiter κ => Sound c l.now (l.buckets key) ∧
      Covered c.capacity c.refillRate (l.now : ℚ) (credit c l.now (l.buckets key))
        (l.admitted key)) _ _ hrun
    · intro l event l' ⟨hsound, hcovered⟩ hallowed hstep
      obtain ⟨hnow, rfl⟩ := step_eq_some_iff.mp hstep
      have hlater : Sound c event.now (l.buckets key) := hsound.later hnow
      have heffect := effect_after hvalid (huses l event hallowed) hlater
      -- time passes before the call
      have hadvanced : Covered c.capacity c.refillRate (event.now : ℚ)
          (credit c event.now (l.buckets key)) (l.admitted key) := by
        apply hcovered.advance hrate (by exact_mod_cast hnow) (credit_nonneg hvalid hlater)
          (credit_le hvalid hlater)
        rw [credit_later hvalid hsound hnow]
        exact min_le_right _ _
      rw [now_after]
      exact ⟨sound_of_effect hvalid heffect hlater,
        covered_of_effect hvalid heffect hlater (hkeeps l event hsound hnow hallowed) hadvanced⟩
    · apply And.intro
      · simp [Sound, Limiter.initial]
      · rw [Limiter.initial, credit_none]
        exact Covered.start (capacity_pos hvalid).le hrate _
  exact hcovered.2.within_le

omit [DecidableEq κ] in
theorem keepsCredit_of_capacity_le (hsmall : c.capacity ≤ 30001 * c.refillRate) {event : Event}
    (hsound : Sound c l.now (l.buckets key)) : KeepsCredit c key l event := by
  intro _ bucket hstored hstale
  obtain ⟨hnonneg, -, -⟩ := hsound bucket hstored
  have helapsed : (30001 : ℚ) ≤ (event.now : ℚ) - bucket.lastRefillMs := by
    have hwhole : 30001 ≤ event.now - bucket.lastRefillMs := by
      rw [minStaleAgeMs] at hstale
      omega
    exact_mod_cast hwhole
  have hfilled := mul_le_mul_of_nonneg_right helapsed (refillRate_pos hvalid).le
  linarith

theorem after_checkLimit_of_enough (hash : String → κ) (l : Limiter κ) (now : ℤ)
    {config : RateLimitConfig} (dimensions : RateLimitDimensions) (hsame : config.SameQuota c)
    (hsound : Sound c now (l.buckets (hashDimensions hash dimensions)))
    (henough : config.cost ≤ credit c now (l.buckets (hashDimensions hash dimensions))) :
    let l' := l.after hash now (.checkLimit dimensions config)
    l'.buckets (hashDimensions hash dimensions) =
        some ⟨credit c now (l.buckets (hashDimensions hash dimensions)) - config.cost, now⟩ ∧
      l'.admitted (hashDimensions hash dimensions) =
        ⟨now, config.cost⟩ :: l.admitted (hashDimensions hash dimensions) := by
  simp only [Limiter.after, checkLimit_eq hvalid hsame hsound, if_pos henough,
    Function.update_self, if_true, and_self]

theorem exists_drained_twice (hash : String → κ) (endpoint : String) :
    ∃ l : Limiter κ, Reaches (Limiter.step hash)
        (fun _ event => UsesQuota hash c (hash endpoint) event) (.initial 0) l ∧
      l.admitted (hash endpoint) = [⟨30001, c.capacity⟩, ⟨0, c.capacity⟩] := by
  have hcap : 0 < c.capacity := capacity_pos hvalid
  let config : RateLimitConfig := { c with weight := some ⟨c.capacity, hcap.le⟩ }
  let dimensions : RateLimitDimensions := ⟨"default", endpoint, "first_attempt", 1⟩
  have hsame : config.SameQuota c := ⟨rfl, rfl, rfl⟩
  have hcost : (config.cost : ℚ) = c.capacity := rfl
  let drained : Limiter κ := Limiter.after hash (.initial 0) 0 (.checkLimit dimensions config)
  let forgotten : Limiter κ := drained.after hash 30001 .cleanupStaleBuckets
  have hdrained := after_checkLimit_of_enough hvalid hash (.initial 0) 0 dimensions hsame
    (by simp [Sound, Limiter.initial])
    (by rw [hcost, Limiter.initial, credit_none])
  have hforgotten : forgotten.buckets (hash endpoint) = none := by
    have hbucket : drained.buckets (hash endpoint) = _ := hdrained.1
    simp only [forgotten, Limiter.after, cleanupStaleBuckets, hbucket]
    rfl
  have hagain := after_checkLimit_of_enough hvalid hash forgotten 30001 dimensions hsame
    (by rw [hashDimensions, hforgotten]; simp [Sound])
    (by rw [hashDimensions, hforgotten, hcost, credit_none])
  have hlog : (forgotten.after hash 30001 (.checkLimit dimensions config)).admitted
      (hash endpoint) = [⟨30001, c.capacity⟩, ⟨0, c.capacity⟩] := by
    have hfirst : forgotten.admitted (hash endpoint) = [⟨0, c.capacity⟩] := hdrained.2
    refine hagain.2.trans ?_
    rw [hashDimensions, hfirst, hcost]
    rfl
  have hrun : run (Limiter.step hash) (.initial 0)
      [⟨0, .checkLimit dimensions config⟩, ⟨30001, .cleanupStaleBuckets⟩,
        ⟨30001, .checkLimit dimensions config⟩] =
      some (forgotten.after hash 30001 (.checkLimit dimensions config)) := by
    have hnow : drained.now = 0 := now_after _ _
    have hnow' : forgotten.now = 30001 := now_after _ _
    have hfirst : Limiter.step hash (.initial 0) ⟨0, .checkLimit dimensions config⟩ =
        some drained := step_eq_some_iff.mpr ⟨le_refl _, rfl⟩
    have hsecond : drained.step hash ⟨30001, .cleanupStaleBuckets⟩ = some forgotten :=
      step_eq_some_iff.mpr ⟨by rw [hnow]; decide, rfl⟩
    rw [run_cons hfirst, run_cons hsecond, run_cons (step_eq_some_iff.mpr ⟨hnow'.le, rfl⟩)]
    rfl
  refine ⟨_, Reaches.of_run ?_ hrun, hlog⟩
  intro _ event hevent
  have hattempt : ∀ now, UsesQuota hash c (hash endpoint) ⟨now, .checkLimit dimensions config⟩ :=
    fun _ _ => hsame
  simp only [List.mem_cons, List.not_mem_nil, or_false] at hevent
  obtain rfl | rfl | rfl := hevent
  · exact hattempt 0
  · trivial
  · exact hattempt 30001

/-! ## The retry hint -/

theorem answer_eq {now : ℤ} {config : RateLimitConfig} {dimensions : RateLimitDimensions}
    (hsame : config.SameQuota c)
    (hsound : Sound c now (l.buckets (hashDimensions hash dimensions))) :
    l.answer hash now dimensions config =
      .ok (if config.cost ≤ credit c now (l.buckets (hashDimensions hash dimensions)) then
        ⟨true, none⟩
      else
        ⟨false, some ⌈(config.cost - credit c now
          (l.buckets (hashDimensions hash dimensions))) / c.refillRate⌉₊⟩) := by
  rw [Limiter.answer, checkLimit_eq hvalid hsame hsound]
  split <;> rfl

theorem credit_of_quiet {least : ℚ} (hsound : Sound c l.now (l.buckets key))
    (hleast : least ≤ credit c l.now (l.buckets key)) (hrun : Reaches (Limiter.step hash)
      (fun _ event => UsesQuota hash c key event ∧ ¬ IsAttemptOn hash key event.call) l l') :
    l.now ≤ l'.now ∧ min c.capacity (least + c.refillRate * ((l'.now : ℚ) - l.now)) ≤
      credit c l'.now (l'.buckets key) := by
  have hall : Sound c l'.now (l'.buckets key) ∧ l.now ≤ l'.now ∧
      min c.capacity (least + c.refillRate * ((l'.now : ℚ) - l.now)) ≤
        credit c l'.now (l'.buckets key) := by
    apply Reaches.invariant (P := fun l' : Limiter κ => Sound c l'.now (l'.buckets key) ∧
      l.now ≤ l'.now ∧ min c.capacity (least + c.refillRate * ((l'.now : ℚ) - l.now)) ≤
        credit c l'.now (l'.buckets key)) _ _ hrun
    · intro l₁ event l₂ ⟨hsound₁, hlater₁, hcredit₁⟩ ⟨huses, hquiet⟩ hstep
      obtain ⟨hnow, rfl⟩ := step_eq_some_iff.mp hstep
      have hsound₂ : Sound c event.now (l₁.buckets key) := hsound₁.later hnow
      have heffect := effect_after hvalid huses hsound₂
      have hgrown : min c.capacity (least + c.refillRate * ((event.now : ℚ) - l.now)) ≤
          credit c event.now (l₁.buckets key) := by
        have haccrued : 0 ≤ c.refillRate * ((event.now : ℚ) - l₁.now) := by
          apply mul_nonneg (refillRate_pos hvalid).le
          have hcast : (l₁.now : ℚ) ≤ event.now := by exact_mod_cast hnow
          linarith
        have hsplit : least + c.refillRate * ((event.now : ℚ) - l.now) =
            least + c.refillRate * ((l₁.now : ℚ) - l.now) +
              c.refillRate * ((event.now : ℚ) - l₁.now) := by ring
        rw [credit_later hvalid hsound₁ hnow]
        apply le_min (min_le_left _ _)
        rw [hsplit]
        cases min_le_iff.mp hcredit₁ with
        | inl => exact (min_le_left _ _).trans (by linarith)
        | inr => exact (min_le_right _ _).trans (by linarith)
      have hkept : credit c event.now (l₁.buckets key) ≤
          credit c event.now ((l₁.after hash event.now event.call).buckets key) := by
        generalize (l₁.after hash event.now event.call).buckets key = stored' at heffect ⊢
        generalize (l₁.after hash event.now event.call).admitted key = log' at heffect
        cases heffect with
        | idle => exact le_refl _
        | refilled => rw [credit_refilled]
        | paid hcall => exact absurd hcall hquiet
        | forgotten => rw [credit_none]; exact credit_le hvalid hsound₂
      rw [now_after]
      exact ⟨sound_of_effect hvalid heffect hsound₂, hlater₁.trans hnow, hgrown.trans hkept⟩
    · refine ⟨hsound, le_refl _, ?_⟩
      rw [sub_self, mul_zero, add_zero]
      exact (min_le_right _ _).trans hleast
  exact hall.2

theorem canAttempt_iff_of_denied {now later : ℤ} {config : RateLimitConfig}
    {dimensions : RateLimitDimensions} {retryAfterMs : ℕ} (hsame : config.SameQuota c)
    (hsound : Sound c l.now (l.buckets (hashDimensions hash dimensions))) (hnow : l.now ≤ now)
    (hdenied : l.answer hash now dimensions config = .ok ⟨false, some retryAfterMs⟩)
    (hrun : Reaches (Limiter.step hash) (fun _ event =>
        UsesQuota hash c (hashDimensions hash dimensions) event ∧
          ¬ IsAttemptOn hash (hashDimensions hash dimensions) event.call)
      (l.after hash now (.checkLimit dimensions config)) l') (hlater : l'.now ≤ later)
    (hdelay : now + retryAfterMs ≤ later) :
    l'.answer hash later dimensions config = .ok ⟨true, none⟩ ↔
      config.cost ≤ c.capacity := by
  have hrate : 0 < c.refillRate := refillRate_pos hvalid
  have hsound₁ : Sound c now (l.buckets (hashDimensions hash dimensions)) := hsound.later hnow
  -- the denied attempt leaves the bucket with what it found in it
  rw [answer_eq hvalid hsame hsound₁] at hdenied
  have hshort : ¬ (config.cost : ℚ) ≤
      credit c now (l.buckets (hashDimensions hash dimensions)) := by
    intro henough
    rw [if_pos henough] at hdenied
    cases hdenied
  rw [if_neg hshort] at hdenied
  have hafter : (l.after hash now (.checkLimit dimensions config)).buckets
      (hashDimensions hash dimensions) =
        some ⟨credit c now (l.buckets (hashDimensions hash dimensions)), now⟩ := by
    simp only [Limiter.after, checkLimit_eq hvalid hsame hsound₁, if_neg hshort,
      Function.update_self]
  generalize credit c now (l.buckets (hashDimensions hash dimensions)) = found
    at hafter hdenied hshort
  have hhint : ⌈(config.cost - found) / c.refillRate⌉₊ = retryAfterMs := by
    simpa using hdenied
  have hsound₂ : Sound c (l.after hash now (.checkLimit dimensions config)).now
      ((l.after hash now (.checkLimit dimensions config)).buckets
        (hashDimensions hash dimensions)) := by
    rw [now_after]
    exact sound_of_effect hvalid (effect_after hvalid (fun _ => hsame) hsound₁) hsound₁
  have hsound' : Sound c l'.now (l'.buckets (hashDimensions hash dimensions)) :=
    sound_of_reaches hvalid (fun _ _ hallowed => hallowed.1) hsound₂ hrun
  have hsound'' : Sound c later (l'.buckets (hashDimensions hash dimensions)) :=
    hsound'.later hlater
  rw [answer_eq hvalid hsame hsound'']
  apply Iff.intro
  · intro hadmitted
    by_contra hmore
    have hcap := credit_le hvalid hsound''
    rw [if_neg (by linarith)] at hadmitted
    cases hadmitted
  · intro hfits
    have hleast : found ≤ credit c (l.after hash now (.checkLimit dimensions config)).now
        ((l.after hash now (.checkLimit dimensions config)).buckets
          (hashDimensions hash dimensions)) := by
      rw [now_after, hafter, credit_refilled]
    obtain ⟨-, hgrown⟩ := credit_of_quiet hvalid hsound₂ hleast hrun
    rw [now_after] at hgrown
    -- over the delay the missing tokens flow in
    have hflow : (config.cost : ℚ) - found ≤ c.refillRate * ((later : ℚ) - now) := by
      have hceil : (config.cost - found) / c.refillRate ≤ retryAfterMs :=
        hhint ▸ Nat.le_ceil _
      have hcast : (retryAfterMs : ℚ) ≤ (later : ℚ) - now := by
        have hsum : ((now + retryAfterMs : ℤ) : ℚ) ≤ later := by exact_mod_cast hdelay
        push_cast at hsum
        linarith
      rw [div_le_iff₀ hrate] at hceil
      have hscale := mul_le_mul_of_nonneg_left hcast hrate.le
      linarith
    have henough : (config.cost : ℚ) ≤
        credit c later (l'.buckets (hashDimensions hash dimensions)) := by
      rw [credit_later hvalid hsound' hlater]
      apply le_min hfits
      have haccrued : 0 ≤ c.refillRate * ((later : ℚ) - l'.now) := by
        apply mul_nonneg hrate.le
        have hcast : (l'.now : ℚ) ≤ later := by exact_mod_cast hlater
        linarith
      have hsplit : c.refillRate * ((later : ℚ) - now) =
          c.refillRate * ((l'.now : ℚ) - now) + c.refillRate * ((later : ℚ) - l'.now) := by ring
      cases min_le_iff.mp hgrown with
      | inl | inr => linarith
    rw [if_pos henough]

/-! ## Main results -/

/-- The weight admitted for an endpoint is bounded in every run whose forgotten buckets would
be full, and so in every run at all exactly if half a minute fills a bucket. A denied attempt
is admitted after its delay exactly if its cost is within the capacity. -/
theorem checkLimit_bounded_and_retryable (hash : String → κ) (endpoint : String) :
    (∀ start (l : Limiter κ), Reaches (Limiter.step hash) (fun l event =>
        UsesQuota hash c (hash endpoint) event ∧ KeepsCredit c (hash endpoint) l event)
        (.initial start) l →
      IsBounded c (l.admitted (hash endpoint))) ∧
    ((∀ start (l : Limiter κ), Reaches (Limiter.step hash)
        (fun _ event => UsesQuota hash c (hash endpoint) event) (.initial start) l →
      IsBounded c (l.admitted (hash endpoint))) ↔ c.capacity ≤ 30001 * c.refillRate) ∧
    ∀ start (l : Limiter κ), Reaches (Limiter.step hash)
        (fun _ event => UsesQuota hash c (hash endpoint) event) (.initial start) l →
      ∀ (now : ℤ) (dimensions : RateLimitDimensions) (config : RateLimitConfig)
        (retryAfterMs : ℕ), l.now ≤ now → dimensions.endpoint = endpoint → config.SameQuota c →
      l.answer hash now dimensions config = .ok ⟨false, some retryAfterMs⟩ →
      ∀ l' : Limiter κ, Reaches (Limiter.step hash) (fun _ event =>
          UsesQuota hash c (hash endpoint) event ∧ ¬ IsAttemptOn hash (hash endpoint) event.call)
          (l.after hash now (.checkLimit dimensions config)) l' →
      ∀ later : ℤ, l'.now ≤ later → now + retryAfterMs ≤ later →
      (l'.answer hash later dimensions config = .ok ⟨true, none⟩ ↔
        config.cost ≤ c.capacity) := by
  have hfresh : ∀ start, Sound c (Limiter.initial start : Limiter κ).now
      ((Limiter.initial start : Limiter κ).buckets (hash endpoint)) := by
    simp [Sound, Limiter.initial]
  refine ⟨?bounded, ?exact, ?retry⟩
  case bounded =>
    intro start l hrun
    exact isBounded_of_reaches hvalid (fun _ _ hallowed => hallowed.1)
      (fun _ _ _ _ hallowed => hallowed.2) hrun
  case exact =>
    apply Iff.intro
    · intro hbounded
      obtain ⟨l, hrun, hlog⟩ := exists_drained_twice hvalid hash endpoint
      have htwice := hbounded 0 l hrun 0 30001 (by norm_num)
      rw [hlog] at htwice
      have hspent : spentWithin 0 (0 + 30001)
          [⟨30001, c.capacity⟩, ⟨0, c.capacity⟩] = c.capacity + c.capacity := by
        simp [spentWithin, spent]
      rw [hspent] at htwice
      linarith
    · intro hsmall start l hrun
      exact isBounded_of_reaches hvalid (fun _ _ hallowed => hallowed)
        (fun _ _ hsound _ _ => keepsCredit_of_capacity_le hvalid hsmall hsound) hrun
  case retry =>
    intro start l hrun now dimensions config retryAfterMs hnow hendpoint hsame hdenied l' hquiet
      later hlater hdelay
    subst hendpoint
    exact canAttempt_iff_of_denied hvalid hsame
      (sound_of_reaches hvalid (fun _ _ hallowed => hallowed) (hfresh start) hrun) hnow hdenied
      hquiet hlater hdelay

end Bound

/-- Ten attempts a second with a burst of ten: half a minute fills the bucket. -/
theorem checkLimit_bounded_ten_per_second :
    validateRateLimitConfig ⟨10, 1000, 10, none⟩ = .ok () ∧
    ∀ start (l : Limiter String), Reaches (Limiter.step id)
        (fun _ event => UsesQuota id ⟨10, 1000, 10, none⟩ "https://a.example/hook" event)
        (.initial start) l →
      IsBounded ⟨10, 1000, 10, none⟩ (l.admitted "https://a.example/hook") := by
  have hvalid : validateRateLimitConfig ⟨10, 1000, 10, none⟩ = .ok () := by decide +kernel
  refine ⟨hvalid, (checkLimit_bounded_and_retryable hvalid id "https://a.example/hook").2.1.mpr ?_⟩
  norm_num [RateLimitConfig.capacity, RateLimitConfig.refillRate]

/-- One attempt a second with a burst of forty, spent twice around a cleanup; and one attempt
a second without a burst, where a second attempt costs more than the capacity. -/
theorem checkLimit_drained_and_denied_again :
    let hook : ℕ → RateLimitDimensions := fun n => ⟨"t", "https://a.example/hook", "retry", n⟩
    let bursty : Call := .checkLimit (hook 20) ⟨1, 1000, 40, some 20⟩
    let steady : RateLimitConfig := ⟨1, 1000, 0, some 2⟩
    ((run (Limiter.step id) (.initial 0)
        [⟨0, bursty⟩, ⟨0, bursty⟩, ⟨30001, .cleanupStaleBuckets⟩, ⟨30001, bursty⟩,
          ⟨30001, bursty⟩]).map fun l => decide
      (spentWithin 0 30001 (l.admitted "https://a.example/hook") ≤ 40 + 1 / 1000 * 30001)) =
        some false ∧
    (Limiter.initial 0 : Limiter String).answer id 0 (hook 2) steady =
        .ok ⟨false, some 1000⟩ ∧
      ((Limiter.initial 0 : Limiter String).after id 0 (.checkLimit (hook 2) steady)).answer id
        1000 (hook 2) steady = .ok ⟨false, some 1000⟩ := by
  refine ⟨?twice, ?denied, ?again⟩
  case twice => decide +kernel
  case denied => decide +kernel
  case again => decide +kernel

end Fluxora.Webhooks.RateLimiter
