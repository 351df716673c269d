/-
# Retry policy and retry bookkeeping

The retry side of webhook delivery: the backoff, the decision to try again, the gate in front of
an attempt, and the payload a retried row is given. A retried row is a new outbox row; what it
remembers of its past is the attempt number that `augmentPayloadWithRetry` writes into the
payload.

The last section follows a payload through any number of retries. The bookkeeping reads back what
it wrote whatever the payload is, but it is a key of the payload like any other, and the strict
schemas refuse it.
-/

import Fluxora.Webhooks.Payload

namespace Fluxora.Webhooks

open Lib

/-! ## Policy and backoff -/

inductive JitterAlgorithm
  | full
  | decorrelated
  | legacy
  deriving DecidableEq

/-- The retry policy. Optional numbers are `none` when the policy leaves them
out. -/
structure EnhancedRetryPolicy where
  maxAttempts : ℤ
  initialBackoffMs : ℚ
  maxBackoffMs : ℚ
  jitterPercent : ℚ
  jitterAlgorithm : Option JitterAlgorithm
  retryableStatusCodes : List ℕ
  circuitBreakerThreshold : Option ℕ
  circuitBreakerResetMs : Option ℕ
  previousDelayMs : Option ℚ

def defaultRetryPolicy : EnhancedRetryPolicy where
  maxAttempts := 5
  initialBackoffMs := 1000
  maxBackoffMs := 60000
  jitterPercent := 10
  jitterAlgorithm := none
  retryableStatusCodes := [408, 425, 429, 500, 502, 503, 504]
  circuitBreakerThreshold := none
  circuitBreakerResetMs := none
  previousDelayMs := none

/-- `Math.round`: halves go up. -/
def mathRound (x : ℚ) : ℤ := ⌊x + 1 / 2⌋

structure JitteredRetryOptions where
  baseDelayMs : ℚ
  maxDelayMs : ℚ
  maxAttempts : ℤ
  jitterAlgorithm : JitterAlgorithm
  jitterPercent : ℚ
  previousDelayMs : Option ℚ

/-- The jittered delay before the next attempt, for one draw of the random
source. -/
def calculateNextRetryDelay (attemptNumber : ℕ) (options : JitteredRetryOptions)
    (random : ℚ) : ℤ :=
  if (attemptNumber : ℤ) ≥ options.maxAttempts then 0
  else
    let capped := min options.maxDelayMs (options.baseDelayMs * 2 ^ attemptNumber)
    if options.jitterPercent = 0 then mathRound capped
    else
      let jitteredDelay :=
        match options.jitterAlgorithm with
        | .full => random * capped
        | .decorrelated =>
          let previousDelay := options.previousDelayMs.getD options.baseDelayMs
          let maxJitter := min options.maxDelayMs (previousDelay * 3)
          options.baseDelayMs + random * max 0 (maxJitter - options.baseDelayMs)
        | .legacy =>
          let range := (capped - options.baseDelayMs) * (options.jitterPercent / 100)
          options.baseDelayMs + random * max 0 range
      max 0 (mathRound jitteredDelay)

/-- When the next retry is due, or 0 once the attempts are used up. -/
def calculateNextRetryTime (attemptNumber : ℕ) (policy : EnhancedRetryPolicy) (now : ℤ)
    (random : ℚ) : ℤ :=
  if (attemptNumber : ℤ) ≥ policy.maxAttempts then 0
  else now + calculateNextRetryDelay attemptNumber
    { baseDelayMs := policy.initialBackoffMs
      maxDelayMs := policy.maxBackoffMs
      maxAttempts := policy.maxAttempts
      jitterAlgorithm := policy.jitterAlgorithm.getD .full
      jitterPercent := policy.jitterPercent
      previousDelayMs := policy.previousDelayMs } random

/-! ## The retry decision -/

structure WebhookDeliveryAttempt where
  attemptNumber : ℕ
  timestamp : ℤ
  statusCode : Option ℕ
  error : Option String
  nextRetryAt : Option ℤ

/-- A status the HTTP standard calls successful. -/
def isSuccessStatus (statusCode : ℕ) : Bool := 200 ≤ statusCode ∧ statusCode < 300

/-- Strings are true when they are not empty. -/
def truthy (text : Option String) : Bool := text.getD "" ≠ ""

/-- The test for a delivered attempt that the sources repeat in three places. -/
def WebhookDeliveryAttempt.isSuccess (attempt : WebhookDeliveryAttempt) : Bool :=
  attempt.statusCode.any isSuccessStatus && !truthy attempt.error

/-- Determine whether an HTTP status code should trigger a retry. -/
def isRetryableStatusCode (statusCode : Option ℕ) (policy : EnhancedRetryPolicy) : Bool :=
  match statusCode with
  | none => true
  | some code => policy.retryableStatusCodes.contains code

/-- The breaker threshold is set and the failures have reached it. -/
def thresholdReached (policy : EnhancedRetryPolicy) (consecutiveFailures : ℕ) : Bool :=
  match policy.circuitBreakerThreshold with
  | none => false
  | some threshold => threshold ≠ 0 ∧ threshold ≤ consecutiveFailures

/-- Return true if another delivery attempt should be made. -/
def shouldRetry (attempt : WebhookDeliveryAttempt) (attemptNumber : ℕ)
    (policy : EnhancedRetryPolicy) (consecutiveFailures : ℕ) : Bool :=
  if (attemptNumber : ℤ) ≥ policy.maxAttempts then false
  else if thresholdReached policy consecutiveFailures then false
  else isRetryableStatusCode attempt.statusCode policy

/-- Return true when a failed attempt should count against the circuit breaker. -/
def countsTowardCircuitBreaker (attempt : WebhookDeliveryAttempt)
    (policy : EnhancedRetryPolicy) : Bool :=
  if attempt.isSuccess then false else isRetryableStatusCode attempt.statusCode policy

/-! ## The delivery gate -/

inductive WebhookCircuitBreakerPhase
  | closed
  | opened
  | halfOpen
  deriving DecidableEq

structure WebhookCircuitBreakerCheckResult where
  allowed : Bool
  state : WebhookCircuitBreakerPhase
  consecutiveFailures : ℕ
  resetAt : Option ℤ

structure RateLimitDimensions where
  tenant : String
  endpoint : String
  outcome : String
  weight : ℕ

structure RateLimitResult where
  canAttempt : Bool
  retryAfterMs : Option ℕ

/-- What the stores around a delivery answer, and the clock and the random draw. -/
structure GateServices where
  now : ℤ
  random : ℚ
  /-- `checkAndClaimAttempt` for a consumer key. -/
  checkAndClaimAttempt : String → WebhookCircuitBreakerCheckResult
  /-- The failure count after `recordSuccess`. -/
  recordSuccess : String → ℕ
  /-- The failure count after `recordFailure`. -/
  recordFailure : String → ℕ
  /-- `checkLimit`, when a rate limiter is configured. -/
  checkLimit : Option (RateLimitDimensions → RateLimitResult)
  windowMs : ℕ

def halfOpenContentionDeferralMs : ℤ := 1000

def calculateCircuitBreakerResetTime (policy : EnhancedRetryPolicy) (now : ℤ) : ℤ :=
  match policy.circuitBreakerResetMs with
  | none => 0
  | some resetMs => if resetMs = 0 then 0 else now + resetMs

/-- Resolve when a gated delivery should be retried. -/
def resolveCircuitBreakerDeferral (breaker : WebhookCircuitBreakerCheckResult)
    (policy : EnhancedRetryPolicy) (now : ℤ) : ℤ :=
  match breaker.resetAt.filter (now < ·) with
  | some resetAt => resetAt
  | none =>
    if breaker.state = .halfOpen then now + halfOpenContentionDeferralMs
    else max (calculateCircuitBreakerResetTime policy now)
      (now + halfOpenContentionDeferralMs)

/-- The gate lets the delivery through, with the failure count it saw, or defers
it to a time. -/
inductive WebhookDeliveryGateResult
  | deliver (consecutiveFailures : ℕ)
  | defer (retryAt : ℤ) (rateLimited : Bool)

/-- Evaluate circuit-breaker and rate-limit gates before an outbound webhook
attempt. -/
def checkWebhookDeliveryGate (services : GateServices) (consumerKey : String)
    (policy : EnhancedRetryPolicy) (dimensions : RateLimitDimensions) :
    WebhookDeliveryGateResult :=
  let breaker := services.checkAndClaimAttempt consumerKey
  if !breaker.allowed then
    .defer (resolveCircuitBreakerDeferral breaker policy services.now) false
  else
    match services.checkLimit with
    | none => .deliver breaker.consecutiveFailures
    | some checkLimit =>
      let limit := checkLimit dimensions
      if limit.canAttempt then .deliver breaker.consecutiveFailures
      else .defer (services.now + limit.retryAfterMs.getD services.windowMs) true

/-! ## One gated attempt -/

/-- Write the attempt number into a payload. Objects and arrays are spread into a
fresh object, anything else is put under `value`. -/
def augmentPayloadWithRetry (payload : Json) (attemptNumber : ℕ) : Json :=
  let base :=
    match payload with
    | .object entries => entries
    | .array items => items.zipIdx.map fun item => (toString item.2, item.1)
    | scalar => [("value", scalar)]
  .object (Properties.set retryKey
    (.object [("attemptNumber", .number attemptNumber)]) base)

structure WebhookOutboxRetryInput where
  consumerUrl : String
  streamId : String
  payload : Json
  attemptNumber : ℕ

/-- The plan that comes out of an attempt. `attempt` is absent when the gate
deferred the delivery. -/
structure WebhookOutboxRetryPlan where
  shouldRetry : Bool
  attemptNumber : ℕ
  retryAt : Option ℤ
  payload : Json
  attempt : Option WebhookDeliveryAttempt

/-- The tenant a delivery is rate limited under. -/
def rateLimitTenant (input : WebhookOutboxRetryInput) : String :=
  match property "tenant_id" input.payload, property "tenantId" input.payload with
  | some (.string tenant), _ => tenant
  | _, some (.string tenant) => tenant
  | _, _ => input.streamId

def rateLimitDimensions (input : WebhookOutboxRetryInput) : RateLimitDimensions where
  tenant := rateLimitTenant input
  endpoint := input.consumerUrl
  outcome := if input.attemptNumber > 1 then "retry" else "first_attempt"
  weight := if input.attemptNumber > 1 then input.attemptNumber else 1

/-- The failure count the retry decision is made with: the one the breaker reports
after the attempt is recorded, or the gate's when nothing is recorded. -/
def failuresAfter (services : GateServices) (consumerKey : String)
    (policy : EnhancedRetryPolicy) (gateFailures : ℕ) (attempt : WebhookDeliveryAttempt) : ℕ :=
  if attempt.isSuccess then services.recordSuccess consumerKey
  else if countsTowardCircuitBreaker attempt policy then services.recordFailure consumerKey
  else gateFailures

/-- Wrap a webhook delivery with per-consumer rate limiting and circuit-breaker
protection. The attempt is the result of `deliver`, used only when the gate lets
the delivery through. -/
def attemptWebhookDeliveryWithRateLimit (services : GateServices)
    (policy : EnhancedRetryPolicy) (input : WebhookOutboxRetryInput)
    (deliver : WebhookDeliveryAttempt) : WebhookOutboxRetryPlan :=
  match checkWebhookDeliveryGate services input.consumerUrl policy
      (rateLimitDimensions input) with
  | .defer retryAt _ => ⟨true, input.attemptNumber + 1, some retryAt, input.payload, none⟩
  | .deliver gateFailures =>
    let failures := failuresAfter services input.consumerUrl policy gateFailures deliver
    if !shouldRetry deliver input.attemptNumber policy failures then
      ⟨false, input.attemptNumber + 1, none, input.payload, some deliver⟩
    else
      ⟨true, input.attemptNumber + 1,
        some (calculateNextRetryTime input.attemptNumber policy services.now services.random),
        augmentPayloadWithRetry input.payload (input.attemptNumber + 1), some deliver⟩

/-! ## Bookkeeping of one retry -/

/-- A payload without its retry state. -/
def stripRetry : Json → Json
  | .object entries => .object (Properties.erase retryKey entries)
  | payload => payload

@[simp]
theorem extractAttemptNumber_augmentPayloadWithRetry (payload : Json) (n : ℕ) :
    extractAttemptNumber (augmentPayloadWithRetry payload (n + 1)) = n + 1 := by
  have hpositive : (0 : ℚ) < ((n + 1 : ℕ) : ℚ) := by exact_mod_cast n.succ_pos
  have hread : (property retryKey (augmentPayloadWithRetry payload (n + 1))).bind
      (property "attemptNumber") = some (.number ((n + 1 : ℕ) : ℚ)) := by
    simp [augmentPayloadWithRetry, property]
  rw [extractAttemptNumber, hread]
  simp only [if_pos hpositive]
  simp

@[simp]
theorem stripRetry_augment_object (entries : List (String × Json)) (n : ℕ) :
    stripRetry (augmentPayloadWithRetry (.object entries) n) = stripRetry (.object entries) := by
  simp [augmentPayloadWithRetry, stripRetry]

theorem isObject_stripRetry_augment (payload : Json) (n : ℕ) :
    isObject (stripRetry (augmentPayloadWithRetry payload n)) = true := rfl

@[simp]
theorem isObject_stripRetry (payload : Json) :
    isObject (stripRetry payload) = isObject payload := by
  cases payload <;> rfl

theorem stripRetry_augment_iff (payload : Json) (n : ℕ) :
    stripRetry (augmentPayloadWithRetry payload n) = stripRetry payload ↔
      isObject payload = true := by
  apply Iff.intro
  · intro hequal
    rw [← isObject_stripRetry, ← hequal]
    exact isObject_stripRetry_augment payload n
  · intro hobject
    cases payload with
    | object entries => exact stripRetry_augment_object entries n
    | _ => cases hobject

theorem stripRetry_eq_self_iff (payload : Json) :
    stripRetry payload = payload ↔ carriesRetryKey payload = false := by
  cases payload with
  | object entries =>
    simp only [stripRetry, carriesRetryKey, Json.object.injEq, decide_eq_false_iff_not]
    exact Properties.erase_eq_self_iff retryKey entries
  | _ => simp [stripRetry, carriesRetryKey]

theorem namesEvent_augment_object (entries : List (String × Json)) (n : ℕ) :
    namesEvent (augmentPayloadWithRetry (.object entries) n) = namesEvent (.object entries) := by
  have hkeys : "event" ≠ retryKey := by decide
  simp only [namesEvent, property, augmentPayloadWithRetry, Properties.lookup_set_of_ne hkeys]

/-! ## Any number of retries -/

section

variable (rt : Runtime)

/-- The payload of a row after a number of retries: every pick-up reads the attempt
number, and the failed attempt writes the next one. -/
def afterRetries (payload : Json) : ℕ → Json
  | 0 => payload
  | retries + 1 =>
    let previous := afterRetries payload retries
    normalizePayload rt
      (augmentPayloadWithRetry previous (extractAttemptNumber previous + 1))

/-- Every retry is accepted again, reads back the attempt number that was written,
and has the original payload as its body. -/
def RetryClosed (payload : Json) : Prop :=
  ∀ retries,
    validateWebhookPayload rt (afterRetries rt payload (retries + 1)) = .ok () ∧
    extractAttemptNumber (afterRetries rt payload (retries + 1)) =
      extractAttemptNumber (afterRetries rt payload retries) + 1 ∧
    stripRetry (afterRetries rt payload (retries + 1)) = payload

theorem afterRetries_succ (payload : Json) (retries : ℕ) :
    afterRetries rt payload (retries + 1) =
      augmentPayloadWithRetry (afterRetries rt payload retries)
        (extractAttemptNumber (afterRetries rt payload retries) + 1) := rfl

theorem afterRetries_object (entries : List (String × Json)) (retries : ℕ) :
    ∃ entries', afterRetries rt (.object entries) retries = .object entries' ∧
      stripRetry (.object entries') = stripRetry (.object entries) ∧
      namesEvent (.object entries') = namesEvent (.object entries) := by
  induction retries with
  | zero => exact ⟨entries, rfl, rfl, rfl⟩
  | succ _ ih =>
    obtain ⟨entries', hafter, hbody, hevent⟩ := ih
    rw [afterRetries_succ, hafter]
    refine ⟨_, rfl, ?_, ?_⟩
    · exact (stripRetry_augment_object entries' _).trans hbody
    · exact (namesEvent_augment_object entries' _).trans hevent

variable {entries : List (String × Json)}

theorem validateWebhookPayload_object (hevent : namesEvent (.object entries) = false) :
    validateWebhookPayload rt (.object entries) = .ok () := by
  rw [validateWebhookPayload]
  split
  · next eventType hlookup =>
      have hnamed : namesEvent (.object entries) = true := by
        simp [namesEvent, property, hlookup]
      rw [hnamed] at hevent
      cases hevent
  · rfl

theorem validateWebhookPayload_ne_ok (hevent : namesEvent (.object entries) = true)
    (hkey : retryKey ∈ Properties.keys entries) :
    validateWebhookPayload rt (.object entries) ≠ .ok () := by
  rw [validateWebhookPayload]
  split
  · exact validatePublishedPayload_ne_ok_of_retryKey hkey
  · simp [namesEvent, property] at hevent

theorem validateWebhookPayload_augment_ne_ok (n : ℕ)
    (hevent : namesEvent (.object entries) = true) :
    validateWebhookPayload rt (augmentPayloadWithRetry (.object entries) n) ≠ .ok () := by
  apply validateWebhookPayload_ne_ok
  · exact (namesEvent_augment_object entries n).trans hevent
  · exact Properties.mem_keys_set retryKey _ entries

/-- The retry law holds of a payload exactly when it is an object that names no
event type and has no retry key of its own. Every published event payload names its
type, so that none of them survives its first retry. -/
theorem retryClosed_iff (payload : Json) :
    RetryClosed rt payload ↔
      isObject payload = true ∧ carriesRetryKey payload = false ∧
        namesEvent payload = false := by
  apply Iff.intro
  · intro hclosed
    -- the first retry already decides
    obtain ⟨hvalid, _, hbody⟩ := hclosed 0
    have hobject : isObject payload = true := by
      rw [← hbody]
      exact isObject_stripRetry_augment _ _
    cases payload with
    | object entries =>
      refine ⟨hobject, ?_, ?_⟩
      · rw [← stripRetry_eq_self_iff]
        exact (stripRetry_augment_object entries _).symm.trans hbody
      · rw [Bool.eq_false_iff]
        intro hevent
        exact validateWebhookPayload_augment_ne_ok rt _ hevent hvalid
    | _ => cases hobject
  · rintro ⟨hobject, hkey, hevent⟩ retries
    cases payload with
    | object entries =>
      obtain ⟨entries', hafter, hbody, hevent'⟩ :=
        afterRetries_object rt entries (retries + 1)
      refine ⟨?_, ?_, ?_⟩
      · rw [hafter]
        exact validateWebhookPayload_object rt (hevent'.trans hevent)
      · rw [afterRetries_succ]
        exact extractAttemptNumber_augmentPayloadWithRetry _ _
      · rw [hafter, hbody]
        exact (stripRetry_eq_self_iff _).mpr hkey
    | _ => cases hobject

end

/-- The payload that a cancelled stream publishes. -/
def cancelledPayload : Json :=
  .object [("event", .string "stream.cancelled"), ("schema_version", .number 1),
    ("status", .string "cancelled")]

/-- The published cancellation payload is accepted, and refused after its first
retry. -/
theorem cancelledPayload_not_retryClosed :
    (∀ rt, validateWebhookPayload rt cancelledPayload = .ok ()) ∧
    (∀ rt, validateWebhookPayload rt (afterRetries rt cancelledPayload 1) =
      .error (.schemaMismatch "stream.cancelled")) ∧
    ∀ rt, ¬ RetryClosed rt cancelledPayload := by
  have hrefused : ∀ rt, validateWebhookPayload rt (afterRetries rt cancelledPayload 1) =
      .error (.schemaMismatch "stream.cancelled") := fun _ => rfl
  refine ⟨fun _ => rfl, hrefused, ?_⟩
  intro rt hclosed
  have haccepted := (hclosed 0).1
  rw [hrefused rt] at haccepted
  cases haccepted

end Fluxora.Webhooks
