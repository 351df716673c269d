/-
# Deliveries of the webhook service

The service attempts a delivery when the gate lets it through: it makes the request, tells the
breaker of the outcome, and settles the delivery, which is retried later or given up. The store
of the breakers is a parameter with a state of its own; Redis is one, the memory of a process
another one.
-/

import Fluxora.Webhooks.BreakerStore
import Fluxora.Webhooks.Delivery

namespace Fluxora.Webhooks

universe u

/-! ## Stores of breakers -/

/-- A store as deliveries use it, with the times that the callers give. -/
structure WebhookCircuitBreakerStore (σ : Type u) where
  checkAndClaimAttempt : String → CircuitBreakerPolicy → ℤ → σ →
    WebhookCircuitBreakerCheckResult × σ
  recordSuccess : String → CircuitBreakerPolicy → ℤ → σ → WebhookCircuitBreakerRecord × σ
  recordFailure : String → CircuitBreakerPolicy → ℤ → σ → WebhookCircuitBreakerRecord × σ
  getState : String → ℤ → σ → Option WebhookCircuitBreakerRecord

/-- The store in Redis, under the hashes of the URLs. -/
def redisBreakerStore (hashConsumerUrl : String → String) :
    WebhookCircuitBreakerStore RedisBreakers where
  checkAndClaimAttempt url policy now redis :=
    redis.checkAndClaimAttempt (hashConsumerUrl url) policy now
  recordSuccess url policy now redis := redis.recordSuccess (hashConsumerUrl url) policy now
  recordFailure url policy now redis := redis.recordFailure (hashConsumerUrl url) policy now
  getState url now redis := redis.getState (hashConsumerUrl url) now

/-- The part of a retry policy that breakers look at. -/
def EnhancedRetryPolicy.breaker (policy : EnhancedRetryPolicy) : CircuitBreakerPolicy :=
  ⟨policy.circuitBreakerThreshold, policy.circuitBreakerResetMs⟩

/-- What an attempt is made with: the time of the gate, the time at which the attempt has ended,
and the draw of the backoff. -/
structure AttemptEnv where
  runtime : Runtime
  policy : EnhancedRetryPolicy
  maxResponseBytes : ℕ
  started : ℤ
  ended : ℤ
  random : ℚ

section

variable {σ : Type u} (store : WebhookCircuitBreakerStore σ) (env : AttemptEnv)

/-- The services of a gate whose breakers are in a store. -/
def gateServices (checkLimit : Option (RateLimitDimensions → RateLimitResult)) (windowMs : ℕ)
    (s : σ) : GateServices :=
  let claimed (url : String) := store.checkAndClaimAttempt url env.policy.breaker env.started s
  { now := env.started
    random := env.random
    checkAndClaimAttempt := fun url => (claimed url).1
    recordSuccess := fun url =>
      (store.recordSuccess url env.policy.breaker env.ended (claimed url).2).1.consecutiveFailures
    recordFailure := fun url =>
      (store.recordFailure url env.policy.breaker env.started
        (claimed url).2).1.consecutiveFailures
    checkLimit := checkLimit
    windowMs := windowMs }

/-! ## One attempt -/

/-- The failures after an attempt that did not succeed. Only one that counts is recorded. -/
def recordUnsuccessful (endpointUrl : String) (attempt : WebhookDeliveryAttempt) (s : σ) :
    ℕ × σ :=
  if countsTowardCircuitBreaker attempt env.policy then
    let recorded := store.recordFailure endpointUrl env.policy.breaker env.ended s
    (recorded.1.consecutiveFailures, recorded.2)
  else (((store.getState endpointUrl env.ended s).map (·.consecutiveFailures)).getD 0, s)

/-- Tell the breaker of an outcome; the answer is its count of failures. -/
def recordBreakerOutcome (endpointUrl : String) (attempt : WebhookDeliveryAttempt) (s : σ) :
    ℕ × σ :=
  if attempt.isSuccess then
    let recorded := store.recordSuccess endpointUrl env.policy.breaker env.ended s
    (recorded.1.consecutiveFailures, recorded.2)
  else recordUnsuccessful store env endpointUrl attempt s

def failureReason (attempt : WebhookDeliveryAttempt) (attemptNumber : ℕ) : String :=
  let what :=
    if truthy attempt.error then attempt.error.getD ""
    else "HTTP " ++ (attempt.statusCode.map toString).getD "undefined"
  what ++ " after " ++ toString attemptNumber ++
    (if attemptNumber = 1 then " attempt" else " attempts")

/-- What becomes of a delivery once the breaker has its outcome: a retry, for which the attempt
at the index is given the time, or the dead-letter queue. -/
def settleDelivery (attempt : WebhookDeliveryAttempt) (attemptNumber consecutiveFailures : ℕ)
    (index : ℕ) (delivery : WebhookDelivery) (queue : List DeadLetterQueueItem) :
    WebhookDelivery × List DeadLetterQueueItem :=
  if delivery.status = .delivered then (delivery, queue)
  else if shouldRetry attempt attemptNumber env.policy consecutiveFailures then
    let nextRetryAt := calculateNextRetryTime attemptNumber env.policy env.ended env.random
    ({ delivery with
        status := .pending
        attempts := delivery.attempts.modify index fun made =>
          { made with nextRetryAt := some nextRetryAt } }, queue)
  else
    let delivery := { delivery with status := .permanentFailure }
    (delivery, enqueuePermanentFailureToDlq delivery (failureReason attempt attemptNumber) .other
      queue)

/-- Attempt to deliver a webhook that the gate has let through. -/
def attemptDelivery (exchange : HttpExchange) (delivery : WebhookDelivery)
    (queue : List DeadLetterQueueItem) (s : σ) :
    (WebhookDelivery × List DeadLetterQueueItem) × σ :=
  let index := delivery.attempts.length
  let made := runDeliveryAttempt env.runtime env.policy env.maxResponseBytes exchange env.ended
    env.random delivery
  let recorded := recordBreakerOutcome store env delivery.endpointUrl made.1 s
  (settleDelivery env made.1 (index + 1) recorded.1 index made.2 queue, recorded.2)

/-! ## Behind the gate -/

/-- The gate of a delivery, without a rate limiter. -/
def serviceGate (delivery : WebhookDelivery) (s : σ) : WebhookDeliveryGateResult × σ :=
  (checkWebhookDeliveryGate (gateServices store env none 0 s) delivery.endpointUrl env.policy
      ⟨"default", delivery.endpointUrl, "first_attempt", 1⟩,
    (store.checkAndClaimAttempt delivery.endpointUrl env.policy.breaker env.started s).2)

/-- A new delivery that is put off is given an attempt, although none was made. -/
def deferQueued (now retryAt : ℤ) (delivery : WebhookDelivery) : WebhookDelivery :=
  { delivery with attempts := delivery.attempts ++ [⟨1, now, none, none, some retryAt⟩] }

/-- A retry that is put off gets another time at the last attempt. -/
def deferRetry (retryAt : ℤ) (delivery : WebhookDelivery) : WebhookDelivery :=
  { delivery with
    attempts := delivery.attempts.modify (delivery.attempts.length - 1) fun last =>
      { last with nextRetryAt := some retryAt } }

/-- Queue a webhook delivery, with an attempt at once when the breaker lets it through. -/
def queueDelivery (exchange : HttpExchange) (delivery : WebhookDelivery)
    (queue : List DeadLetterQueueItem) (s : σ) :
    (WebhookDelivery × List DeadLetterQueueItem) × σ :=
  let gate := serviceGate store env delivery s
  match gate.1 with
  | .defer retryAt _ => ((deferQueued env.started retryAt delivery, queue), gate.2)
  | .deliver _ => attemptDelivery store env exchange delivery queue gate.2

/-- One delivery that `processPendingRetries` has found to be due. -/
def retryDelivery (exchange : HttpExchange) (delivery : WebhookDelivery)
    (queue : List DeadLetterQueueItem) (s : σ) :
    (WebhookDelivery × List DeadLetterQueueItem) × σ :=
  let gate := serviceGate store env delivery s
  match gate.1 with
  | .defer retryAt _ => ((deferRetry retryAt delivery, queue), gate.2)
  | .deliver _ => attemptDelivery store env exchange delivery queue gate.2

end

end Fluxora.Webhooks
