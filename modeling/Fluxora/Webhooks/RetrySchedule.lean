/-
# When the next attempt is due

An answer with status 429 may say how long to wait. The attempt keeps that wait, and then the
delivery is settled, which schedules the next attempt anew from the policy alone.
-/

import Fluxora.Lib.JsonText
import Fluxora.Webhooks.AttemptBudget

namespace Fluxora.Webhooks

open Lib Lib.JsText

universe u

/-! ## The least delay of a policy -/

/-- The delay after an attempt for the smallest draw. -/
def EnhancedRetryPolicy.leastDelay (policy : EnhancedRetryPolicy) (attemptNumber : ℕ) : ℤ :=
  if policy.jitterPercent = 0 then
    mathRound (min policy.maxBackoffMs (policy.initialBackoffMs * 2 ^ attemptNumber))
  else
    match policy.jitterAlgorithm.getD .full with
    | .full => 0
    | .decorrelated => max 0 (mathRound policy.initialBackoffMs)
    | .legacy => max 0 (mathRound policy.initialBackoffMs)

theorem mathRound_mono {x y : ℚ} (hle : x ≤ y) : mathRound x ≤ mathRound y :=
  Int.floor_le_floor (by linarith)

/-- The options that a policy gives for its delays. -/
def EnhancedRetryPolicy.jitter (policy : EnhancedRetryPolicy) : JitteredRetryOptions where
  baseDelayMs := policy.initialBackoffMs
  maxDelayMs := policy.maxBackoffMs
  maxAttempts := policy.maxAttempts
  jitterAlgorithm := policy.jitterAlgorithm.getD .full
  jitterPercent := policy.jitterPercent
  previousDelayMs := policy.previousDelayMs

variable {policy : EnhancedRetryPolicy} {attemptNumber : ℕ}
  (hbudget : (attemptNumber : ℤ) < policy.maxAttempts)

include hbudget

theorem calculateNextRetryTime_eq (now : ℤ) (random : ℚ) :
    calculateNextRetryTime attemptNumber policy now random =
      now + calculateNextRetryDelay attemptNumber policy.jitter random := by
  rw [calculateNextRetryTime, if_neg (by omega)]
  rfl

theorem leastDelay_le {random : ℚ} (hrandom : 0 ≤ random) :
    policy.leastDelay attemptNumber ≤
      calculateNextRetryDelay attemptNumber policy.jitter random := by
  have hround : ∀ range : ℚ, mathRound policy.initialBackoffMs ≤
      mathRound (policy.initialBackoffMs + random * max 0 range) := by
    intro range
    apply mathRound_mono
    have hnonneg : 0 ≤ random * max 0 range := mul_nonneg hrandom (le_max_left 0 range)
    linarith
  rw [calculateNextRetryDelay, if_neg (by simpa [EnhancedRetryPolicy.jitter] using hbudget),
    EnhancedRetryPolicy.leastDelay]
  by_cases hfixed : policy.jitterPercent = 0
  · rw [if_pos hfixed, if_pos (by exact hfixed)]
    rfl
  · rw [if_neg hfixed, if_neg (by exact hfixed)]
    simp only [EnhancedRetryPolicy.jitter]
    cases policy.jitterAlgorithm.getD .full with
    | full => exact le_max_left 0 _
    | decorrelated | legacy => exact max_le_max (le_refl 0) (hround _)

theorem calculateNextRetryDelay_zero :
    calculateNextRetryDelay attemptNumber policy.jitter 0 = policy.leastDelay attemptNumber := by
  rw [calculateNextRetryDelay, if_neg (by simpa [EnhancedRetryPolicy.jitter] using hbudget),
    EnhancedRetryPolicy.leastDelay]
  by_cases hfixed : policy.jitterPercent = 0
  · rw [if_pos hfixed, if_pos (by exact hfixed)]
    rfl
  · rw [if_neg hfixed, if_neg (by exact hfixed)]
    simp only [EnhancedRetryPolicy.jitter]
    cases policy.jitterAlgorithm.getD .full with
    | full =>
      have hzero : mathRound 0 = 0 := Int.floor_eq_iff.mpr ⟨by norm_num, by norm_num⟩
      simp [hzero]
    | decorrelated | legacy => simp

omit hbudget

/-! ## One attempt, from the answer to the schedule -/

/-- When the next attempt of a delivery is due. -/
def WebhookDelivery.nextRetryAt (delivery : WebhookDelivery) : Option ℤ :=
  delivery.attempts.getLast?.bind (·.nextRetryAt)

section

variable {σ : Type u} (store : WebhookCircuitBreakerStore σ) (env : AttemptEnv)
  (received : ℤ) (firstRandom : ℚ) (exchange : HttpExchange) (delivery : WebhookDelivery) (s : σ)

/-- The answer comes at one time, with a draw of its own; the delivery is settled later. -/
def attemptDeliveryFrom (queue : List DeadLetterQueueItem) :
    (WebhookDelivery × List DeadLetterQueueItem) × σ :=
  let index := delivery.attempts.length
  let made := runDeliveryAttempt env.runtime env.policy env.maxResponseBytes exchange received
    firstRandom delivery
  let recorded := recordBreakerOutcome store env delivery.endpointUrl made.1 s
  (settleDelivery env made.1 (index + 1) recorded.1 index made.2 queue, recorded.2)

theorem attemptDelivery_eq_from (queue : List DeadLetterQueueItem) :
    attemptDelivery store env exchange delivery queue s =
      attemptDeliveryFrom store env env.ended env.random exchange delivery s queue := rfl

/-- The attempt failed in a way that is retried, and its budget is not used up. -/
def IsRetried : Prop :=
  let made := runDeliveryAttempt env.runtime env.policy env.maxResponseBytes exchange received
    firstRandom delivery
  made.2.status ≠ .delivered ∧
    shouldRetry made.1 (delivery.attempts.length + 1) env.policy
      (recordBreakerOutcome store env delivery.endpointUrl made.1 s).1 = true

variable {store env received firstRandom exchange delivery s}

theorem lt_maxAttempts_of_isRetried
    (hretried : IsRetried store env received firstRandom exchange delivery s) :
    ((delivery.attempts.length + 1 : ℕ) : ℤ) < env.policy.maxAttempts := by
  have hretry := hretried.2
  rw [shouldRetry] at hretry
  by_contra hspent
  rw [if_pos (by omega)] at hretry
  cases hretry

theorem modify_length_append {α : Type u} (front : List α) (last : α) (f : α → α) :
    (front ++ [last]).modify front.length f = front ++ [f last] := by
  induction front with
  | nil => rfl
  | cons first _ ih => exact congrArg (first :: ·) ih

theorem nextRetryAt_attemptDeliveryFrom
    (hretried : IsRetried store env received firstRandom exchange delivery s)
    (queue : List DeadLetterQueueItem) :
    (attemptDeliveryFrom store env received firstRandom exchange delivery s
        queue).1.1.nextRetryAt =
      some (env.ended + calculateNextRetryDelay (delivery.attempts.length + 1) env.policy.jitter
        env.random) := by
  have hbudget := lt_maxAttempts_of_isRetried hretried
  obtain ⟨hfailed, hretry⟩ := hretried
  have hmade := runDeliveryAttempt_snd env.runtime env.policy env.maxResponseBytes exchange
    received firstRandom delivery
  simp only [attemptDeliveryFrom, settleDelivery, if_neg hfailed, if_pos hretry,
    WebhookDelivery.nextRetryAt, calculateNextRetryTime_eq hbudget]
  rw [congrArg WebhookDelivery.attempts hmade, modify_length_append, List.getLast?_concat]
  rfl

end

/-! ## What an answer asks for -/

/-- The wait, in milliseconds, that an answer with status 429 asks for: a number of seconds, or
until a date. -/
def requestedDelay (rt : Runtime) (received : ℤ) : HttpExchange → Option ℤ
  | .response status _ (some text) _ =>
    if status = 429 then
      if text.toList ≠ [] ∧ text.toList.all (·.isDigit) then
        some ((DigitText.value text.toList : ℤ) * 1000)
      else (rt.parseDate text).map fun date => max 0 (date - received)
    else none
  | _ => none

theorem parseRetryAfter_of_isDigits (rt : Runtime) (received : ℤ) {text : String}
    (hne : text.toList ≠ []) (hdigits : DigitText.IsDigits text.toList) :
    parseRetryAfter rt (some text) received = some ((DigitText.value text.toList : ℤ) * 1000) := by
  have htext : text ≠ "" := fun hempty => hne (by rw [hempty]; rfl)
  have hspace : ∀ c ∈ text.toList, isWhiteSpace c = false :=
    fun c hc => not_whiteSpace_of_isDigit (hdigits c hc)
  have htrim : trim text.toList = text.toList :=
    JsonText.trim_eq_self (fun c hc => hspace c (List.mem_of_head? hc))
      fun c hc => hspace c (List.mem_of_getLast? hc)
  rw [parseRetryAfter, if_neg htext, htrim, parseInt_of_isDigits hne hdigits]
  exact congrArg some (max_eq_right (by positivity))

theorem nextRetryAt_runDeliveryAttempt {rt : Runtime} {maxBytes : ℕ} {contentType : Option String}
    {text : String} {chunks : List ℕ} {received : ℤ} {random : ℚ} {delivery : WebhookDelivery}
    (haccepted : sendWebhook maxBytes (.response 429 contentType (some text) chunks) = .ok 429)
    (hne : text.toList ≠ []) (hdigits : DigitText.IsDigits text.toList)
    (hbudget : ((delivery.attempts.length + 1 : ℕ) : ℤ) < policy.maxAttempts)
    (hthreshold : thresholdReached policy 0 = false)
    (hretryable : 429 ∈ policy.retryableStatusCodes) :
    (runDeliveryAttempt rt policy maxBytes (.response 429 contentType (some text) chunks)
        received random delivery).1.nextRetryAt =
      some (received + (DigitText.value text.toList : ℤ) * 1000) := by
  have hretry : ∀ attempt : WebhookDeliveryAttempt, attempt.statusCode = some 429 →
      shouldRetry attempt (delivery.attempts.length + 1) policy 0 = true := by
    intro attempt hstatus
    rw [shouldRetry, if_neg (by omega), hthreshold, if_neg (by decide), hstatus]
    simpa [isRetryableStatusCode] using hretryable
  have hfailed : isSuccessStatus 429 = false := by decide
  simp only [runDeliveryAttempt, haccepted, hfailed, Bool.false_eq_true, if_false, if_true,
    HttpExchange.retryAfter, parseRetryAfter_of_isDigits rt received hne hdigits]
  rw [if_pos (hretry _ rfl)]

/-! ## Main results -/

section

variable {σ : Type u} {store : WebhookCircuitBreakerStore σ} {env : AttemptEnv}
  {received : ℤ} {firstRandom : ℚ} {exchange : HttpExchange} {delivery : WebhookDelivery} {s : σ}

/-- Over all draws and times of settling, the next attempt is due at least some time after the
answer. -/
def DueAfter (store : WebhookCircuitBreakerStore σ) (env : AttemptEnv) (received : ℤ)
    (firstRandom : ℚ) (exchange : HttpExchange) (delivery : WebhookDelivery) (s : σ)
    (queue : List DeadLetterQueueItem) (wait : ℤ) : Prop :=
  ∀ (settled : ℤ) (random : ℚ), received ≤ settled → 0 ≤ random → random < 1 →
    IsRetried store (env.at settled random) received firstRandom exchange delivery s →
    ∃ due, (attemptDeliveryFrom store (env.at settled random) received firstRandom exchange
        delivery s queue).1.1.nextRetryAt = some due ∧ received + wait ≤ due

theorem dueAfter_iff
    (hretried : IsRetried store (env.at received 0) received firstRandom exchange delivery s)
    (queue : List DeadLetterQueueItem) (wait : ℤ) :
    DueAfter store env received firstRandom exchange delivery s queue wait ↔
      wait ≤ env.policy.leastDelay (delivery.attempts.length + 1) := by
  have hbudget : ((delivery.attempts.length + 1 : ℕ) : ℤ) <
      (env.at received 0).policy.maxAttempts := lt_maxAttempts_of_isRetried hretried
  apply Iff.intro
  · intro hdue
    obtain ⟨due, hscheduled, hwait⟩ :=
      hdue received 0 (le_refl _) (le_refl _) (by norm_num) hretried
    rw [nextRetryAt_attemptDeliveryFrom hretried] at hscheduled
    have hleast : calculateNextRetryDelay (delivery.attempts.length + 1) env.policy.jitter 0 =
        env.policy.leastDelay (delivery.attempts.length + 1) :=
      calculateNextRetryDelay_zero hbudget
    have hend : due = received +
        calculateNextRetryDelay (delivery.attempts.length + 1) env.policy.jitter 0 :=
      (Option.some.inj hscheduled).symm
    omega
  · intro hcovered settled random hlater hnonneg _ hretried'
    refine ⟨_, nextRetryAt_attemptDeliveryFrom hretried' queue, ?_⟩
    have hleast : env.policy.leastDelay (delivery.attempts.length + 1) ≤
        calculateNextRetryDelay (delivery.attempts.length + 1) env.policy.jitter random :=
      leastDelay_le hbudget hnonneg
    change received + wait ≤ settled +
      calculateNextRetryDelay (delivery.attempts.length + 1) env.policy.jitter random
    omega

/-- An answer that asks for a wait is honoured exactly if the least delay of the policy covers
the wait; after every other one the next attempt is later than the answer exactly if that delay
is not zero. -/
theorem nextRetryAt_honours_iff
    (hretried : IsRetried store (env.at received 0) received firstRandom exchange delivery s)
    (queue : List DeadLetterQueueItem) :
    (∀ wait, requestedDelay env.runtime received exchange = some wait →
      (DueAfter store env received firstRandom exchange delivery s queue wait ↔
        wait ≤ env.policy.leastDelay (delivery.attempts.length + 1))) ∧
    (requestedDelay env.runtime received exchange = none →
      (DueAfter store env received firstRandom exchange delivery s queue 1 ↔
        0 < env.policy.leastDelay (delivery.attempts.length + 1))) :=
  ⟨fun wait _ => dueAfter_iff hretried queue wait, fun _ => dueAfter_iff hretried queue 1⟩

end

/-- The default policy, with answers that come and are settled at once. -/
def defaultAttempt : AttemptEnv where
  runtime := ⟨fun _ => none, fun _ => "", fun _ => none, fun _ => none⟩
  policy := defaultRetryPolicy
  maxResponseBytes := 1000
  started := 0
  ended := 0
  random := 1 / 2

/-- An answer that asks for a number of seconds. -/
def tooManyRequests (seconds : String) : HttpExchange :=
  .response 429 (some "text/plain") (some seconds) []

/-- One second is asked for, and the bounded jitter of the policy waits at least as long. -/
theorem nextRetryAt_honours_one_second :
    DueAfter (redisBreakerStore id)
      { defaultAttempt with policy := { defaultRetryPolicy with jitterAlgorithm := some .legacy } }
      0 0 (tooManyRequests "1") queuedDelivery {} [] 1000 :=
  ((nextRetryAt_honours_iff (by exact ⟨by decide, by decide⟩) []).1 1000 rfl).mpr
    (by decide +kernel)

/-- Two minutes are asked for; the attempt keeps them, and is then due after a second. -/
theorem nextRetryAt_forgets_two_minutes :
    (runDeliveryAttempt defaultAttempt.runtime defaultRetryPolicy 1000 (tooManyRequests "120") 0
        (1 / 2) queuedDelivery).1.nextRetryAt = some 120000 ∧
      (attemptDelivery (redisBreakerStore id) defaultAttempt (tooManyRequests "120")
        queuedDelivery [] {}).1.1.nextRetryAt = some 1000 := by
  decide +kernel

end Fluxora.Webhooks
