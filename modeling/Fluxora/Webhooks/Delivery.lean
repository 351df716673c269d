/-
# One webhook delivery

The HTTP attempt behind a delivery and what is made of its outcome. An attempt
ends with a status code or with an error text, never with both. The poison test
then looks for failures that would recur on every retry, and the dead-letter
queue takes a failed delivery once.
-/

import Fluxora.Webhooks.Retry

namespace Fluxora.Webhooks

open Lib Lib.JsText

inductive WebhookDeliveryStatus
  | pending
  | delivered
  | failed
  | permanentFailure
  deriving DecidableEq

/-- Distinct reason codes for dead-letter entries. -/
inductive DLQReasonCode
  | poison
  | exhausted
  | timeout
  | circuitBreaker
  | rateLimited
  | other
  deriving DecidableEq

structure WebhookDelivery where
  id : String
  deliveryId : String
  eventId : String
  eventType : String
  endpointUrl : String
  status : WebhookDeliveryStatus
  attempts : List WebhookDeliveryAttempt
  createdAt : ℤ
  updatedAt : ℤ
  payload : String

/-! ## The HTTP exchange -/

/-- What the network does with a request: an answer whose body comes in chunks of
some sizes, or a rejection. A timeout is a rejection with the abort reason. -/
inductive HttpExchange
  | response (status : ℕ) (contentType retryAfter : Option String) (chunks : List ℕ)
  | failure (message : String)

/-- Read the body chunk by chunk, giving up once the limit is passed. -/
def readBody (maxBytes bytesRead : ℕ) : List ℕ → Bool
  | [] => true
  | chunk :: rest =>
    if bytesRead + chunk > maxBytes then false else readBody maxBytes (bytesRead + chunk) rest

/-- Send a webhook to an endpoint: the status of an accepted answer, or an error. -/
def sendWebhook (maxBytes : ℕ) : HttpExchange → Except String ℕ
  | .failure message => .error message
  | .response status contentType _ chunks =>
    if !truthy contentType then .error "Missing Content-Type header in webhook response"
    else if !readBody maxBytes 0 chunks then
      .error "Webhook response exceeds maximum allowed size"
    else .ok status

def HttpExchange.retryAfter : HttpExchange → Option String
  | .response _ _ retryAfter _ => retryAfter
  | .failure _ => none

/-- The delay a `Retry-After` header asks for: seconds, or a date. -/
def parseRetryAfter (rt : Runtime) (header : Option String) (now : ℤ) : Option ℤ :=
  match header with
  | none => none
  | some text =>
    if text = "" then none
    else
      match parseInt (trim text.toList) with
      | some seconds => some (max 0 (seconds * 1000))
      | none => (rt.parseDate text).map fun date => max 0 (date - now)

/-- Perform the HTTP request and record its outcome in the delivery. The status is
overwritten with `pending` after every failure. -/
def runDeliveryAttempt (rt : Runtime) (policy : EnhancedRetryPolicy) (maxBytes : ℕ)
    (exchange : HttpExchange) (now : ℤ) (random : ℚ) (delivery : WebhookDelivery) :
    WebhookDeliveryAttempt × WebhookDelivery :=
  let attemptNumber := delivery.attempts.length + 1
  let nextRetryTime := calculateNextRetryTime attemptNumber policy now random
  match sendWebhook maxBytes exchange with
  | .ok status =>
    let attempt : WebhookDeliveryAttempt := ⟨attemptNumber, now, some status, none, none⟩
    if isSuccessStatus status then
      (attempt, { delivery with
        status := .delivered, attempts := delivery.attempts ++ [attempt] })
    else
      let nextRetryAt :=
        if status = 429 then
          match parseRetryAfter rt exchange.retryAfter now with
          | some retryAfterMs => now + retryAfterMs
          | none => nextRetryTime
        else nextRetryTime
      let attempt :=
        if shouldRetry attempt attemptNumber policy 0 then
          { attempt with nextRetryAt := some nextRetryAt }
        else attempt
      (attempt, { delivery with
        status := .pending, attempts := delivery.attempts ++ [attempt] })
  | .error message =>
    let attempt : WebhookDeliveryAttempt :=
      ⟨attemptNumber, now, none, some message, none⟩
    let attempt :=
      if shouldRetry attempt attemptNumber policy 0 then
        { attempt with nextRetryAt := some nextRetryTime }
      else attempt
    (attempt, { delivery with
      status := .pending, attempts := delivery.attempts ++ [attempt] })

theorem runDeliveryAttempt_outcome (rt : Runtime) (policy : EnhancedRetryPolicy)
    (maxBytes : ℕ) (exchange : HttpExchange) (now : ℤ) (random : ℚ)
    (delivery : WebhookDelivery) :
    let attempt := (runDeliveryAttempt rt policy maxBytes exchange now random delivery).1
    match sendWebhook maxBytes exchange with
    | .ok status => attempt.statusCode = some status ∧ attempt.error = none
    | .error message => attempt.statusCode = none ∧ attempt.error = some message := by
  simp only [runDeliveryAttempt]
  cases sendWebhook maxBytes exchange with
  | ok status =>
    by_cases hsuccess : isSuccessStatus status = true
    · simp [hsuccess]
    · simp only [if_neg hsuccess]
      split_ifs <;> exact ⟨rfl, rfl⟩
  | error =>
    simp only
    split_ifs <;> exact ⟨rfl, rfl⟩

theorem runDeliveryAttempt_snd (rt : Runtime) (policy : EnhancedRetryPolicy)
    (maxBytes : ℕ) (exchange : HttpExchange) (now : ℤ) (random : ℚ)
    (delivery : WebhookDelivery) :
    let made := runDeliveryAttempt rt policy maxBytes exchange now random delivery
    made.2 = { delivery with
      status := made.2.status, attempts := delivery.attempts ++ [made.1] } := by
  simp only [runDeliveryAttempt]
  cases sendWebhook maxBytes exchange with
  | ok status => by_cases hsuccess : isSuccessStatus status = true <;> simp [hsuccess]
  | error => rfl

@[simp]
theorem runDeliveryAttempt_deliveryId (rt : Runtime) (policy : EnhancedRetryPolicy)
    (maxBytes : ℕ) (exchange : HttpExchange) (now : ℤ) (random : ℚ)
    (delivery : WebhookDelivery) :
    (runDeliveryAttempt rt policy maxBytes exchange now random delivery).2.deliveryId =
      delivery.deliveryId := by
  simp only [runDeliveryAttempt]
  cases sendWebhook maxBytes exchange with
  | ok status => by_cases hsuccess : isSuccessStatus status = true <;> simp [hsuccess]
  | error => rfl

/-! ## Poison -/

/-- The text of the abort reason that the delivery timer gives. -/
def timeoutText : String := "Webhook delivery timeout"

/-- Classify a delivery failure as deterministic and non-retryable. -/
def classifyPoisonFailure (rt : Runtime) (payload : Json) (endpointUrl : String)
    (statusCode : Option ℕ) (policy : EnhancedRetryPolicy) (error : Option String) :
    Option DLQReasonCode :=
  if truthy error && includes (error.getD "") timeoutText then some .timeout
  else if validateWebhookPayload rt payload ≠ .ok () then some .poison
  else if validateWebhookUrl rt endpointUrl ≠ .ok () then some .poison
  else
    match statusCode with
    | none => none
    | some code =>
      if !isRetryableStatusCode (some code) policy && (400 ≤ code ∧ code < 500) then
        some .poison
      else none

/-! ## The dead-letter queue -/

structure DeadLetterQueueItem where
  deliveryId : String
  eventId : String
  eventType : String
  endpointUrl : String
  payload : String
  originalDelivery : WebhookDelivery
  failureReason : String
  reasonCode : DLQReasonCode

/-- The item a failed delivery is filed as. -/
def deadLetterQueueItem (delivery : WebhookDelivery) (failureReason : String)
    (reasonCode : DLQReasonCode) : DeadLetterQueueItem where
  deliveryId := delivery.deliveryId
  eventId := delivery.eventId
  eventType := delivery.eventType
  endpointUrl := delivery.endpointUrl
  payload := delivery.payload
  originalDelivery := delivery
  failureReason := failureReason
  reasonCode := reasonCode

/-- File a permanent failure, unless its delivery is filed already. -/
def enqueuePermanentFailureToDlq (delivery : WebhookDelivery) (failureReason : String)
    (reasonCode : DLQReasonCode) (queue : List DeadLetterQueueItem) :
    List DeadLetterQueueItem :=
  if queue.any (·.deliveryId = delivery.deliveryId) then queue
  else queue ++ [deadLetterQueueItem delivery failureReason reasonCode]

theorem mem_enqueuePermanentFailureToDlq (delivery : WebhookDelivery)
    (failureReason : String) (reasonCode : DLQReasonCode) (queue : List DeadLetterQueueItem) :
    ∃ item ∈ enqueuePermanentFailureToDlq delivery failureReason reasonCode queue,
      item.deliveryId = delivery.deliveryId := by
  rw [enqueuePermanentFailureToDlq]
  by_cases hqueued : queue.any (·.deliveryId = delivery.deliveryId) = true
  · rw [if_pos hqueued]
    obtain ⟨item, hitem, hid⟩ := List.any_eq_true.mp hqueued
    exact ⟨item, hitem, of_decide_eq_true hid⟩
  · rw [if_neg hqueued]
    exact ⟨_, List.mem_append_right _ (List.mem_singleton.mpr rfl), rfl⟩

end Fluxora.Webhooks
