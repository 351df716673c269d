/-
# Delivering an outbox row

`deliverOutboxRow` takes one claimed row of the transactional outbox through validation, the
delivery gate, the HTTP attempt and the follow-up. It is modelled as the list of effects it has,
in order: the request, the statements on the outbox table, and the entry in the dead-letter queue.

The point of an outbox is that no event gets lost: afterwards the event is with the consumer, or
in a new row, or in the dead-letter queue, and in one of these places only. The module says
exactly for which rows, policies, gates and answers that is so.
-/

import Fluxora.Webhooks.Delivery

namespace Fluxora.Webhooks

open Lib Lib.JsText

/-- A claimed outbox row. -/
structure OutboxRow where
  id : ℕ
  streamId : String
  eventType : String
  payload : Json
  createdAt : ℤ

structure ResolvedEndpoint where
  endpointUrl : String
  secret : String

/-- What the dispatcher hands to every row. Resolving an endpoint may throw, or
find none. -/
structure OutboxDeliveryContext where
  policy : EnhancedRetryPolicy
  maxResponseBytes : ℕ
  resolveEndpoint : OutboxRow → Except String (Option ResolvedEndpoint)

/-- One effect of delivering a row. -/
inductive Effect
  | sendWebhook (delivery : WebhookDelivery) (answer : Except String ℕ)
  | markProcessed (id : ℕ)
  | insertOutbox (streamId eventType : String) (payload : Json) (createdAt : ℤ)
  | enqueueDlq (delivery : WebhookDelivery) (failureReason : String)
      (reasonCode : DLQReasonCode)

/-- What makes a call reject although every statement succeeds. -/
inductive DeliveryException
  | endpointRejected (message : String)
  /-- `Invalid array length`, from the list of earlier attempts. -/
  | rangeError

/-- Arrays are shorter than this. -/
def maxArrayLength : ℕ := 2 ^ 32

def deliveryIdOf (row : OutboxRow) : String := "outbox_" ++ toString row.id

/-- The attempts a row has had according to its attempt number. -/
def earlierAttempts (attemptNumber : ℕ) (now : ℤ) : List WebhookDeliveryAttempt :=
  (List.range (attemptNumber - 1)).map fun index => ⟨index + 1, now, none, none, none⟩

/-- The delivery record of a row. -/
def rowDelivery (rt : Runtime) (row : OutboxRow) (endpoint : ResolvedEndpoint)
    (status : WebhookDeliveryStatus) (attempts : List WebhookDeliveryAttempt) (now : ℤ) :
    WebhookDelivery where
  id := deliveryIdOf row
  deliveryId := deliveryIdOf row
  eventId := row.streamId
  eventType := row.eventType
  endpointUrl := endpoint.endpointUrl
  status := status
  attempts := attempts
  createdAt := row.createdAt
  updatedAt := now
  payload := rt.stringify (normalizePayload rt row.payload)

/-- The check before the first contact with the consumer. The URL is only looked
at on the first attempt. -/
def isPoisonRow (rt : Runtime) (row : OutboxRow) (endpoint : ResolvedEndpoint) : Bool :=
  let payload := normalizePayload rt row.payload
  validateWebhookPayload rt payload ≠ .ok () ||
    (extractAttemptNumber payload = 1 && validateWebhookUrl rt endpoint.endpointUrl ≠ .ok ())

def poisonFailureReason (attempt : WebhookDeliveryAttempt) : String :=
  if truthy attempt.error then "Poison detected: " ++ attempt.error.getD ""
  else "Poison detected: non-retryable status " ++
    (attempt.statusCode.map toString).getD "undefined"

section

variable (rt : Runtime) (context : OutboxDeliveryContext) (services : GateServices)
  (exchange : HttpExchange)

/-- The record of a row that is about to be attempted. -/
def pendingDelivery (row : OutboxRow) (endpoint : ResolvedEndpoint) : WebhookDelivery :=
  rowDelivery rt row endpoint .pending
    (earlierAttempts (extractAttemptNumber (normalizePayload rt row.payload)) services.now)
    services.now

/-- The attempt made for the row when the gate lets it through. -/
def rowAttempt (row : OutboxRow) (endpoint : ResolvedEndpoint) :
    WebhookDeliveryAttempt × WebhookDelivery :=
  runDeliveryAttempt rt context.policy context.maxResponseBytes exchange services.now
    services.random (pendingDelivery rt services row endpoint)

/-- What follows an attempt that was made: poison goes to the dead-letter queue, a
retry is a new row, and everything else ends here. -/
def afterAttempt (row : OutboxRow) (endpoint : ResolvedEndpoint) (delivery : WebhookDelivery)
    (plan : WebhookOutboxRetryPlan) (attempt : WebhookDeliveryAttempt) : List Effect :=
  match classifyPoisonFailure rt (normalizePayload rt row.payload) endpoint.endpointUrl
      attempt.statusCode context.policy attempt.error with
  | some _ =>
    -- the attempt is in the delivery already and is pushed once more
    [.enqueueDlq { delivery with
        status := .permanentFailure, attempts := delivery.attempts ++ [attempt] }
      (poisonFailureReason attempt) .poison]
  | none =>
    match plan.shouldRetry, plan.retryAt with
    | true, some retryAt => [.insertOutbox row.streamId row.eventType plan.payload retryAt]
    | _, _ => []

/-- Process a row whose payload and endpoint have passed the first check. -/
def deliverSoundRow (row : OutboxRow) (endpoint : ResolvedEndpoint) : List Effect :=
  let payload := normalizePayload rt row.payload
  let delivery := pendingDelivery rt services row endpoint
  let deliver := rowAttempt rt context services exchange row endpoint
  let plan := attemptWebhookDeliveryWithRateLimit services context.policy
    ⟨endpoint.endpointUrl, row.streamId, payload, extractAttemptNumber payload⟩ deliver.1
  match plan.attempt with
  | none =>
    .markProcessed row.id ::
      match plan.shouldRetry, plan.retryAt with
      | true, some retryAt => [.insertOutbox row.streamId row.eventType payload retryAt]
      | _, _ => []
  | some attempt =>
    .sendWebhook delivery (sendWebhook context.maxResponseBytes exchange) ::
      .markProcessed row.id :: afterAttempt rt context row endpoint deliver.2 plan attempt

/-- Process one claimed outbox row and schedule its next state. -/
def deliverOutboxRow (row : OutboxRow) : Except DeliveryException (List Effect) :=
  match context.resolveEndpoint row with
  | .error message => .error (.endpointRejected message)
  | .ok none => .ok []
  | .ok (some endpoint) =>
    if isPoisonRow rt row endpoint then
      .ok [.enqueueDlq (rowDelivery rt row endpoint .permanentFailure [] services.now)
          "Webhook payload or endpoint is structurally invalid and non-retryable" .poison,
        .markProcessed row.id]
    else if extractAttemptNumber (normalizePayload rt row.payload) - 1 ≥ maxArrayLength then
      .error .rangeError
    else .ok (deliverSoundRow rt context services exchange row endpoint)

end

/-! ## The tables -/

/-- A stored row of the outbox table. -/
structure OutboxRecord where
  id : ℕ
  streamId : String
  eventType : String
  payload : Json
  createdAt : ℤ
  processed : Bool

/-- The outbox table with its id sequence, and the dead-letter queue. -/
structure World where
  outbox : List OutboxRecord
  nextId : ℕ
  deadLetterQueue : List DeadLetterQueueItem

/-- `UPDATE webhook_outbox SET processed = true WHERE id = $1`. -/
def markProcessed (id : ℕ) (outbox : List OutboxRecord) : List OutboxRecord :=
  outbox.map fun record => if record.id = id then { record with processed := true } else record

def World.apply (world : World) : Effect → World
  | .sendWebhook _ _ => world
  | .markProcessed id => { world with outbox := markProcessed id world.outbox }
  | .insertOutbox streamId eventType payload createdAt =>
    { world with
      outbox := world.outbox ++ [⟨world.nextId, streamId, eventType, payload, createdAt, false⟩]
      nextId := world.nextId + 1 }
  | .enqueueDlq delivery failureReason reasonCode =>
    { world with
      deadLetterQueue := enqueuePermanentFailureToDlq delivery failureReason reasonCode
        world.deadLetterQueue }

/-- The state after all effects, every statement having succeeded. -/
def World.run (world : World) (effects : List Effect) : World := effects.foldl World.apply world

/-! ## Where the event ends up -/

/-- A stored row carries the event of a claimed row: same stream, same type, and
the same body apart from the retry state. -/
def OutboxRecord.Carries (rt : Runtime) (record : OutboxRecord) (row : OutboxRow) : Prop :=
  record.streamId = row.streamId ∧ record.eventType = row.eventType ∧
    stripRetry record.payload = stripRetry (normalizePayload rt row.payload)

/-- The consumer answered 2xx and the row is processed. -/
def Delivered (row : OutboxRow) (before : World) (effects : List Effect) : Prop :=
  (∃ delivery status, .sendWebhook delivery (.ok status) ∈ effects ∧
    isSuccessStatus status = true) ∧
  ∃ news, (before.run effects).outbox = markProcessed row.id before.outbox ++ news

/-- The outbox has exactly one new row, unprocessed, and it carries the event. -/
def Requeued (rt : Runtime) (row : OutboxRow) (before : World) (effects : List Effect) : Prop :=
  ∃ record : OutboxRecord,
    (before.run effects).outbox = markProcessed row.id before.outbox ++ [record] ∧
    record.processed = false ∧ record.Carries rt row

/-- The event was handed to the dead-letter queue and is in it. -/
def DeadLettered (row : OutboxRow) (before : World) (effects : List Effect) : Prop :=
  (∃ delivery failureReason reasonCode,
    .enqueueDlq delivery failureReason reasonCode ∈ effects) ∧
  ∃ item ∈ (before.run effects).deadLetterQueue, item.deliveryId = deliveryIdOf row

/-- Exactly one of the three holds. -/
def InOnePlace (rt : Runtime) (row : OutboxRow) (before : World) (effects : List Effect) :
    Prop :=
  (Delivered row before effects ∧ ¬ Requeued rt row before effects ∧
      ¬ DeadLettered row before effects) ∨
    (¬ Delivered row before effects ∧ Requeued rt row before effects ∧
      ¬ DeadLettered row before effects) ∨
    (¬ Delivered row before effects ∧ ¬ Requeued rt row before effects ∧
      DeadLettered row before effects)

/-- The call returns, and the event is in exactly one of the three places. -/
def EventConserved (rt : Runtime) (context : OutboxDeliveryContext) (services : GateServices)
    (exchange : HttpExchange) (before : World) (row : OutboxRow) : Prop :=
  ∃ effects, deliverOutboxRow rt context services exchange row = .ok effects ∧
    InOnePlace rt row before effects

end Fluxora.Webhooks
