/-
# Conservation of outbox events

`deliverOutboxRow` marks its row processed in every case in which it does anything. This module
follows the event through each of its exits. A row that is poison from the start is filed, a row
the gate puts off is requeued unchanged, and a row that is sent is filed, requeued or left alone
depending on the answer.
-/

import Fluxora.Webhooks.OutboxRow

namespace Fluxora.Webhooks

open Lib Lib.JsText

/-! ## The three places, effect by effect -/

/-- An answer of the consumer that counts as success. -/
def isSuccessAnswer : Except String ℕ → Bool
  | .ok status => isSuccessStatus status
  | .error _ => false

section Places

variable (rt : Runtime) (row : OutboxRow) (before : World) {delivery filed : WebhookDelivery}
  {answer : Except String ℕ} {reason : String} {code : DLQReasonCode} {payload : Json}
  {createdAt : ℤ} {effects : List Effect}

theorem markProcessed_ne_append (news : OutboxRecord) (outbox : List OutboxRecord) (id : ℕ) :
    markProcessed id outbox ≠ markProcessed id outbox ++ [news] := by
  intro hequal
  have hlength := congrArg List.length hequal
  simp at hlength

theorem delivered_iff {rest : List Effect} {news : List OutboxRecord}
    (houtbox : (before.run (.sendWebhook delivery answer :: .markProcessed row.id :: rest)).outbox =
      markProcessed row.id before.outbox ++ news)
    (hrest : ∀ other status, .sendWebhook other (.ok status) ∉ rest) :
    Delivered row before (.sendWebhook delivery answer :: .markProcessed row.id :: rest) ↔
      isSuccessAnswer answer = true := by
  apply Iff.intro
  · rintro ⟨⟨other, status, hmem, hsuccess⟩, _⟩
    rcases List.mem_cons.mp hmem with hsent | hlater
    · injection hsent with _ hanswer
      rw [← hanswer]
      exact hsuccess
    · rcases List.mem_cons.mp hlater with hmark | hrest'
      · cases hmark
      · exact (hrest other status hrest').elim
  · intro hsuccess
    cases answer with
    | ok status => exact ⟨⟨delivery, status, List.mem_cons_self, hsuccess⟩, news, houtbox⟩
    | error => cases hsuccess

theorem not_delivered_of_not_sent
    (hsent : ∀ other status, .sendWebhook other (.ok status) ∉ effects) :
    ¬ Delivered row before effects := by
  rintro ⟨⟨other, status, hmem, _⟩, _⟩
  exact hsent other status hmem

theorem not_requeued_of_outbox
    (houtbox : (before.run effects).outbox = markProcessed row.id before.outbox) :
    ¬ Requeued rt row before effects := by
  rintro ⟨record, hnew, _⟩
  exact markProcessed_ne_append record before.outbox row.id (houtbox.symm.trans hnew)

theorem requeued_iff
    (houtbox : (before.run effects).outbox = markProcessed row.id before.outbox ++
      [⟨before.nextId, row.streamId, row.eventType, payload, createdAt, false⟩]) :
    Requeued rt row before effects ↔
      stripRetry payload = stripRetry (normalizePayload rt row.payload) := by
  apply Iff.intro
  · rintro ⟨record, hnew, _, _, _, hbody⟩
    rw [houtbox, List.append_cancel_left_eq, List.cons.injEq] at hnew
    rw [← hnew.1] at hbody
    exact hbody
  · intro hbody
    exact ⟨_, houtbox, rfl, rfl, rfl, hbody⟩

theorem not_deadLettered_of_not_filed
    (hfiled : ∀ other reason code, .enqueueDlq other reason code ∉ effects) :
    ¬ DeadLettered row before effects := by
  rintro ⟨⟨other, reason, code, hmem⟩, _⟩
  exact hfiled other reason code hmem

theorem deadLettered_of_queue (hmem : .enqueueDlq filed reason code ∈ effects)
    (hqueue : (before.run effects).deadLetterQueue =
      enqueuePermanentFailureToDlq filed reason code before.deadLetterQueue)
    (hid : filed.deliveryId = deliveryIdOf row) : DeadLettered row before effects := by
  refine ⟨⟨filed, reason, code, hmem⟩, ?_⟩
  rw [hqueue, ← hid]
  exact mem_enqueuePermanentFailureToDlq filed reason code before.deadLetterQueue

theorem not_inOnePlace_nil : ¬ InOnePlace rt row before [] := by
  have hdelivered : ¬ Delivered row before [] :=
    not_delivered_of_not_sent row before (by simp)
  have hfiled : ¬ DeadLettered row before [] :=
    not_deadLettered_of_not_filed row before (by simp)
  have hrequeued : ¬ Requeued rt row before [] := by
    rintro ⟨record, hnew, _⟩
    have hlength := congrArg List.length hnew
    simp [World.run, markProcessed] at hlength
  rintro (⟨h, _⟩ | ⟨_, h, _⟩ | ⟨_, _, h⟩)
  · exact hdelivered h
  · exact hrequeued h
  · exact hfiled h

theorem inOnePlace_filed (hid : filed.deliveryId = deliveryIdOf row) :
    InOnePlace rt row before [.enqueueDlq filed reason code, .markProcessed row.id] := by
  refine Or.inr (Or.inr ⟨?_, ?_, ?_⟩)
  · exact not_delivered_of_not_sent row before (by simp)
  · exact not_requeued_of_outbox rt row before rfl
  · exact deadLettered_of_queue row before List.mem_cons_self rfl hid

theorem inOnePlace_deferred :
    InOnePlace rt row before [.markProcessed row.id,
      .insertOutbox row.streamId row.eventType (normalizePayload rt row.payload) createdAt] := by
  refine Or.inr (Or.inl ⟨?_, ?_, ?_⟩)
  · exact not_delivered_of_not_sent row before (by simp)
  · exact (requeued_iff rt row before rfl).mpr rfl
  · exact not_deadLettered_of_not_filed row before (by simp)

theorem inOnePlace_sent_filed_iff (hid : filed.deliveryId = deliveryIdOf row) :
    InOnePlace rt row before
        [.sendWebhook delivery answer, .markProcessed row.id, .enqueueDlq filed reason code] ↔
      isSuccessAnswer answer = false := by
  have houtbox : (before.run [.sendWebhook delivery answer, .markProcessed row.id,
      .enqueueDlq filed reason code]).outbox = markProcessed row.id before.outbox := rfl
  have hdelivered := delivered_iff row before (houtbox.trans (List.append_nil _).symm)
    (by simp)
  have hrequeued := not_requeued_of_outbox rt row before houtbox
  have hfiled : DeadLettered row before [.sendWebhook delivery answer, .markProcessed row.id,
      .enqueueDlq filed reason code] :=
    deadLettered_of_queue row before (by simp) rfl hid
  simp [InOnePlace, hdelivered, hrequeued, hfiled]

/-- After a request and a new row, the event is in one place when the consumer did
not take it and the new row has its body, or the other way round. -/
theorem inOnePlace_sent_requeued_iff :
    InOnePlace rt row before [.sendWebhook delivery answer, .markProcessed row.id,
        .insertOutbox row.streamId row.eventType payload createdAt] ↔
      (isSuccessAnswer answer = false ↔
        stripRetry payload = stripRetry (normalizePayload rt row.payload)) := by
  have houtbox : (before.run [.sendWebhook delivery answer, .markProcessed row.id,
      .insertOutbox row.streamId row.eventType payload createdAt]).outbox =
      markProcessed row.id before.outbox ++
        [⟨before.nextId, row.streamId, row.eventType, payload, createdAt, false⟩] := rfl
  have hdelivered := delivered_iff row before houtbox (by simp)
  have hrequeued := requeued_iff rt row before houtbox
  have hfiled : ¬ DeadLettered row before [.sendWebhook delivery answer, .markProcessed row.id,
      .insertOutbox row.streamId row.eventType payload createdAt] :=
    not_deadLettered_of_not_filed row before (by simp)
  cases hanswer : isSuccessAnswer answer <;>
    simp [InOnePlace, hdelivered, hrequeued, hfiled, hanswer]

theorem inOnePlace_sent_iff :
    InOnePlace rt row before [.sendWebhook delivery answer, .markProcessed row.id] ↔
      isSuccessAnswer answer = true := by
  have houtbox : (before.run [.sendWebhook delivery answer, .markProcessed row.id]).outbox =
      markProcessed row.id before.outbox := rfl
  have hdelivered := delivered_iff row before (houtbox.trans (List.append_nil _).symm)
    (by simp)
  have hrequeued := not_requeued_of_outbox rt row before houtbox
  have hfiled : ¬ DeadLettered row before [.sendWebhook delivery answer,
      .markProcessed row.id] :=
    not_deadLettered_of_not_filed row before (by simp)
  simp [InOnePlace, hdelivered, hrequeued, hfiled]

end Places

/-! ## What a sound row does -/

section Sound

variable (rt : Runtime) (context : OutboxDeliveryContext) (services : GateServices)
  (exchange : HttpExchange) (row : OutboxRow) (endpoint : ResolvedEndpoint)

/-- The gate in front of the row's delivery. -/
def rowGate : WebhookDeliveryGateResult :=
  let payload := normalizePayload rt row.payload
  checkWebhookDeliveryGate services endpoint.endpointUrl context.policy
    (rateLimitDimensions
      ⟨endpoint.endpointUrl, row.streamId, payload, extractAttemptNumber payload⟩)

theorem deliverSoundRow_of_defer {retryAt : ℤ} {rateLimited : Bool}
    (hgate : rowGate rt context services row endpoint = .defer retryAt rateLimited) :
    deliverSoundRow rt context services exchange row endpoint =
      [.markProcessed row.id,
        .insertOutbox row.streamId row.eventType (normalizePayload rt row.payload) retryAt] := by
  rw [rowGate] at hgate
  simp only [deliverSoundRow, attemptWebhookDeliveryWithRateLimit, hgate]

theorem deliverSoundRow_of_deliver {gateFailures : ℕ}
    (hgate : rowGate rt context services row endpoint = .deliver gateFailures) :
    let payload := normalizePayload rt row.payload
    let attempt := (rowAttempt rt context services exchange row endpoint).1
    ∃ delivery filed retryAt,
      filed.deliveryId = deliveryIdOf row ∧
      deliverSoundRow rt context services exchange row endpoint =
        .sendWebhook delivery (sendWebhook context.maxResponseBytes exchange) ::
        .markProcessed row.id ::
          if (classifyPoisonFailure rt payload endpoint.endpointUrl attempt.statusCode
              context.policy attempt.error).isSome then
            [.enqueueDlq filed (poisonFailureReason attempt) .poison]
          else if shouldRetry attempt (extractAttemptNumber payload) context.policy
              (failuresAfter services endpoint.endpointUrl context.policy gateFailures
                attempt) then
            [.insertOutbox row.streamId row.eventType
              (augmentPayloadWithRetry payload (extractAttemptNumber payload + 1)) retryAt]
          else [] := by
  rw [rowGate] at hgate
  refine ⟨pendingDelivery rt services row endpoint,
    { (rowAttempt rt context services exchange row endpoint).2 with
      status := .permanentFailure
      attempts := (rowAttempt rt context services exchange row endpoint).2.attempts ++
        [(rowAttempt rt context services exchange row endpoint).1] },
    calculateNextRetryTime (extractAttemptNumber (normalizePayload rt row.payload))
      context.policy services.now services.random, ?_, ?_⟩
  · exact runDeliveryAttempt_deliveryId _ _ _ _ _ _ _
  · rw [deliverSoundRow, attemptWebhookDeliveryWithRateLimit]
    simp only [hgate]
    cases hretry : shouldRetry (rowAttempt rt context services exchange row endpoint).1
        (extractAttemptNumber (normalizePayload rt row.payload)) context.policy
        (failuresAfter services endpoint.endpointUrl context.policy gateFailures
          (rowAttempt rt context services exchange row endpoint).1) <;>
      cases hpoison : classifyPoisonFailure rt (normalizePayload rt row.payload)
        endpoint.endpointUrl (rowAttempt rt context services exchange row endpoint).1.statusCode
        context.policy (rowAttempt rt context services exchange row endpoint).1.error <;>
      simp [afterAttempt, hpoison]

end Sound

/-! ## When the event is kept -/

/-- The policy leaves another attempt, the breaker having counted so many
failures. -/
def RetriesLeft (policy : EnhancedRetryPolicy) (attemptNumber failures : ℕ) : Prop :=
  (attemptNumber : ℤ) < policy.maxAttempts ∧ thresholdReached policy failures = false

theorem shouldRetry_iff (attempt : WebhookDeliveryAttempt) (attemptNumber : ℕ)
    (policy : EnhancedRetryPolicy) (failures : ℕ) :
    shouldRetry attempt attemptNumber policy failures = true ↔
      RetriesLeft policy attemptNumber failures ∧
        isRetryableStatusCode attempt.statusCode policy = true := by
  rw [shouldRetry, RetriesLeft]
  by_cases hmax : (attemptNumber : ℤ) ≥ policy.maxAttempts
  · simp [hmax, not_lt.mpr hmax]
  · cases hthreshold : thresholdReached policy failures <;> simp [hmax, not_le.mp hmax]

theorem classifyPoisonFailure_isSome_iff {rt : Runtime} {payload : Json}
    (hpayload : validateWebhookPayload rt payload = .ok ()) (endpointUrl : String)
    (statusCode : Option ℕ) (policy : EnhancedRetryPolicy) (error : Option String) :
    (classifyPoisonFailure rt payload endpointUrl statusCode policy error).isSome = true ↔
      includes (error.getD "") timeoutText = true ∨
      validateWebhookUrl rt endpointUrl ≠ .ok () ∨
      ∃ code, statusCode = some code ∧ (400 ≤ code ∧ code < 500) ∧
        isRetryableStatusCode (some code) policy = false := by
  have htruthy : (truthy error && includes (error.getD "") timeoutText) =
      includes (error.getD "") timeoutText := by
    by_cases hempty : error.getD "" = ""
    · rw [hempty]
      simp [truthy, hempty, includes, timeoutText]
    · simp [truthy, hempty]
  rw [classifyPoisonFailure.eq_def, htruthy]
  cases includes (error.getD "") timeoutText with
  | true => simp
  | false =>
    by_cases hurl : validateWebhookUrl rt endpointUrl = .ok ()
    · cases statusCode with
      | none => simp [hpayload, hurl]
      | some code =>
        cases isRetryableStatusCode (some code) policy <;>
          by_cases hclass : 400 ≤ code ∧ code < 500 <;>
          simp [hpayload, hurl, hclass]
    · simp [hpayload, hurl]

section Condition

variable (rt : Runtime) (context : OutboxDeliveryContext) (services : GateServices)
  (exchange : HttpExchange) (row : OutboxRow) (endpoint : ResolvedEndpoint)

/-- The answers after which a row that was let through keeps its event. A rejected
request must be a timeout, go to a bad URL or have a retry left. An accepted answer
must not also be filed or retried. Any other status must be filed as poison or have
a retry left. And a retry only carries the event when its payload is an object. -/
def AnswerKeepsEvent (payload : Json) : Prop :=
  let url := endpoint.endpointUrl
  let attemptNumber := extractAttemptNumber payload
  match sendWebhook context.maxResponseBytes exchange with
  | .error message =>
    includes message timeoutText = true ∨ validateWebhookUrl rt url ≠ .ok () ∨
      RetriesLeft context.policy attemptNumber (services.recordFailure url) ∧
        isObject payload = true
  | .ok status =>
    if isSuccessStatus status then
      validateWebhookUrl rt url = .ok () ∧
        ¬ (RetriesLeft context.policy attemptNumber (services.recordSuccess url) ∧
          status ∈ context.policy.retryableStatusCodes ∧ isObject payload = true)
    else
      validateWebhookUrl rt url ≠ .ok () ∨
        (400 ≤ status ∧ status < 500) ∧ status ∉ context.policy.retryableStatusCodes ∨
        RetriesLeft context.policy attemptNumber (services.recordFailure url) ∧
          status ∈ context.policy.retryableStatusCodes ∧ isObject payload = true

/-- The rows that keep their event: the endpoint resolves, and the row is poison
from the start, or has a representable number of attempts and is put off by the gate
or gets one of the answers above. -/
def KeepsEvent : Prop :=
  ∃ endpoint, context.resolveEndpoint row = .ok (some endpoint) ∧
    (isPoisonRow rt row endpoint = true ∨
      extractAttemptNumber (normalizePayload rt row.payload) - 1 < maxArrayLength ∧
        ((∃ retryAt rateLimited,
            rowGate rt context services row endpoint = .defer retryAt rateLimited) ∨
          AnswerKeepsEvent rt context services exchange endpoint
            (normalizePayload rt row.payload)))

theorem inOnePlace_afterSend_iff (before : World) {delivery filed : WebhookDelivery}
    {reason : String} {retryAt : ℤ} (hid : filed.deliveryId = deliveryIdOf row)
    (answer : Except String ℕ) (poison retry : Bool) (n : ℕ) :
    InOnePlace rt row before (.sendWebhook delivery answer :: .markProcessed row.id ::
        if poison then [.enqueueDlq filed reason .poison]
        else if retry then
          [.insertOutbox row.streamId row.eventType
            (augmentPayloadWithRetry (normalizePayload rt row.payload) n) retryAt]
        else []) ↔
      if poison then isSuccessAnswer answer = false
      else if retry then
        (isSuccessAnswer answer = false ↔ isObject (normalizePayload rt row.payload) = true)
      else isSuccessAnswer answer = true := by
  cases poison with
  | true => exact inOnePlace_sent_filed_iff rt row before hid
  | false =>
    cases retry with
    | true =>
      rw [← stripRetry_augment_iff _ n]
      exact inOnePlace_sent_requeued_iff rt row before
    | false => exact inOnePlace_sent_iff rt row before

variable {attempt : WebhookDeliveryAttempt}

theorem failuresAfter_of_error (hstatus : attempt.statusCode = none) (url : String)
    (policy : EnhancedRetryPolicy) (gateFailures : ℕ) :
    failuresAfter services url policy gateFailures attempt = services.recordFailure url := by
  simp [failuresAfter, countsTowardCircuitBreaker, WebhookDeliveryAttempt.isSuccess, hstatus,
    isRetryableStatusCode]

theorem failuresAfter_of_status {status : ℕ} (hstatus : attempt.statusCode = some status)
    (herror : attempt.error = none) (url : String) (policy : EnhancedRetryPolicy) (gateFailures : ℕ)
    (hretryable : isRetryableStatusCode (some status) policy = true) :
    failuresAfter services url policy gateFailures attempt =
      if isSuccessStatus status then services.recordSuccess url
      else services.recordFailure url := by
  cases hsuccess : isSuccessStatus status <;>
    simp [failuresAfter, countsTowardCircuitBreaker, WebhookDeliveryAttempt.isSuccess, hstatus,
      herror, truthy, hretryable, hsuccess]

/-- The follow-up of an attempt that had the outcome of the exchange leaves the
event in one place exactly when the answer keeps it. -/
theorem followUp_keeps_iff {payload : Json}
    (hpayload : validateWebhookPayload rt payload = .ok ()) (gateFailures : ℕ)
    (attempt : WebhookDeliveryAttempt)
    (houtcome : match sendWebhook context.maxResponseBytes exchange with
      | .ok status => attempt.statusCode = some status ∧ attempt.error = none
      | .error message => attempt.statusCode = none ∧ attempt.error = some message) :
    (if (classifyPoisonFailure rt payload endpoint.endpointUrl attempt.statusCode
          context.policy attempt.error).isSome then
        isSuccessAnswer (sendWebhook context.maxResponseBytes exchange) = false
      else if shouldRetry attempt (extractAttemptNumber payload) context.policy
          (failuresAfter services endpoint.endpointUrl context.policy gateFailures
            attempt) then
        (isSuccessAnswer (sendWebhook context.maxResponseBytes exchange) = false ↔
          isObject payload = true)
      else isSuccessAnswer (sendWebhook context.maxResponseBytes exchange) = true) ↔
      AnswerKeepsEvent rt context services exchange endpoint payload := by
  rw [AnswerKeepsEvent]
  simp only [classifyPoisonFailure_isSome_iff hpayload]
  cases hanswer : sendWebhook context.maxResponseBytes exchange with
  | error message =>
    rw [hanswer] at houtcome
    obtain ⟨hstatus, herror⟩ := houtcome
    rw [failuresAfter_of_error services hstatus]
    simp only [hstatus, herror, Option.getD_some, isRetryableStatusCode, isSuccessAnswer]
    by_cases htimeout : includes message timeoutText = true
    · simp [htimeout]
    by_cases hurl : validateWebhookUrl rt endpoint.endpointUrl = .ok ()
    · by_cases hleft : RetriesLeft context.policy (extractAttemptNumber payload)
        (services.recordFailure endpoint.endpointUrl) <;>
        simp [htimeout, hurl, shouldRetry_iff, hstatus, isRetryableStatusCode, hleft]
    · simp [hurl]
  | ok status =>
    rw [hanswer] at houtcome
    obtain ⟨hstatus, herror⟩ := houtcome
    have htimeout : includes "" timeoutText = false := by decide
    have hmember : isRetryableStatusCode (some status) context.policy = true ↔
        status ∈ context.policy.retryableStatusCodes := by
      simp [isRetryableStatusCode]
    simp only [hstatus, herror, Option.getD_none, htimeout, Bool.false_eq_true, false_or,
      Option.some.injEq, exists_eq_left', ← Bool.not_eq_true, hmember, isSuccessAnswer]
    by_cases hurl : validateWebhookUrl rt endpoint.endpointUrl = .ok ()
    · by_cases hcode : status ∈ context.policy.retryableStatusCodes
      · rw [failuresAfter_of_status services hstatus herror _ _ _ (hmember.mpr hcode)]
        cases hsuccess : isSuccessStatus status with
        | true =>
          by_cases hleft : RetriesLeft context.policy (extractAttemptNumber payload)
            (services.recordSuccess endpoint.endpointUrl) <;>
            simp [hurl, shouldRetry_iff, hstatus, hmember, hcode, hleft]
        | false =>
          by_cases hleft : RetriesLeft context.policy (extractAttemptNumber payload)
            (services.recordFailure endpoint.endpointUrl) <;>
            simp [hurl, shouldRetry_iff, hstatus, hmember, hcode, hleft]
      · -- a 2xx status is not a client error
        have hclass : isSuccessStatus status = true → ¬ (400 ≤ status ∧ status < 500) := by
          simp only [isSuccessStatus, decide_eq_true_eq]
          omega
        cases hsuccess : isSuccessStatus status with
        | true => simp [hurl, shouldRetry_iff, hstatus, hmember, hcode, hclass hsuccess]
        | false => simp [hurl, shouldRetry_iff, hstatus, hmember, hcode]
    · cases hsuccess : isSuccessStatus status <;> simp [hurl]

theorem inOnePlace_deliverSoundRow_iff (before : World) {gateFailures : ℕ}
    (hpayload : validateWebhookPayload rt (normalizePayload rt row.payload) = .ok ())
    (hgate : rowGate rt context services row endpoint = .deliver gateFailures) :
    InOnePlace rt row before (deliverSoundRow rt context services exchange row endpoint) ↔
      AnswerKeepsEvent rt context services exchange endpoint
        (normalizePayload rt row.payload) := by
  obtain ⟨delivery, filed, retryAt, hid, heffects⟩ :=
    deliverSoundRow_of_deliver rt context services exchange row endpoint hgate
  rw [heffects, inOnePlace_afterSend_iff rt row before hid]
  apply followUp_keeps_iff rt context services exchange endpoint hpayload
  exact runDeliveryAttempt_outcome rt context.policy context.maxResponseBytes exchange
    services.now services.random (pendingDelivery rt services row endpoint)

/-- A row keeps its event exactly under the condition above, whatever the policy,
the gate, the answer and the tables are. -/
theorem eventConserved_iff (before : World) :
    EventConserved rt context services exchange before row ↔
      KeepsEvent rt context services exchange row := by
  rw [EventConserved, KeepsEvent]
  cases hresolve : context.resolveEndpoint row with
  | error => simp [deliverOutboxRow, hresolve]
  | ok resolved =>
    cases resolved with
    | none => simp [deliverOutboxRow, hresolve, not_inOnePlace_nil]
    | some endpoint =>
      simp only [deliverOutboxRow, hresolve, Except.ok.injEq, Option.some.injEq,
        exists_eq_left']
      by_cases hpoison : isPoisonRow rt row endpoint = true
      · simp only [hpoison, if_true, true_or, iff_true, Except.ok.injEq, exists_eq_left']
        exact inOnePlace_filed rt row before rfl
      by_cases hrange : extractAttemptNumber (normalizePayload rt row.payload) - 1 ≥
          maxArrayLength
      · simp [hpoison, hrange, not_lt.mpr hrange]
      have hpayload : validateWebhookPayload rt (normalizePayload rt row.payload) = .ok () := by
        by_contra hinvalid
        exact hpoison (by simp [isPoisonRow, hinvalid])
      simp only [hpoison, hrange, if_false, false_or, not_le.mp hrange, true_and,
        Except.ok.injEq, exists_eq_left', Bool.false_eq_true]
      cases hgate : rowGate rt context services row endpoint with
      | defer =>
        rw [deliverSoundRow_of_defer rt context services exchange row endpoint hgate]
        simp [inOnePlace_deferred]
      | deliver =>
        rw [inOnePlace_deliverSoundRow_iff rt context services exchange row endpoint
          before hpayload hgate]
        simp

end Condition

/-! ## An event that is lost -/

/-- A runtime that agrees with the real one on the two payloads below. -/
def lossRuntime : Runtime where
  parse _ := none
  stringify payload :=
    if carriesRetryKey payload then
      "\x7b\"amount\":\"5\",\"_webhookRetry\":\x7b\"attemptNumber\":5\x7d\x7d"
    else "\x7b\"event\":\"stream.cancelled\",\"schema_version\":1,\"status\":\"cancelled\"\x7d"
  parseUrl _ := some ⟨"https:", "", ""⟩
  parseDate _ := none

/-- The default policy and a configured endpoint. -/
def lossContext : OutboxDeliveryContext where
  policy := defaultRetryPolicy
  maxResponseBytes := 1024
  resolveEndpoint _ := .ok (some ⟨"https://consumer.example/hook", "secret"⟩)

/-- A closed breaker and no rate limiter. -/
def lossServices : GateServices where
  now := 0
  random := 0
  checkAndClaimAttempt _ := ⟨true, .closed, 0, none⟩
  recordSuccess _ := 0
  recordFailure _ := 1
  checkLimit := none
  windowMs := 1000

def answerWith (status : ℕ) : HttpExchange := .response status (some "text/plain") none []

/-- A cancellation on its first attempt. -/
def firstRow : OutboxRow := ⟨7, "stream-1", "stream.cancelled", cancelledPayload, 0⟩

/-- An unpublished payload on its last attempt. -/
def lastRow : OutboxRow :=
  ⟨8, "stream-1", "stream.updated",
    .object [("amount", .string "5"), (retryKey, .object [("attemptNumber", .number 5)])], 0⟩

/-- A first attempt answered 501 and a last attempt answered 500 both mark the row
processed and leave the event nowhere. -/
theorem eventConserved_fails :
    (∀ before, ¬ EventConserved lossRuntime lossContext lossServices (answerWith 501) before
      firstRow) ∧
    ∀ before, ¬ EventConserved lossRuntime lossContext lossServices (answerWith 500) before
      lastRow := by
  have hfirst : deliverOutboxRow lossRuntime lossContext lossServices (answerWith 501) firstRow =
      .ok [.sendWebhook (pendingDelivery lossRuntime lossServices firstRow
          ⟨"https://consumer.example/hook", "secret"⟩) (.ok 501), .markProcessed 7] := by
    rfl
  have hlast : deliverOutboxRow lossRuntime lossContext lossServices (answerWith 500) lastRow =
      .ok [.sendWebhook (pendingDelivery lossRuntime lossServices lastRow
          ⟨"https://consumer.example/hook", "secret"⟩) (.ok 500), .markProcessed 8] := by
    rfl
  apply And.intro
  · rintro before ⟨effects, hrun, hplace⟩
    rw [hfirst, Except.ok.injEq] at hrun
    rw [← hrun] at hplace
    exact absurd ((inOnePlace_sent_iff lossRuntime firstRow before).mp hplace) (by decide)
  · rintro before ⟨effects, hrun, hplace⟩
    rw [hlast, Except.ok.injEq] at hrun
    rw [← hrun] at hplace
    exact absurd ((inOnePlace_sent_iff lossRuntime lastRow before).mp hplace) (by decide)

end Fluxora.Webhooks
