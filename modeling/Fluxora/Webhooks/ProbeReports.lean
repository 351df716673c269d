/-
# What a breaker is told of a probe

Deliveries are attempted in four places: by the dispatcher, for a new delivery of the service, for
a retry of it, and for a row of the outbox. Each asks the breaker first and tells it of the
outcome later, if it does. The breaker that admitted a probe stays half-open until it is told.
-/

import Fluxora.Webhooks.Dispatcher

namespace Fluxora.Webhooks

open Lib.TtlTable

universe u

/-! ## Attempts -/

inductive BreakerReport
  | success
  | failure
  deriving DecidableEq

/-- The places where deliveries are attempted, with what they are given. -/
inductive DeliveryPath
  | dispatched (network : DispatchNetwork) (redactKeysInString : String → String)
      (options : WebhookDispatchOptions)
  | queued (exchange : HttpExchange) (delivery : WebhookDelivery)
      (queue : List DeadLetterQueueItem)
  | retried (exchange : HttpExchange) (delivery : WebhookDelivery)
      (queue : List DeadLetterQueueItem)
  | outbox (exchange : HttpExchange) (delivery : WebhookDelivery)
      (checkLimit : Option (RateLimitDimensions → RateLimitResult)) (windowMs : ℕ)
      (input : WebhookOutboxRetryInput)

/-- The URL whose breaker is asked. -/
def DeliveryPath.url : DeliveryPath → String
  | dispatched _ _ options => options.url
  | queued _ delivery _ => delivery.endpointUrl
  | retried _ delivery _ => delivery.endpointUrl
  | outbox _ _ _ _ input => input.consumerUrl

/-- The store after an attempt for the outbox, which has a rate limiter behind the breaker. The
failure is recorded for the time at which the attempt began. -/
def afterOutboxAttempt {σ : Type u} (store : WebhookCircuitBreakerStore σ) (env : AttemptEnv)
    (checkLimit : Option (RateLimitDimensions → RateLimitResult)) (windowMs : ℕ)
    (input : WebhookOutboxRetryInput) (deliver : WebhookDeliveryAttempt) (s : σ) : σ :=
  let url := input.consumerUrl
  let breaker := env.policy.breaker
  let claimed := (store.checkAndClaimAttempt url breaker env.started s).2
  match checkWebhookDeliveryGate (gateServices store env checkLimit windowMs s) url env.policy
      (rateLimitDimensions input) with
  | .defer _ _ => claimed
  | .deliver _ =>
    if deliver.isSuccess then (store.recordSuccess url breaker env.ended claimed).2
    else if countsTowardCircuitBreaker deliver env.policy then
      (store.recordFailure url breaker env.started claimed).2
    else claimed

/-- The request of a delivery. -/
def madeAttempt (env : AttemptEnv) (exchange : HttpExchange) (delivery : WebhookDelivery) :
    WebhookDeliveryAttempt :=
  (runDeliveryAttempt env.runtime env.policy env.maxResponseBytes exchange env.ended env.random
    delivery).1

section

variable {σ : Type u} (store : WebhookCircuitBreakerStore σ) (env : AttemptEnv)

/-- The store when the attempt function returns. -/
def DeliveryPath.run (s : σ) : DeliveryPath → σ
  | dispatched network redactKeysInString options =>
    (dispatch store env network redactKeysInString options s).2
  | queued exchange delivery queue => (queueDelivery store env exchange delivery queue s).2
  | retried exchange delivery queue => (retryDelivery store env exchange delivery queue s).2
  | outbox exchange delivery checkLimit windowMs input =>
    afterOutboxAttempt store env checkLimit windowMs input (madeAttempt env exchange delivery) s

/-- The breaker is asked. Only the dispatcher looks at the target before. -/
def DeliveryPath.asks : DeliveryPath → Prop
  | dispatched network _ options => network.validateWebhookTarget 0 options.url = .ok ()
  | _ => True

/-- The gate admits the attempt as the probe of an open circuit. -/
def DeliveryPath.AdmittedAsProbe (path : DeliveryPath) (s : σ) : Prop :=
  path.asks ∧
    let gate := (store.checkAndClaimAttempt path.url env.policy.breaker env.started s).1
    gate.allowed = true ∧ gate.state = .halfOpen

end

/-! ## What is reported -/

def attemptReport (policy : EnhancedRetryPolicy) (attempt : WebhookDeliveryAttempt) :
    Option BreakerReport :=
  if attempt.isSuccess then some .success
  else if countsTowardCircuitBreaker attempt policy then some .failure
  else none

/-- The rate limiter, if there is one, lets the attempt through. -/
def withinLimit (checkLimit : Option (RateLimitDimensions → RateLimitResult))
    (input : WebhookOutboxRetryInput) : Bool :=
  checkLimit.all fun check => (check (rateLimitDimensions input)).canAttempt

def DeliveryPath.report (env : AttemptEnv) : DeliveryPath → Option BreakerReport
  | dispatched network _ options =>
    match sendRequest network options.url with
    | .ok response =>
      if isSuccessStatus response.status then some .success
      else if isRetryableStatusCode (some response.status) env.policy then some .failure
      else none
    | .error error => if error.isNonRetryable then none else some .failure
  | queued exchange delivery _ => attemptReport env.policy (madeAttempt env exchange delivery)
  | retried exchange delivery _ => attemptReport env.policy (madeAttempt env exchange delivery)
  | outbox exchange delivery checkLimit _ input =>
    if withinLimit checkLimit input then
      attemptReport env.policy (madeAttempt env exchange delivery)
    else none

/-- The time a failure is recorded for. -/
def DeliveryPath.failureTime (env : AttemptEnv) : DeliveryPath → ℤ
  | outbox _ _ _ _ _ => env.started
  | _ => env.ended

section

variable {σ : Type u} (store : WebhookCircuitBreakerStore σ) (env : AttemptEnv) {s : σ}

/-- A store that is told. -/
def told (url : String) (failureTime : ℤ) (s : σ) : Option BreakerReport → σ
  | none => s
  | some .success => (store.recordSuccess url env.policy.breaker env.ended s).2
  | some .failure => (store.recordFailure url env.policy.breaker failureTime s).2

variable {attempt : WebhookDeliveryAttempt}

theorem recordUnsuccessful_eq (url : String) (hfailed : attempt.isSuccess = false) :
    (recordUnsuccessful store env url attempt s).2 =
      told store env url env.ended s (attemptReport env.policy attempt) := by
  have hnot : ¬ attempt.isSuccess = true := Bool.eq_false_iff.mp hfailed
  rw [recordUnsuccessful, attemptReport, if_neg hnot]
  by_cases hcounts : countsTowardCircuitBreaker attempt env.policy = true
  · rw [if_pos hcounts, if_pos hcounts]
    rfl
  · rw [if_neg hcounts, if_neg hcounts]
    rfl

theorem recordBreakerOutcome_eq (url : String) (attempt : WebhookDeliveryAttempt) (s : σ) :
    (recordBreakerOutcome store env url attempt s).2 =
      told store env url env.ended s (attemptReport env.policy attempt) := by
  rw [recordBreakerOutcome]
  by_cases hsuccess : attempt.isSuccess = true
  · rw [if_pos hsuccess, attemptReport, if_pos hsuccess]
    rfl
  · rw [if_neg hsuccess]
    exact recordUnsuccessful_eq store env url (Bool.eq_false_iff.mpr hsuccess)

theorem isSuccess_eq_false (hstatus : attempt.statusCode.any isSuccessStatus = false) :
    attempt.isSuccess = false := by
  rw [WebhookDeliveryAttempt.isSuccess, hstatus, Bool.false_and]

theorem attemptReport_of_failed {policy : EnhancedRetryPolicy}
    (hfailed : attempt.isSuccess = false) :
    attemptReport policy attempt =
      if isRetryableStatusCode attempt.statusCode policy then some .failure else none := by
  rw [attemptReport, countsTowardCircuitBreaker, hfailed]
  rfl

theorem dispatchFailed_eq (options : WebhookDispatchOptions) (hfailed : attempt.isSuccess = false) :
    (dispatchFailed store env options attempt s).2 =
      told store env options.url env.ended s
        (if isRetryableStatusCode attempt.statusCode env.policy then some .failure
          else none) := by
  rw [← attemptReport_of_failed hfailed, ← recordUnsuccessful_eq store env options.url hfailed,
    dispatchFailed]
  split_ifs <;> rfl

theorem dispatchAllowed_eq (network : DispatchNetwork) (redactKeysInString : String → String)
    (options : WebhookDispatchOptions) (s : σ) :
    (dispatchAllowed store env network redactKeysInString options s).2 =
      told store env options.url env.ended s
        ((DeliveryPath.dispatched network redactKeysInString options).report env) := by
  rw [dispatchAllowed, DeliveryPath.report]
  cases sendRequest network options.url with
  | error error =>
    dsimp only
    by_cases hfinal : error.isNonRetryable = true
    · rw [if_pos hfinal, if_pos hfinal]
      rfl
    · rw [if_neg hfinal, if_neg hfinal]
      exact dispatchFailed_eq store env options (isSuccess_eq_false rfl)
  | ok response =>
    dsimp only
    by_cases hsuccess : isSuccessStatus response.status = true
    · rw [if_pos hsuccess, if_pos hsuccess]
      rfl
    · rw [if_neg hsuccess, if_neg hsuccess]
      exact dispatchFailed_eq store env options
        (isSuccess_eq_false (Bool.eq_false_iff.mpr hsuccess))

theorem checkWebhookDeliveryGate_of_allowed (services : GateServices) {url : String}
    (policy : EnhancedRetryPolicy) (dimensions : RateLimitDimensions)
    (hallowed : (services.checkAndClaimAttempt url).allowed = true) :
    (∃ failures, checkWebhookDeliveryGate services url policy dimensions = .deliver failures) ∧
        services.checkLimit.all (fun check => (check dimensions).canAttempt) = true ∨
      (∃ retryAt limited,
          checkWebhookDeliveryGate services url policy dimensions = .defer retryAt limited) ∧
        services.checkLimit.all (fun check => (check dimensions).canAttempt) = false := by
  rw [checkWebhookDeliveryGate]
  dsimp only
  rw [if_neg (by rw [hallowed]; exact Bool.false_ne_true)]
  cases services.checkLimit with
  | none => exact .inl ⟨⟨_, rfl⟩, rfl⟩
  | some check =>
    dsimp only
    by_cases hlimit : (check dimensions).canAttempt = true
    · exact .inl ⟨⟨_, if_pos hlimit⟩, hlimit⟩
    · exact .inr ⟨⟨_, _, if_neg hlimit⟩, Bool.eq_false_iff.mpr hlimit⟩

theorem serviceGate_of_allowed {delivery : WebhookDelivery}
    (hallowed : (store.checkAndClaimAttempt delivery.endpointUrl env.policy.breaker env.started
      s).1.allowed = true) :
    ∃ failures, serviceGate store env delivery s = (.deliver failures,
      (store.checkAndClaimAttempt delivery.endpointUrl env.policy.breaker env.started s).2) := by
  rcases checkWebhookDeliveryGate_of_allowed (gateServices store env none 0 s) env.policy
    ⟨"default", delivery.endpointUrl, "first_attempt", 1⟩ hallowed with
    ⟨⟨failures, hgate⟩, -⟩ | ⟨-, hlimit⟩
  · exact ⟨failures, by rw [serviceGate, hgate]⟩
  · cases hlimit

variable {path : DeliveryPath}

theorem DeliveryPath.run_eq (hasks : path.asks)
    (hallowed : (store.checkAndClaimAttempt path.url env.policy.breaker env.started s).1.allowed =
      true) :
    path.run store env s = told store env path.url (path.failureTime env)
      (store.checkAndClaimAttempt path.url env.policy.breaker env.started s).2
      (path.report env) := by
  cases path with
  | dispatched network redactKeysInString options =>
    rw [run, dispatch, hasks]
    dsimp only
    have hgate : (store.checkAndClaimAttempt options.url env.policy.breaker env.started
      s).1.allowed = true := hallowed
    rw [hgate]
    exact dispatchAllowed_eq store env network redactKeysInString options _
  | queued _ delivery =>
    obtain ⟨failures, hgate⟩ := serviceGate_of_allowed store env hallowed
    rw [run, queueDelivery, hgate]
    exact recordBreakerOutcome_eq store env delivery.endpointUrl _ _
  | retried _ delivery =>
    obtain ⟨failures, hgate⟩ := serviceGate_of_allowed store env hallowed
    rw [run, retryDelivery, hgate]
    exact recordBreakerOutcome_eq store env delivery.endpointUrl _ _
  | outbox _ _ checkLimit windowMs input =>
    rw [run, afterOutboxAttempt, report, withinLimit]
    rcases checkWebhookDeliveryGate_of_allowed
      (gateServices store env checkLimit windowMs s) env.policy
      (rateLimitDimensions input) hallowed with
      ⟨⟨failures, hgate⟩, hlimit⟩ | ⟨⟨retryAt, limited, hgate⟩, hlimit⟩ <;>
      rw [url] at hgate
    · have hwithin : checkLimit.all
        (fun check => (check (rateLimitDimensions input)).canAttempt) = true := hlimit
      rw [hgate, hwithin, if_pos rfl, attemptReport]
      dsimp only
      split_ifs <;> rfl
    · have hwithin : checkLimit.all
        (fun check => (check (rateLimitDimensions input)).canAttempt) = false := hlimit
      rw [hgate, hwithin]
      rfl

/-! ## The log of a store -/

/-- A store that keeps a log of what it is told, and of which URL. -/
def logged : WebhookCircuitBreakerStore (σ × List (String × BreakerReport)) where
  checkAndClaimAttempt url policy now s :=
    let checked := store.checkAndClaimAttempt url policy now s.1
    (checked.1, checked.2, s.2)
  recordSuccess url policy now s :=
    let recorded := store.recordSuccess url policy now s.1
    (recorded.1, recorded.2, s.2 ++ [(url, .success)])
  recordFailure url policy now s :=
    let recorded := store.recordFailure url policy now s.1
    (recorded.1, recorded.2, s.2 ++ [(url, .failure)])
  getState url now s := store.getState url now s.1

/-- The breaker has been told exactly one outcome of the attempt, and nothing else. -/
def DeliveryPath.ReportedOnce (path : DeliveryPath) (s : σ) : Prop :=
  ∃ report, (path.run (logged store) env (s, [])).2 = [(path.url, report)]

theorem log_told (url : String) (failureTime : ℤ) (s : σ × List (String × BreakerReport))
    (report : Option BreakerReport) :
    (told (logged store) env url failureTime s report).2 =
      s.2 ++ (report.map fun report => (url, report)).toList := by
  rcases report with _ | _ | _
  · exact (List.append_nil s.2).symm
  · rfl
  · rfl

theorem DeliveryPath.log_eq (hprobe : path.AdmittedAsProbe store env s) :
    (path.run (logged store) env (s, [])).2 =
      ((path.report env).map fun report => (path.url, report)).toList := by
  obtain ⟨hasks, hallowed, -⟩ := hprobe
  rw [path.run_eq (logged store) env hasks (s := (s, [])) hallowed, log_told]
  rfl

/-! ## Which attempts are reported -/

/-- Statuses that the breaker is told of: success, and failures that count. -/
def reportedStatus (policy : EnhancedRetryPolicy) (status : ℕ) : Bool :=
  isSuccessStatus status || isRetryableStatusCode (some status) policy

/-- The request of the service ends in an error or with such a status. -/
def exchangeReported (env : AttemptEnv) (exchange : HttpExchange) : Bool :=
  match sendWebhook env.maxResponseBytes exchange with
  | .ok status => reportedStatus env.policy status
  | .error _ => true

/-- The attempt ends in a way that the breaker is told of. -/
def DeliveryPath.isReported : DeliveryPath → Bool
  | dispatched network _ options =>
    match sendRequest network options.url with
    | .ok response => reportedStatus env.policy response.status
    | .error error => !error.isNonRetryable
  | queued exchange _ _ => exchangeReported env exchange
  | retried exchange _ _ => exchangeReported env exchange
  | outbox exchange _ checkLimit _ input =>
    withinLimit checkLimit input && exchangeReported env exchange

theorem isSome_attemptReport (policy : EnhancedRetryPolicy) (attempt : WebhookDeliveryAttempt) :
    (attemptReport policy attempt).isSome =
      (attempt.isSuccess || isRetryableStatusCode attempt.statusCode policy) := by
  cases hsuccess : attempt.isSuccess with
  | true =>
    rw [attemptReport, if_pos hsuccess]
    rfl
  | false =>
    rw [attemptReport_of_failed hsuccess]
    cases isRetryableStatusCode attempt.statusCode policy <;> rfl

theorem isSome_report_made (exchange : HttpExchange) (delivery : WebhookDelivery) :
    (attemptReport env.policy (madeAttempt env exchange delivery)).isSome =
      exchangeReported env exchange := by
  have houtcome := runDeliveryAttempt_outcome env.runtime env.policy env.maxResponseBytes exchange
    env.ended env.random delivery
  rw [isSome_attemptReport, exchangeReported, madeAttempt]
  dsimp only at houtcome
  cases hsent : sendWebhook env.maxResponseBytes exchange with
  | ok =>
    rw [hsent] at houtcome
    rw [WebhookDeliveryAttempt.isSuccess, houtcome.1, houtcome.2]
    exact congrArg (· || _) (Bool.and_true _)
  | error =>
    rw [hsent] at houtcome
    rw [houtcome.1]
    exact Bool.or_true _

theorem DeliveryPath.isSome_report (path : DeliveryPath) :
    (path.report env).isSome = path.isReported env := by
  cases path with
  | dispatched network _ options =>
    rw [report, isReported]
    cases sendRequest network options.url with
    | error error =>
      dsimp only
      cases error.isNonRetryable <;> rfl
    | ok response =>
      dsimp only
      rw [reportedStatus]
      cases isSuccessStatus response.status <;>
        cases isRetryableStatusCode (some response.status) env.policy <;> rfl
  | queued exchange delivery | retried exchange delivery =>
    exact isSome_report_made env exchange delivery
  | outbox exchange delivery checkLimit _ input =>
    rw [report, isReported]
    cases withinLimit checkLimit input with
    | false => rfl
    | true => exact isSome_report_made env exchange delivery

/-- The breaker is told exactly one outcome of a probe when the attempt ends in one of the ways
that are reported: a success, a status that counts as a failure, or an error that the dispatcher
does not take for final. -/
theorem reportedOnce_iff (path : DeliveryPath) (s : σ)
    (hprobe : path.AdmittedAsProbe store env s) :
    path.ReportedOnce store env s ↔ path.isReported env = true := by
  rw [DeliveryPath.ReportedOnce, path.log_eq store env hprobe, ← path.isSome_report env]
  cases path.report env with
  | none =>
    apply Iff.intro
    · rintro ⟨_, hlog⟩
      cases hlog
    · nofun
  | some report => exact ⟨fun _ => rfl, fun _ => ⟨report, rfl⟩⟩

end

/-! ## A probe that times out and one that is not found -/

/-- The store of a process whose circuit for every URL is open and due for a probe. -/
def dueBreakers : RedisBreakers where
  states _ := some ⟨⟨.opened, 5, 0, some 0, 300000⟩, 300000⟩

def probeEnv : AttemptEnv where
  runtime := ⟨fun _ => none, fun _ => "", fun _ => none, fun _ => none⟩
  policy := { defaultRetryPolicy with
    circuitBreakerThreshold := some 5, circuitBreakerResetMs := some 60000 }
  maxResponseBytes := 1000
  started := 60000
  ended := 60100
  random := 0

/-- A request of the dispatcher that is answered with a status. -/
def answeredWith (status : ℕ) : DeliveryPath :=
  .dispatched ⟨fun _ _ => .ok (), fun _ _ => .ok ⟨status, "", none⟩, fun _ _ => none⟩ id
    ⟨"https://consumer.example/hook", 1⟩

theorem answeredWith_admitted (status : ℕ) :
    (answeredWith status).AdmittedAsProbe (redisBreakerStore id) probeEnv dueBreakers :=
  ⟨rfl, rfl, rfl⟩

/-- A probe that is answered with 503 is reported. -/
theorem unavailable_reportedOnce :
    (answeredWith 503).AdmittedAsProbe (redisBreakerStore id) probeEnv dueBreakers ∧
      (answeredWith 503).ReportedOnce (redisBreakerStore id) probeEnv dueBreakers :=
  ⟨answeredWith_admitted 503,
    (reportedOnce_iff _ _ _ _ (answeredWith_admitted 503)).mpr (by decide)⟩

/-- A probe that is answered with 404 is not. -/
theorem notFound_unreported :
    ¬ ∀ (σ : Type) (store : WebhookCircuitBreakerStore σ) (env : AttemptEnv) (path : DeliveryPath)
      (s : σ), path.AdmittedAsProbe store env s → path.ReportedOnce store env s := by
  intro h
  obtain ⟨report, hlog⟩ := h _ _ probeEnv (answeredWith 404) dueBreakers (answeredWith_admitted 404)
  rw [(answeredWith 404).log_eq _ _ (answeredWith_admitted 404)] at hlog
  cases hlog

end Fluxora.Webhooks
