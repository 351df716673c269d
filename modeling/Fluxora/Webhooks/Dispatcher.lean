/-
# The webhook dispatcher

`dispatch` checks the target, asks the breaker, sends the request and follows one redirect. How a
request ends decides what the caller and the breaker are told.
-/

import Fluxora.Webhooks.Service

namespace Fluxora.Webhooks

universe u

/-! ## The request -/

/-- What is thrown while a request is made. -/
inductive SendError
  | webhookTargetValidation (message : String)
  /-- The `DOMException` that the timer aborts with. -/
  | timeout (message : String)
  | other (message : String)
  deriving DecidableEq

def SendError.message : SendError → String
  | webhookTargetValidation message => message
  | timeout message => message
  | other message => message

/-- The errors that are answered without a further attempt. -/
def SendError.isNonRetryable : SendError → Bool
  | webhookTargetValidation _ => true
  | timeout _ => true
  | other _ => false

structure WebhookHttpResponse where
  status : ℕ
  statusText : String
  location : Option String

/-- The network at each hop: 0 for the URL of the webhook, then one for each redirect. -/
structure DispatchNetwork where
  validateWebhookTarget : ℕ → String → Except SendError Unit
  sendWebhookHttpRequest : ℕ → String → Except SendError WebhookHttpResponse
  /-- `new URL(location, base)`, with `none` for an unparseable text. -/
  resolveLocation : String → String → Option String

def maxRedirects : ℕ := 1

/-- Follow redirects, with a check of each target. The hop and the redirects that are left are
counted against each other. -/
def followRedirects (network : DispatchNetwork) (hop : ℕ) (currentUrl : String)
    (redirectsLeft : ℕ) : Except SendError WebhookHttpResponse :=
  match network.sendWebhookHttpRequest hop currentUrl with
  | .error error => .error error
  | .ok response =>
    if 300 ≤ response.status ∧ response.status < 400 ∧ truthy response.location then
      match redirectsLeft with
      | 0 => .error (.other "Too many redirects")
      | redirectsLeft + 1 =>
        match network.resolveLocation (response.location.getD "") currentUrl with
        | none => .error (.other "Invalid URL")
        | some redirectUrl =>
          match network.validateWebhookTarget (hop + 1) redirectUrl with
          | .error error => .error error
          | .ok () => followRedirects network (hop + 1) redirectUrl redirectsLeft
    else .ok response

def sendRequest (network : DispatchNetwork) (url : String) :
    Except SendError WebhookHttpResponse :=
  followRedirects network 0 url maxRedirects

/-! ## Dispatching -/

structure WebhookDispatchOptions where
  url : String
  attemptNumber : ℕ

structure WebhookDispatchResult where
  success : Bool
  statusCode : Option ℕ
  error : Option String
  nextRetryAt : Option ℤ
  shouldRetry : Bool

def WebhookCircuitBreakerPhase.text : WebhookCircuitBreakerPhase → String
  | closed => "closed"
  | opened => "open"
  | halfOpen => "half-open"

section

variable {σ : Type u} (store : WebhookCircuitBreakerStore σ) (env : AttemptEnv)
  (network : DispatchNetwork) (redactKeysInString : String → String)
  (options : WebhookDispatchOptions)

/-- The result of an attempt that failed and may be made again. -/
def dispatchFailed (attempt : WebhookDeliveryAttempt) (s : σ) : WebhookDispatchResult × σ :=
  let recorded := recordUnsuccessful store env options.url attempt s
  let nextRetryAt :=
    calculateNextRetryTime options.attemptNumber env.policy env.ended env.random
  if shouldRetry attempt options.attemptNumber env.policy recorded.1 then
    (⟨false, attempt.statusCode, attempt.error, some nextRetryAt, true⟩, recorded.2)
  else (⟨false, attempt.statusCode, attempt.error, none, false⟩, recorded.2)

/-- Send the request of an attempt that the breaker has let through. -/
def dispatchAllowed (s : σ) : WebhookDispatchResult × σ :=
  match sendRequest network options.url with
  | .ok response =>
    if isSuccessStatus response.status then
      (⟨true, some response.status, none, none, false⟩,
        (store.recordSuccess options.url env.policy.breaker env.ended s).2)
    else
      let errorMessage := redactKeysInString
        ("HTTP " ++ toString response.status ++ ": " ++ response.statusText)
      dispatchFailed store env options
        ⟨options.attemptNumber, env.ended, some response.status, some errorMessage, none⟩ s
  | .error error =>
    let errorMessage := redactKeysInString error.message
    if error.isNonRetryable then (⟨false, none, some errorMessage, none, false⟩, s)
    else
      dispatchFailed store env options
        ⟨options.attemptNumber, env.ended, none, some errorMessage, none⟩ s

/-- Dispatch a webhook with a signed POST request and retry-safe result. Only a check of the
target that fails in another way than by refusing it throws. -/
def dispatch (s : σ) : Except SendError WebhookDispatchResult × σ :=
  match network.validateWebhookTarget 0 options.url with
  | .error (.webhookTargetValidation message) =>
    (.ok ⟨false, none, some message, none, false⟩, s)
  | .error error => (.error error, s)
  | .ok () =>
    let gate := store.checkAndClaimAttempt options.url env.policy.breaker env.started s
    if !gate.1.allowed then
      let nextRetryAt := resolveCircuitBreakerDeferral gate.1 env.policy env.started
      (.ok ⟨false, none, some ("Circuit breaker " ++ gate.1.state.text), some nextRetryAt, true⟩,
        gate.2)
    else
      let sent := dispatchAllowed store env network redactKeysInString options gate.2
      (.ok sent.1, sent.2)

end

end Fluxora.Webhooks
