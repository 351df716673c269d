/-
# The requests that webhooks send out

An attempt is seen here by its events: a target that the guard has accepted, and a request that
was sent, each at its hop. The dispatcher and `dispatchWebhook` check the target of every hop, so
that each of their requests goes to a URL accepted for that hop.
-/

import Fluxora.Webhooks.Dispatcher
import Fluxora.Webhooks.SsrfGuard

namespace Fluxora.Webhooks

open Fluxora.Lib

universe u

/-! ## The network -/

inductive OutboundEvent
  | accepted (hop : ℕ) (url : String)
  | requested (hop : ℕ) (url : String)
  deriving DecidableEq

/-- One of the clients of the runtime, without redirects. -/
structure HttpClient where
  /-- The error for a URL that no request is sent to, such as a text that is no URL. -/
  refuses : String → Option SendError
  request : ℕ → String → Except SendError WebhookHttpResponse

def HttpClient.send (client : HttpClient) (hop : ℕ) (url : String) :
    Except SendError WebhookHttpResponse :=
  match client.refuses url with
  | some error => .error error
  | none => client.request hop url

def HttpClient.events (client : HttpClient) (hop : ℕ) (url : String) : List OutboundEvent :=
  match client.refuses url with
  | some _ => []
  | none => [.requested hop url]

/-- What the attempts meet: names and addresses as they are at each hop, the configured hosts,
and the answers. -/
structure OutboundNetwork where
  guardEnv : ℕ → GuardEnv
  allowlist : Option (List String)
  http : HttpClient
  fetch : HttpClient
  /-- Content type, retry time and chunk sizes of an answer that `fetch` returns. -/
  answer : ℕ → String → Option String × Option String × List ℕ
  resolveLocation : String → String → Option String

namespace OutboundNetwork

variable (network : OutboundNetwork)

def checkTarget (hop : ℕ) (url : String) : Except SendError Unit :=
  (validateWebhookTarget (network.guardEnv hop) true network.allowlist url).mapError
    .webhookTargetValidation

/-- The network as `followRedirects` sees it. -/
def through (client : HttpClient) : DispatchNetwork where
  validateWebhookTarget := network.checkTarget
  sendWebhookHttpRequest := client.send
  resolveLocation := network.resolveLocation

end OutboundNetwork

/-! ## Following redirects -/

section

variable (network : OutboundNetwork)

/-- `followRedirects` with its events. -/
def followRedirectsTraced (client : HttpClient) (hop : ℕ) (currentUrl : String)
    (redirectsLeft : ℕ) : List OutboundEvent × Except SendError WebhookHttpResponse :=
  match client.send hop currentUrl with
  | .error error => (client.events hop currentUrl, .error error)
  | .ok response =>
    if 300 ≤ response.status ∧ response.status < 400 ∧ truthy response.location then
      match redirectsLeft with
      | 0 => (client.events hop currentUrl, .error (.other "Too many redirects"))
      | redirectsLeft + 1 =>
        match network.resolveLocation (response.location.getD "") currentUrl with
        | none => (client.events hop currentUrl, .error (.other "Invalid URL"))
        | some redirectUrl =>
          match network.checkTarget (hop + 1) redirectUrl with
          | .error error => (client.events hop currentUrl, .error error)
          | .ok () =>
            let rest := followRedirectsTraced client (hop + 1) redirectUrl redirectsLeft
            (client.events hop currentUrl ++ .accepted (hop + 1) redirectUrl :: rest.1,
              rest.2)
    else (client.events hop currentUrl, .ok response)

theorem followRedirectsTraced_snd (client : HttpClient) (hop : ℕ) (currentUrl : String)
    (redirectsLeft : ℕ) :
    (followRedirectsTraced network client hop currentUrl redirectsLeft).2 =
      followRedirects (network.through client) hop currentUrl redirectsLeft := by
  induction redirectsLeft generalizing hop currentUrl with
  | zero =>
    rw [followRedirectsTraced, followRedirects]
    dsimp only [OutboundNetwork.through]
    cases client.send hop currentUrl with
    | error => rfl
    | ok =>
      dsimp only
      split_ifs <;> rfl
  | succ _ ih =>
    rw [followRedirectsTraced, followRedirects]
    dsimp only [OutboundNetwork.through]
    cases client.send hop currentUrl with
    | error => rfl
    | ok response =>
      dsimp only
      split_ifs
      · cases network.resolveLocation (response.location.getD "") currentUrl with
        | none => rfl
        | some redirectUrl =>
          dsimp only
          cases network.checkTarget (hop + 1) redirectUrl with
          | error => rfl
          | ok => exact ih _ _
      · rfl

/-- `followFetchRedirects`, with the same redirects as `followRedirects`. -/
def followFetchRedirects (initialUrl : String) :
    List OutboundEvent × Except SendError WebhookHttpResponse :=
  followRedirectsTraced network network.fetch 0 initialUrl maxRedirects

def isFetchRedirect (status : ℕ) : Bool := status ∈ [301, 302, 303, 307, 308]

def fetchMaxRedirects : ℕ := 20

/-- `fetch` as it is by default, with the redirects followed inside it. -/
def fetchFollowing (hop : ℕ) (currentUrl : String) (redirectsLeft : ℕ) :
    List OutboundEvent × HttpExchange :=
  match network.fetch.send hop currentUrl with
  | .error error => (network.fetch.events hop currentUrl, .failure error.message)
  | .ok response =>
    let answer := network.answer hop currentUrl
    match response.location.filter fun _ => isFetchRedirect response.status with
    | none =>
      (network.fetch.events hop currentUrl,
        .response response.status answer.1 answer.2.1 answer.2.2)
    | some location =>
      match redirectsLeft with
      | 0 => (network.fetch.events hop currentUrl, .failure "fetch failed")
      | redirectsLeft + 1 =>
        match network.resolveLocation location currentUrl with
        | none => (network.fetch.events hop currentUrl, .failure "fetch failed")
        | some redirectUrl =>
          let rest := fetchFollowing (hop + 1) redirectUrl redirectsLeft
          (network.fetch.events hop currentUrl ++ rest.1, rest.2)

/-! ## The senders -/

structure SimpleWebhookDispatch where
  url : String
  ledger : Option ℤ

def dispatchWebhook (isLedgerRolledBack : ℤ → Bool) (opts : SimpleWebhookDispatch) :
    List OutboundEvent × Except SendError Unit :=
  match network.checkTarget 0 opts.url with
  | .error error => ([], .error error)
  | .ok () =>
    if opts.ledger.any isLedgerRolledBack then ([.accepted 0 opts.url], .ok ())
    else
      let sent := followFetchRedirects network opts.url
      (.accepted 0 opts.url :: sent.1, sent.2.map fun _ => ())

def validateEndpoint (url : String) : List OutboundEvent × Bool :=
  let sent := followFetchRedirects network url
  (sent.1,
    match sent.2 with
    | .ok response => response.status < 500
    | .error _ => false)

/-- The attempt of the delivery service. -/
def sendWebhookTraced (maxBytes : ℕ) (url : String) : List OutboundEvent × Except String ℕ :=
  let sent := fetchFollowing network 0 url fetchMaxRedirects
  (sent.1, sendWebhook maxBytes sent.2)

/-- The events of `dispatch`: the check of the target, and the request if the breaker lets it
through. -/
def dispatchEvents {σ : Type u} (store : WebhookCircuitBreakerStore σ) (env : AttemptEnv)
    (options : WebhookDispatchOptions) (s : σ) : List OutboundEvent :=
  match network.checkTarget 0 options.url with
  | .error _ => []
  | .ok () =>
    if (store.checkAndClaimAttempt options.url env.policy.breaker env.started s).1.allowed then
      .accepted 0 options.url ::
        (followRedirectsTraced network network.http 0 options.url maxRedirects).1
    else [.accepted 0 options.url]

/-- All that sends webhook requests. -/
inductive WebhookSender (σ : Type u)
  | dispatch (store : WebhookCircuitBreakerStore σ) (env : AttemptEnv)
      (options : WebhookDispatchOptions) (s : σ)
  | dispatchWebhook (isLedgerRolledBack : ℤ → Bool) (opts : SimpleWebhookDispatch)
  | validateEndpoint (url : String)
  | sendWebhook (maxBytes : ℕ) (delivery : WebhookDelivery)

namespace WebhookSender

variable {σ : Type u}

def events : WebhookSender σ → List OutboundEvent
  | dispatch store env options s => dispatchEvents network store env options s
  | dispatchWebhook isLedgerRolledBack opts =>
    (Webhooks.dispatchWebhook network isLedgerRolledBack opts).1
  | validateEndpoint url => (Webhooks.validateEndpoint network url).1
  | sendWebhook maxBytes delivery => (sendWebhookTraced network maxBytes delivery.endpointUrl).1

def url : WebhookSender σ → String
  | dispatch _ _ options _ => options.url
  | dispatchWebhook _ opts => opts.url
  | validateEndpoint url => url
  | sendWebhook _ delivery => delivery.endpointUrl

/-- The senders that check their URL themselves. -/
def checksTarget : WebhookSender σ → Bool
  | dispatch .. | dispatchWebhook .. => true
  | validateEndpoint _ | sendWebhook .. => false

end WebhookSender

/-! ## Vetting -/

/-- Each request goes to a URL that the guard accepted for that hop before. The first list has
the events up to here. -/
def RequestsAccepted (seen : List OutboundEvent) : List OutboundEvent → Prop
  | [] => True
  | .accepted hop url :: rest =>
    network.checkTarget hop url = .ok () ∧ RequestsAccepted (.accepted hop url :: seen) rest
  | .requested hop url :: rest =>
    .accepted hop url ∈ seen ∧ RequestsAccepted (.requested hop url :: seen) rest

def isRequest : OutboundEvent → Bool
  | .requested .. => true
  | .accepted .. => false

/-- The events of a vetted attempt. -/
structure IsVetted (events : List OutboundEvent) : Prop where
  requestsAccepted : RequestsAccepted network [] events
  requests_le : events.countP isRequest ≤ maxRedirects + 1

variable {network} {hop redirectsLeft : ℕ} {seen : List OutboundEvent} {currentUrl : String}

theorem events_followRedirectsTraced (client : HttpClient) (hop : ℕ) (currentUrl : String)
    (redirectsLeft : ℕ) :
    (followRedirectsTraced network client hop currentUrl redirectsLeft).1 =
        client.events hop currentUrl ∨
      ∃ left redirectUrl, redirectsLeft = left + 1 ∧
        network.checkTarget (hop + 1) redirectUrl = .ok () ∧
        (followRedirectsTraced network client hop currentUrl redirectsLeft).1 =
          client.events hop currentUrl ++ .accepted (hop + 1) redirectUrl ::
            (followRedirectsTraced network client (hop + 1) redirectUrl left).1 := by
  rw [followRedirectsTraced]
  cases client.send hop currentUrl with
  | error => exact Or.inl rfl
  | ok response =>
    dsimp only
    split_ifs
    · cases redirectsLeft with
      | zero => exact Or.inl rfl
      | succ left =>
        dsimp only
        cases network.resolveLocation (response.location.getD "") currentUrl with
        | none => exact Or.inl rfl
        | some redirectUrl =>
          dsimp only
          cases hcheck : network.checkTarget (hop + 1) redirectUrl with
          | error => exact Or.inl rfl
          | ok => exact Or.inr ⟨left, redirectUrl, rfl, hcheck, rfl⟩
    · exact Or.inl rfl

variable {client : HttpClient} {rest : List OutboundEvent}

theorem requestsAccepted_events_append {url : String} (haccepted : .accepted hop url ∈ seen)
    (hrest : ∀ seen', seen ⊆ seen' → RequestsAccepted network seen' rest) :
    RequestsAccepted network seen (client.events hop url ++ rest) := by
  rw [HttpClient.events]
  cases client.refuses url with
  | some => exact hrest seen (List.Subset.refl _)
  | none => exact ⟨haccepted, hrest _ (List.subset_cons_self _ _)⟩

theorem requestsAccepted_followRedirectsTraced (haccepted : .accepted hop currentUrl ∈ seen) :
    RequestsAccepted network seen
      (followRedirectsTraced network client hop currentUrl redirectsLeft).1 := by
  induction redirectsLeft generalizing hop currentUrl seen with
  | zero =>
    rcases events_followRedirectsTraced client hop currentUrl 0 with hlast | ⟨_, _, hleft, _⟩
    · rw [hlast, ← List.append_nil (client.events hop currentUrl)]
      exact requestsAccepted_events_append haccepted fun _ _ => trivial
    · cases hleft
  | succ redirectsLeft ih =>
    rcases events_followRedirectsTraced client hop currentUrl (redirectsLeft + 1) with
      hlast | ⟨left, redirectUrl, hleft, hcheck, hevents⟩
    · rw [hlast, ← List.append_nil (client.events hop currentUrl)]
      exact requestsAccepted_events_append haccepted fun _ _ => trivial
    · cases hleft
      rw [hevents]
      exact requestsAccepted_events_append haccepted fun seen' _ =>
        ⟨hcheck, ih List.mem_cons_self⟩

theorem countP_events_le (client : HttpClient) (hop : ℕ) (url : String) :
    (client.events hop url).countP isRequest ≤ 1 := by
  rw [HttpClient.events]
  cases client.refuses url with
  | some => exact Nat.zero_le 1
  | none => exact Nat.le_refl 1

theorem countP_followRedirectsTraced_le (client : HttpClient) (hop : ℕ) (currentUrl : String)
    (redirectsLeft : ℕ) :
    (followRedirectsTraced network client hop currentUrl redirectsLeft).1.countP isRequest ≤
      redirectsLeft + 1 := by
  induction redirectsLeft generalizing hop currentUrl with
  | zero =>
    rcases events_followRedirectsTraced client hop currentUrl 0 with hlast | ⟨_, _, hleft, _⟩
    · rw [hlast]
      exact countP_events_le client hop currentUrl
    · cases hleft
  | succ redirectsLeft ih =>
    have hfirst := countP_events_le client hop currentUrl
    rcases events_followRedirectsTraced client hop currentUrl (redirectsLeft + 1) with
      hlast | ⟨left, redirectUrl, hleft, _, hevents⟩
    · rw [hlast]
      omega
    · cases hleft
      have hrest := ih (hop + 1) redirectUrl
      rw [hevents, List.countP_append, List.countP_cons_of_neg (by simp [isRequest])]
      omega

theorem isVetted_of_accepted {url : String} (hcheck : network.checkTarget 0 url = .ok ()) :
    IsVetted network
      (.accepted 0 url :: (followRedirectsTraced network client 0 url maxRedirects).1) where
  requestsAccepted := ⟨hcheck, requestsAccepted_followRedirectsTraced List.mem_cons_self⟩
  requests_le := by
    rw [List.countP_cons_of_neg (by simp [isRequest])]
    exact countP_followRedirectsTraced_le client 0 url maxRedirects

theorem isVetted_nil : IsVetted network [] := ⟨trivial, Nat.zero_le _⟩

theorem isVetted_singleton {url : String} (hcheck : network.checkTarget 0 url = .ok ()) :
    IsVetted network [.accepted 0 url] := ⟨⟨hcheck, trivial⟩, Nat.zero_le _⟩

theorem not_isVetted_requested {url : String} : ¬ IsVetted network (.requested hop url :: rest) :=
  fun h => absurd h.requestsAccepted.1 List.not_mem_nil

theorem followRedirectsTraced_of_refuses_none (hsends : client.refuses currentUrl = none) :
    ∃ rest, (followRedirectsTraced network client hop currentUrl redirectsLeft).1 =
      .requested hop currentUrl :: rest := by
  have hfirst : client.events hop currentUrl = [.requested hop currentUrl] := by
    rw [HttpClient.events, hsends]
  rcases events_followRedirectsTraced client hop currentUrl redirectsLeft with
    hlast | ⟨_, _, _, _, hevents⟩
  · exact ⟨[], by rw [hlast, hfirst]⟩
  · exact ⟨_, by rw [hevents, hfirst]; rfl⟩

theorem followRedirectsTraced_of_refuses_some {error : SendError}
    (hrefuses : client.refuses currentUrl = some error) :
    (followRedirectsTraced network client hop currentUrl redirectsLeft).1 = [] := by
  rw [followRedirectsTraced, HttpClient.send, HttpClient.events, hrefuses]

theorem fetchFollowing_of_refuses_none (hsends : network.fetch.refuses currentUrl = none) :
    ∃ rest, (fetchFollowing network hop currentUrl redirectsLeft).1 =
      .requested hop currentUrl :: rest := by
  have hfirst : network.fetch.events hop currentUrl = [.requested hop currentUrl] := by
    rw [HttpClient.events, hsends]
  rw [fetchFollowing, hfirst]
  cases network.fetch.send hop currentUrl with
  | error => exact ⟨[], rfl⟩
  | ok response =>
    dsimp only
    cases response.location.filter fun _ => isFetchRedirect response.status with
    | none => exact ⟨[], rfl⟩
    | some location =>
      cases redirectsLeft with
      | zero => exact ⟨[], rfl⟩
      | succ =>
        dsimp only
        cases network.resolveLocation location currentUrl with
        | none => exact ⟨[], rfl⟩
        | some => exact ⟨_, rfl⟩

theorem fetchFollowing_of_refuses_some {error : SendError}
    (hrefuses : network.fetch.refuses currentUrl = some error) :
    (fetchFollowing network hop currentUrl redirectsLeft).1 = [] := by
  rw [fetchFollowing, HttpClient.send, HttpClient.events, hrefuses]

theorem isVetted_iff_of_unchecked {events : List OutboundEvent} {url : String}
    (hsends : client.refuses url = none → ∃ rest, events = .requested 0 url :: rest)
    (hrefuses : ∀ error, client.refuses url = some error → events = []) :
    IsVetted network events ↔ client.refuses url ≠ none := by
  cases hclient : client.refuses url with
  | none =>
    obtain ⟨rest, hevents⟩ := hsends hclient
    rw [hevents]
    exact ⟨fun h => absurd h not_isVetted_requested, fun h => absurd rfl h⟩
  | some error =>
    rw [hrefuses error hclient]
    exact ⟨fun _ => Option.some_ne_none _, fun _ => isVetted_nil⟩

theorem isVetted_dispatchEvents {σ : Type u} (store : WebhookCircuitBreakerStore σ)
    (env : AttemptEnv) (options : WebhookDispatchOptions) (s : σ) :
    IsVetted network (dispatchEvents network store env options s) := by
  rw [dispatchEvents]
  cases hcheck : network.checkTarget 0 options.url with
  | error => exact isVetted_nil
  | ok =>
    dsimp only
    split_ifs
    · exact isVetted_of_accepted hcheck
    · exact isVetted_singleton hcheck

theorem isVetted_dispatchWebhook (isLedgerRolledBack : ℤ → Bool) (opts : SimpleWebhookDispatch) :
    IsVetted network (dispatchWebhook network isLedgerRolledBack opts).1 := by
  rw [dispatchWebhook]
  cases hcheck : network.checkTarget 0 opts.url with
  | error => exact isVetted_nil
  | ok =>
    dsimp only
    split_ifs
    · exact isVetted_singleton hcheck
    · exact isVetted_of_accepted hcheck

theorem isVetted_of_checksTarget {σ : Type u} {sender : WebhookSender σ}
    (h : sender.checksTarget = true) : IsVetted network (sender.events network) := by
  cases sender with
  | dispatch store env options s => exact isVetted_dispatchEvents store env options s
  | dispatchWebhook isLedgerRolledBack opts =>
    exact isVetted_dispatchWebhook isLedgerRolledBack opts
  | validateEndpoint | sendWebhook => cases h

/-- An attempt is vetted exactly when its sender checks the URL itself, or `fetch` sends no
request to it. -/
theorem isVetted_iff_checksTarget {σ : Type u} (network : OutboundNetwork)
    (sender : WebhookSender σ) :
    IsVetted network (sender.events network) ↔
      sender.checksTarget = true ∨ network.fetch.refuses sender.url ≠ none := by
  cases sender with
  | dispatch | dispatchWebhook => exact ⟨fun _ => Or.inl rfl, fun _ => isVetted_of_checksTarget rfl⟩
  | validateEndpoint =>
    refine (isVetted_iff_of_unchecked followRedirectsTraced_of_refuses_none fun _ =>
      followRedirectsTraced_of_refuses_some).trans ?_
    exact (or_iff_right Bool.false_ne_true).symm
  | sendWebhook =>
    refine (isVetted_iff_of_unchecked fetchFollowing_of_refuses_none fun _ =>
      fetchFollowing_of_refuses_some).trans ?_
    exact (or_iff_right Bool.false_ne_true).symm

/-- An endpoint that is accepted and answers with a redirect to the metadata service. -/
def redirectingNetwork : OutboundNetwork where
  guardEnv _ :=
    { parseUrl := fun text =>
        if text = "https://hooks.example.com/in" then some ("https:", "hooks.example.com")
        else some ("http:", "169.254.169.254")
      dnsLookup := fun _ => some "203.0.113.7"
      toLowerCase := fun text => text.map Char.toLower }
  allowlist := none
  http := ⟨fun _ => none, fun _ _ => .ok ⟨200, "OK", none⟩⟩
  fetch :=
    { refuses := fun _ => none
      request := fun hop _ =>
        if hop = 0 then
          .ok ⟨307, "Temporary Redirect", some "http://169.254.169.254/latest/meta-data"⟩
        else .ok ⟨200, "OK", none⟩ }
  answer _ _ := (some "text/plain", none, [])
  resolveLocation location _ := some location

/-- The delivery service follows the redirect to an address that the guard refuses. -/
theorem redirectedDelivery_notVetted :
    let sender : WebhookSender Unit := .sendWebhook 65536
      ⟨"1", "deliv_1", "event_1", "stream.created", "https://hooks.example.com/in", .pending, [],
        0, 0, "payload"⟩
    sender.events redirectingNetwork =
        [.requested 0 "https://hooks.example.com/in",
          .requested 1 "http://169.254.169.254/latest/meta-data"] ∧
      redirectingNetwork.checkTarget 1 "http://169.254.169.254/latest/meta-data" =
        .error (.webhookTargetValidation "Webhook URL must use HTTPS, got: http:") ∧
      ¬ IsVetted redirectingNetwork (sender.events redirectingNetwork) := by
  have hevents : fetchFollowing redirectingNetwork 0 "https://hooks.example.com/in"
      fetchMaxRedirects = ([.requested 0 "https://hooks.example.com/in",
        .requested 1 "http://169.254.169.254/latest/meta-data"],
          .response 200 (some "text/plain") none []) := rfl
  refine ⟨congrArg Prod.fst hevents, by decide +kernel, ?_⟩
  rw [WebhookSender.events, sendWebhookTraced, hevents]
  exact not_isVetted_requested

/-! ## What the guard makes of it -/

theorem checkTarget_of_requested {events : List OutboundEvent}
    (hseen : ∀ hop url, .accepted hop url ∈ seen → network.checkTarget hop url = .ok ())
    (h : RequestsAccepted network seen events) {url : String}
    (hmem : .requested hop url ∈ events) : network.checkTarget hop url = .ok () := by
  induction events generalizing seen with
  | nil => cases hmem
  | cons event _ ih =>
    cases event with
    | accepted =>
      obtain ⟨hcheck, hrest⟩ := h
      rcases List.mem_cons.mp hmem with heq | hlater
      · cases heq
      · refine ih (fun otherHop otherUrl hother => ?_) hrest hlater
        rcases List.mem_cons.mp hother with heq | hold
        · cases heq
          exact hcheck
        · exact hseen otherHop otherUrl hold
    | requested =>
      obtain ⟨haccepted, hrest⟩ := h
      rcases List.mem_cons.mp hmem with heq | hlater
      · cases heq
        exact hseen hop url haccepted
      · refine ih (fun otherHop otherUrl hother => ?_) hrest hlater
        rcases List.mem_cons.mp hother with heq | hold
        · cases heq
        · exact hseen otherHop otherUrl hold

/-- A sender that checks its URL sends requests only to https URLs of allowed hosts with public
addresses, whatever the answers redirect it to. -/
theorem isGuarded_of_requested {σ : Type u} {sender : WebhookSender σ}
    (hchecks : sender.checksTarget = true) {url : String}
    (hmem : .requested hop url ∈ sender.events network) :
    IsGuarded (network.guardEnv hop) network.allowlist url := by
  have hvetted : IsVetted network (sender.events network) := isVetted_of_checksTarget hchecks
  have hcheck := checkTarget_of_requested (fun _ _ hnone => absurd hnone List.not_mem_nil)
    hvetted.requestsAccepted hmem
  apply isGuarded_of_validateWebhookTarget
  rw [OutboundNetwork.checkTarget] at hcheck
  cases haccepted : validateWebhookTarget (network.guardEnv hop) true network.allowlist url with
  | error =>
    rw [haccepted] at hcheck
    cases hcheck
  | ok => rfl

theorem redirectedEndpoint_isGuarded :
    IsGuarded (redirectingNetwork.guardEnv 0) none "https://hooks.example.com/in" :=
  @isGuarded_of_requested redirectingNetwork 0 Unit
    (.dispatchWebhook (fun _ => false) ⟨"https://hooks.example.com/in", none⟩) rfl _
    (by decide +kernel)

end

end Fluxora.Webhooks
