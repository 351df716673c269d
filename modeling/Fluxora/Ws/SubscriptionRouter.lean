/-
# The routing of subscriptions

Whether a client may subscribe is decided from its authenticated subject: for a filter with a
stream, after the stream has been looked up, if the subject is its sender or recipient; for
one with a recipient, if the recipient is the subject. The subscribers of an event are those
of its stream and those of the recipient that it names.
-/

import Fluxora.Lib.Json
import Fluxora.Streams.Repository
import Fluxora.Validation.StellarAddress
import Fluxora.Ws.ConnectionRegistry

namespace Fluxora.Ws

open Lib Lib.JsText Streams Validation

structure StreamUpdateEvent where
  streamId : String
  eventId : String
  payload : Json
  correlationId : Option String := none
  recipientAddress : Option String := none

/-- Why a filter is turned down. -/
structure Rejection where
  code : String
  message : String
  deriving DecidableEq

abbrev SubscriptionAuthorization := Except Rejection SubscriptionFilter

def trimmed (text : String) : String := String.ofList (trim text.toList)

/-! ## Filters -/

def maxFilterFieldLength : ℕ := 256

/-- The checks of a field that is there. -/
def validateFilterField (name value : String) : Except Rejection Unit :=
  if trimmed value = "" then .error ⟨"INVALID_FILTER", name ++ " must be a non-empty string"⟩
  else if maxFilterFieldLength < (codeUnits value.toList).length then
    .error ⟨"OVERSIZED_INPUT", name ++ " is too long"⟩
  else .ok ()

def validateSubscriptionFilter (filter : SubscriptionFilter) : SubscriptionAuthorization :=
  match filter.streamId, filter.recipientAddress with
  | none, none => .error ⟨"EMPTY_INPUT", "Subscription filter must not be empty"⟩
  | some streamId, none => (validateFilterField "streamId" streamId).map fun _ => filter
  | none, some recipientAddress =>
    (validateFilterField "recipientAddress" recipientAddress).map fun _ => filter
  | some streamId, some recipientAddress => do
      validateFilterField "streamId" streamId
      validateFilterField "recipientAddress" recipientAddress
      return filter

def isValidStellarPublicKey (value : String) : Bool := isValidStellarAccountAddress (trimmed value)

def ClientState.authenticatedRecipientSubject (state : ClientState) : Option String :=
  state.authenticatedSubject.filter isValidStellarPublicKey

/-- A stream is open to its sender and its recipient. -/
def authorizeStream (state : ClientState) (filter : SubscriptionFilter)
    (stream : Option StreamRecord) : SubscriptionAuthorization :=
  match stream, state.authenticatedSubject with
  | none, _ => .error ⟨"NOT_FOUND", "Stream not found"⟩
  | some _, none => .error ⟨"FORBIDDEN", "Not authorized for this stream"⟩
  | some stream, some subject =>
    if subject = "" ∨ stream.senderAddress ≠ subject ∧ stream.recipientAddress ≠ subject then
      .error ⟨"FORBIDDEN", "Not authorized for this stream"⟩
    else .ok filter

/-- Without a stream the subject may be named as the recipient, and nobody else. -/
def authorizeRecipient (state : ClientState) (filter : SubscriptionFilter) :
    SubscriptionAuthorization :=
  match filter.recipientAddress, state.authenticatedRecipientSubject with
  | some _, none =>
    .error ⟨"UNAUTHORIZED",
      "recipient_address subscriptions require an authenticated Stellar public key subject"⟩
  | some recipientAddress, some subject =>
    if recipientAddress ≠ subject then
      .error ⟨"FORBIDDEN",
        "recipient_address subscriptions must match the authenticated subject"⟩
    else .ok filter
  | none, none =>
    .error ⟨"UNAUTHORIZED",
      "empty subscription filters require an authenticated Stellar public key subject"⟩
  | none, some subject => .ok ⟨none, some subject, none⟩

/-- `client` is the state of the socket as the call finds it. `stream` is what the lookup of the
stream finds, where there is one. -/
def authorize (client : Option ClientState) (filter : SubscriptionFilter)
    (stream : Option StreamRecord) : SubscriptionAuthorization :=
  match validateSubscriptionFilter filter, client with
  | .error rejection, _ => .error rejection
  | .ok _, none => .error ⟨"UNAUTHORIZED", "WebSocket client is not registered"⟩
  | .ok _, some state =>
    if filter.streamId.isSome then authorizeStream state filter stream
    else authorizeRecipient state filter

/-! ## Subscribing -/

/-- Add a filter that has been authorized, up to a number of filters. -/
def subscribe (maxSubscriptionsPerConnection : ℕ) (r : ConnectionRegistry) (ws : Socket)
    (filter : SubscriptionFilter) : Option Rejection × ConnectionRegistry :=
  match r.clients ws, validateSubscriptionFilter filter with
  | none, _ => (none, r)
  | some _, .error rejection => (some rejection, r)
  | some state, .ok _ =>
    if subscriptionKey filter ∈ state.keys then (none, r)
    else if maxSubscriptionsPerConnection ≤ state.subscriptionFilters.length then
      (some ⟨"SUBSCRIPTION_LIMIT_EXCEEDED",
        s!"Connection is limited to {maxSubscriptionsPerConnection} subscriptions"⟩, r)
    else (none, (r.addSubscription ws filter).2)

def unsubscribe (r : ConnectionRegistry) (ws : Socket) (filter : SubscriptionFilter) :
    ConnectionRegistry :=
  match r.clients ws with
  | none => r
  | some state =>
    if subscriptionKey filter ∈ state.keys then r.removeSubscription ws filter else r

/-! ## Targets -/

/-- The first of some properties that is neither absent nor null. -/
def firstPresent (payload : List (String × Json)) (keys : List String) : Option Json :=
  keys.findSome? fun key =>
    match payload.lookup key with
    | none | some .null => none
    | some value => some value

/-- The recipient in a payload, under one of three spellings. -/
def payloadRecipient : Json → Option String
  | .object payload =>
    match firstPresent payload ["recipient_address", "recipientAddress", "recipient"] with
    | some (.string candidate) => some (trimmed candidate) |>.filter (· ≠ "")
    | _ => none
  | _ => none

/-- The recipient that an event names, itself or in its payload. -/
def extractRecipientAddress (event : StreamUpdateEvent) : Option String :=
  match event.recipientAddress with
  | some recipientAddress =>
    if trimmed recipientAddress ≠ "" then some (trimmed recipientAddress)
    else payloadRecipient event.payload
  | none => payloadRecipient event.payload

/-- The subscribers of an event, by whether they want their events batched. -/
structure FanoutTargets where
  batched : List (Socket × ClientState)
  immediate : List Socket

def FanoutTargets.sockets (targets : FanoutTargets) : List Socket :=
  targets.batched.map Prod.fst ++ targets.immediate

/-- The subscribers of the stream, and after them the others of the recipient. -/
def matchingSubscribers (r : ConnectionRegistry) (event : StreamUpdateEvent) : List Socket :=
  match extractRecipientAddress event with
  | none => r.streamSubscribers event.streamId
  | some recipientAddress =>
    r.streamSubscribers event.streamId ++ (r.recipientSubscribers recipientAddress).filter
      fun ws => ws ∉ r.streamSubscribers event.streamId

/-- One of its filters asks for batches. -/
def ClientState.wantsBatching (state : ClientState) : Bool :=
  state.subscriptionFilters.any fun filter => filter.batchingEnabled = some true

def resolveTargets (r : ConnectionRegistry) (event : StreamUpdateEvent) : FanoutTargets where
  batched := (matchingSubscribers r event).filterMap fun ws =>
    ((r.clients ws).filter fun state => state.wantsBatching).map fun state => (ws, state)
  immediate := (matchingSubscribers r event).filter fun ws =>
    (r.clients ws).any fun state => !state.wantsBatching

/-! ## What they do -/

section

variable {filter granted : SubscriptionFilter} {r : ConnectionRegistry} {ws : Socket}

/-- A stream is between its sender and its recipient. -/
def IsParty (subject : String) (stream : StreamRecord) : Prop :=
  stream.senderAddress = subject ∨ stream.recipientAddress = subject

variable {stream : Option StreamRecord} {state : ClientState}

theorem authorizeStream_ok (h : authorizeStream state filter stream = .ok granted) :
    granted = filter ∧ ∃ subject row, state.authenticatedSubject = some subject ∧
      stream = some row ∧ IsParty subject row := by
  cases stream with
  | none => cases h
  | some row =>
    cases hsubject : state.authenticatedSubject with
    | none => simp [authorizeStream, hsubject] at h
    | some subject =>
      simp only [authorizeStream, hsubject] at h
      split_ifs at h with hdenied
      cases h
      refine ⟨rfl, subject, row, rfl, rfl, ?_⟩
      rw [IsParty]
      tauto

theorem authorizeRecipient_ok (hstream : filter.streamId = none)
    (h : authorizeRecipient state filter = .ok granted) :
    granted.streamId = none ∧ ∃ subject, state.authenticatedSubject = some subject ∧
      granted.recipientAddress = some subject := by
  have hsubject : ∀ subject, state.authenticatedRecipientSubject = some subject →
      state.authenticatedSubject = some subject := fun subject hsome =>
    (Option.filter_eq_some_iff.mp hsome).1
  rw [authorizeRecipient] at h
  split at h
  · cases h
  · next address subject haddress hsome =>
      split_ifs at h with hother
      cases h
      exact ⟨hstream, subject, hsubject subject hsome,
        haddress.trans (congrArg some (not_not.mp hother))⟩
  · cases h
  · next subject _ hsome =>
      cases h
      exact ⟨rfl, subject, hsubject subject hsome, rfl⟩

theorem authorize_ok {client : Option ClientState}
    (h : authorize client filter stream = .ok granted) :
    ∃ state ∈ client, ∃ subject, state.authenticatedSubject = some subject ∧
      ((granted = filter ∧ filter.streamId.isSome ∧ ∃ row ∈ stream, IsParty subject row) ∨
        granted.streamId = none ∧ granted.recipientAddress = some subject) := by
  cases hvalid : validateSubscriptionFilter filter with
  | error => simp [authorize, hvalid] at h
  | ok =>
    cases client with
    | none => simp [authorize, hvalid] at h
    | some state =>
      simp only [authorize, hvalid] at h
      refine ⟨state, rfl, ?_⟩
      split_ifs at h with hstream
      · obtain ⟨heq, subject, row, hsubject, hrow, hparty⟩ := authorizeStream_ok h
        exact ⟨subject, hsubject, Or.inl ⟨heq, hstream, row, hrow, hparty⟩⟩
      · obtain ⟨hnone, subject, hsubject, hrecipient⟩ :=
          authorizeRecipient_ok (Option.not_isSome_iff_eq_none.mp hstream) h
        exact ⟨subject, hsubject, Or.inr ⟨hnone, hrecipient⟩⟩

theorem subscribe_cases (maxSubscriptionsPerConnection : ℕ) (r : ConnectionRegistry) (ws : Socket)
    (filter : SubscriptionFilter) :
    (subscribe maxSubscriptionsPerConnection r ws filter).2 = r ∨
      (subscribe maxSubscriptionsPerConnection r ws filter).2 =
        (r.addSubscription ws filter).2 := by
  rw [subscribe]
  split
  · exact Or.inl rfl
  · exact Or.inl rfl
  · split_ifs
    · exact Or.inl rfl
    · exact Or.inl rfl
    · exact Or.inr rfl

theorem unsubscribe_cases (r : ConnectionRegistry) (ws : Socket) (filter : SubscriptionFilter) :
    unsubscribe r ws filter = r ∨ unsubscribe r ws filter = r.removeSubscription ws filter := by
  rw [unsubscribe]
  split
  · exact Or.inl rfl
  · split_ifs
    · exact Or.inr rfl
    · exact Or.inl rfl

variable {event : StreamUpdateEvent}

theorem mem_matchingSubscribers :
    ws ∈ matchingSubscribers r event ↔ ws ∈ r.streamSubscribers event.streamId ∨
      ∃ address ∈ extractRecipientAddress event, ws ∈ r.recipientSubscribers address := by
  rw [matchingSubscribers]
  cases extractRecipientAddress event with
  | none => simp
  | some =>
    simp only [List.mem_append, List.mem_filter, decide_eq_true_eq, Option.mem_def,
      Option.some.injEq, exists_eq_left']
    tauto

theorem mem_sockets_resolveTargets :
    ws ∈ (resolveTargets r event).sockets ↔
      ws ∈ matchingSubscribers r event ∧ (r.clients ws).isSome := by
  simp only [FanoutTargets.sockets, resolveTargets, List.mem_append, List.mem_map,
    List.mem_filterMap, List.mem_filter]
  apply Iff.intro
  · rintro (⟨⟨own, state⟩, ⟨own', hown', hstate⟩, rfl⟩ | ⟨hmem, hany⟩)
    · obtain ⟨kept, hkept, hpair⟩ := Option.map_eq_some_iff.mp hstate
      cases hpair
      exact ⟨hown', Option.isSome_of_mem (Option.filter_eq_some_iff.mp hkept).1⟩
    · refine ⟨hmem, ?_⟩
      cases hstate : r.clients ws with
      | none => simp [hstate] at hany
      | some => rfl
  · rintro ⟨hmem, hsome⟩
    obtain ⟨state, hstate⟩ := Option.isSome_iff_exists.mp hsome
    by_cases hbatching : state.wantsBatching = true
    · exact Or.inl ⟨(ws, state), ⟨ws, hmem, by simp [hstate, Option.filter, hbatching]⟩, rfl⟩
    · exact Or.inr ⟨hmem, by simpa [hstate] using hbatching⟩

end

end Fluxora.Ws
