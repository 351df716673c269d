/-
# Who gets which events

Clients connect with the subject of their token, ask for subscriptions, which are authorized while
anything else may happen, and for replays, which are not. Events are broadcast, pages are read for
the replays, streams are closed and sockets disconnect, in any order.

The sender and the recipient of a stream never change.
-/

import Fluxora.Streams.EventService
import Fluxora.Ws.Replay
import Fluxora.Ws.SubscriptionRouter

namespace Fluxora.Ws

open Lib Lib.Paging Lib.SetIndex Lib.Transition Indexer Streams

/-! ## The hub -/

/-- What a page of a replay can bring at a cursor: the first of the stored events after it that
the request admits. Pages with a row cannot be read from the table. -/
def EventStore.nextDue (store : EventStore) (request : ReplayRequest) (cursor : Option String) :
    List StreamEventRecord :=
  match store with
  | .memory localeCompare store =>
    ((((remaining StoredEvent.key (store.sorted localeCompare) cursor).getD []).filter
      request.filter.admits).take request.pageSize).map StoredEvent.returned
  | .postgres _ _ => []

/-- A filter in the query of the upgrade is subscribed to as in a message. -/
inductive SubscriptionMessage
  | subscribe
  | unsubscribe

/-- A message whose filter is being authorized, with the state of the client as it was found. -/
structure PendingMessage where
  ws : Socket
  message : SubscriptionMessage
  filter : SubscriptionFilter
  client : Option ClientState

structure OpenReplay where
  ws : Socket
  request : ReplayRequest
  cursor : Option String

/-- The hub, with the subject of every socket that was ever connected, and the events that
arrived at a socket. -/
structure StreamHub where
  subjects : Socket → Option (Option String)
  registry : ConnectionRegistry
  pending : List PendingMessage
  replays : List OpenReplay
  delivered : List (Socket × String)

/-- `arrives` says to which sockets an event comes in the end, or which events of a page: not
what is refused by a queue, dropped from a batch or left when the socket closes. -/
inductive HubLabel
  | connect (ws : Socket) (id ip : String) (authenticatedSubject : Option String)
  | message (ws : Socket) (message : SubscriptionMessage) (filter : SubscriptionFilter)
  | authorized (i : ℕ) (stream : Option StreamRecord)
  | lookupFails (i : ℕ)
  | replay (ws : Socket) (request : ReplayRequest)
  | page (i : ℕ) (store : EventStore) (arrives : StreamEventRecord → Bool)
  | replayEnds (i : ℕ)
  | broadcast (event : StreamUpdateEvent) (arrives : Socket → Bool)
  | disconnectByStreamId (streamId : String)
  | disconnect (ws : Socket)

namespace StreamHub

variable (parties : String → Option (String × String)) (streamOf : StreamEventRecord → String)
  (maxSubscriptionsPerConnection : ℕ)

def start : StreamHub := ⟨fun _ => none, ConnectionRegistry.empty, [], [], []⟩

/-- A row of the table has the parties of its stream. -/
def HasParties (streamId : String) (stream : StreamRecord) : Prop :=
  parties streamId = some (stream.senderAddress, stream.recipientAddress)

instance (streamId : String) (stream : StreamRecord) :
    Decidable (HasParties parties streamId stream) :=
  inferInstanceAs (Decidable (_ = _))

def onConnect (s : StreamHub) (ws : Socket) (id ip : String) (subject : Option String) :
    StreamHub :=
  { s with
    subjects := Function.update s.subjects ws (some subject)
    registry := s.registry.register ws (createClientState id ip subject) }

/-- A message goes on when it has been authorized. -/
def afterAuthorize (s : StreamHub) (waiting : PendingMessage) (stream : Option StreamRecord) :
    StreamHub :=
  match authorize waiting.client waiting.filter stream, waiting.message with
  | .error _, _ => s
  | .ok filter, .subscribe =>
    { s with
      registry := (subscribe maxSubscriptionsPerConnection s.registry waiting.ws filter).2 }
  | .ok filter, .unsubscribe =>
    { s with registry := unsubscribe s.registry waiting.ws filter }

def takePage (s : StreamHub) (i : ℕ) (replay : OpenReplay) (store : EventStore)
    (arrives : StreamEventRecord → Bool) : StreamHub :=
  match store.getEvents (replay.request.pageFilter replay.cursor) with
  | .error _ => { s with replays := s.replays.eraseIdx i }
  | .ok result =>
    { s with
      replays := match result.nextCursor with
        | some cursor => s.replays.set i { replay with cursor := some cursor }
        | none => s.replays.eraseIdx i
      delivered := s.delivered ++
        (result.events.filter arrives).map fun event => (replay.ws, streamOf event) }

def dispatch (s : StreamHub) (event : StreamUpdateEvent) (arrives : Socket → Bool) : StreamHub :=
  { s with
    delivered := s.delivered ++
      ((resolveTargets s.registry event).sockets.filter arrives).map fun ws =>
        (ws, event.streamId) }

def onDisconnect (s : StreamHub) (ws : Socket) : StreamHub :=
  { s with registry := (s.registry.removeAllSubscriptions ws).unregister ws }

/-- A socket is connected once. A row that is found is a row of the stream that was looked
up. -/
def step (s : StreamHub) : HubLabel → Option StreamHub
  | .connect ws id ip subject =>
    if s.subjects ws = none then some (s.onConnect ws id ip subject) else none
  | .message ws message filter =>
    some { s with pending := s.pending ++ [⟨ws, message, filter, s.registry.clients ws⟩] }
  | .authorized i stream => do
      let waiting ← s.pending[i]?
      if ∀ streamId ∈ waiting.filter.streamId, ∀ row ∈ stream, HasParties parties streamId row then
        some ({ s with pending := s.pending.eraseIdx i }.afterAuthorize
          maxSubscriptionsPerConnection waiting stream)
      else none
  | .lookupFails i => some { s with pending := s.pending.eraseIdx i }
  | .replay ws request =>
    some { s with replays := s.replays ++ [⟨ws, request, request.afterEventId⟩] }
  | .page i store arrives => do
      let replay ← s.replays[i]?
      some (s.takePage streamOf i replay store arrives)
  | .replayEnds i => some { s with replays := s.replays.eraseIdx i }
  | .broadcast event arrives => some (s.dispatch event arrives)
  | .disconnectByStreamId streamId =>
    some { s with registry := (s.registry.takeStreamSubscribers streamId).2 }
  | .disconnect ws => some (s.onDisconnect ws)

/-! ## Confidentiality -/

/-- A stream is one that a subject is the sender or the recipient of. -/
def PartyOf (streamId subject : String) : Prop :=
  ∃ pair ∈ parties streamId, pair.1 = subject ∨ pair.2 = subject

/-- A stream is one of the authenticated subject of a socket. -/
def Concerns (s : StreamHub) (ws : Socket) (streamId : String) : Prop :=
  ∃ subject, s.subjects ws = some (some subject) ∧ PartyOf parties streamId subject

/-- Every event that arrived is of a stream of the socket's subject. -/
def Confidential (s : StreamHub) : Prop :=
  ∀ own ∈ s.delivered, s.Concerns parties own.1 own.2

/-- The stored events that a page brings to a socket are of its subject's streams, and a
recipient by whom a broadcast gets to a socket is a party of the stream. -/
def Harmless (s : StreamHub) : HubLabel → Prop
  | .page i store arrives =>
    ∀ replay ∈ s.replays[i]?, ∀ event ∈ store.nextDue replay.request replay.cursor,
      arrives event = true → s.Concerns parties replay.ws (streamOf event)
  | .broadcast event arrives =>
    ∀ address ∈ extractRecipientAddress event, ∀ ws ∈ s.registry.recipientSubscribers address,
      (s.registry.clients ws).isSome → arrives ws = true → PartyOf parties event.streamId address
  | .connect .. | .message .. | .authorized .. | .lookupFails .. | .replay .. | .replayEnds ..
  | .disconnectByStreamId .. | .disconnect .. => True

end StreamHub

/-! ## What the registry lets through -/

/-- The registry has the subject of each socket, and who is in the set of a stream or of a
recipient was authorized for it. -/
structure Authorized (parties : String → Option (String × String))
    (subjects : Socket → Option (Option String)) (r : ConnectionRegistry) : Prop where
  clients : ∀ ws, ∀ state ∈ r.clients ws, subjects ws = some state.authenticatedSubject
  streams : ∀ ws streamId, ws ∈ r.streamSubscribers streamId →
    ∃ subject, subjects ws = some (some subject) ∧ StreamHub.PartyOf parties streamId subject
  recipients : ∀ ws address, ws ∈ r.recipientSubscribers address →
    subjects ws = some (some address)

section

variable {parties : String → Option (String × String)}
  {subjects : Socket → Option (Option String)} {r next : ConnectionRegistry} {ws : Socket}

theorem authorized_empty : Authorized parties subjects ConnectionRegistry.empty where
  clients ws state hstate := by cases hstate
  streams ws streamId hmem := by cases hmem
  recipients ws address hmem := by cases hmem

theorem Authorized.shrink (h : Authorized parties subjects r)
    (hclients : ∀ ws, ∀ state ∈ next.clients ws, ∃ before ∈ r.clients ws,
      state.authenticatedSubject = before.authenticatedSubject)
    (hstreams : ∀ ws streamId, ws ∈ next.streamSubscribers streamId →
      ws ∈ r.streamSubscribers streamId)
    (hrecipients : ∀ ws address, ws ∈ next.recipientSubscribers address →
      ws ∈ r.recipientSubscribers address) : Authorized parties subjects next where
  clients ws state hstate := by
    obtain ⟨before, hbefore, heq⟩ := hclients ws state hstate
    rw [heq]
    exact h.clients ws before hbefore
  streams ws streamId hmem := h.streams ws streamId (hstreams ws streamId hmem)
  recipients ws address hmem := h.recipients ws address (hrecipients ws address hmem)

theorem Authorized.removeSubscription (h : Authorized parties subjects r) (ws : Socket)
    (filter : SubscriptionFilter) :
    Authorized parties subjects (r.removeSubscription ws filter) := by
  cases hstate : r.clients ws with
  | none =>
    rw [ConnectionRegistry.removeSubscription, hstate]
    exact h
  | some state =>
    have hremoved : ConnectionRegistry.Removed r ws filter (r.removeSubscription ws filter) :=
      ConnectionRegistry.removed_removeSubscription hstate
    refine h.shrink (fun own after hafter => ?_)
      (fun own streamId hmem => (hremoved.mem_streamSubscribers.mp hmem).1)
      fun own address hmem => (hremoved.mem_recipientSubscribers.mp hmem).1
    rw [hremoved.clients] at hafter
    by_cases hown : own = ws
    · subst hown
      rw [Function.update_self, hstate] at hafter
      cases hafter
      exact ⟨state, hstate, rfl⟩
    · rw [Function.update_of_ne hown] at hafter
      exact ⟨after, hafter, rfl⟩

theorem Authorized.removeAllSubscriptions (h : Authorized parties subjects r) (ws : Socket) :
    Authorized parties subjects (r.removeAllSubscriptions ws) := by
  rw [ConnectionRegistry.removeAllSubscriptions]
  cases r.clients ws with
  | none => exact h
  | some state =>
    dsimp only
    induction state.subscriptionFilters generalizing r with
    | nil => exact h
    | cons filter _ ih => exact ih (h.removeSubscription ws filter)

theorem Authorized.unregister (h : Authorized parties subjects r) (ws : Socket) :
    Authorized parties subjects (r.unregister ws) := by
  refine h.shrink (fun own state hstate => ?_) (fun _ _ hmem => hmem) fun _ _ hmem => hmem
  rw [ConnectionRegistry.unregister, ConnectionRegistry.setClient] at hstate
  dsimp only at hstate
  by_cases hown : own = ws
  · rw [hown, Function.update_self] at hstate
    cases hstate
  · rw [Function.update_of_ne hown] at hstate
    exact ⟨state, hstate, rfl⟩

theorem Authorized.takeStreamSubscribers (h : Authorized parties subjects r) (streamId : String) :
    Authorized parties subjects (r.takeStreamSubscribers streamId).2 := by
  obtain ⟨-, hsets⟩ := takeStreamSubscribers_eq r streamId
  have hrest : (r.takeStreamSubscribers streamId).2.clients = r.clients ∧
      (r.takeStreamSubscribers streamId).2.recipientSubscriptions = r.recipientSubscriptions := by
    rw [ConnectionRegistry.takeStreamSubscribers]
    split
    · exact ⟨rfl, rfl⟩
    · exact ⟨rfl, rfl⟩
  refine h.shrink (fun ws state hstate => ?_) (fun ws own hmem => ?_) fun ws address hmem => ?_
  · rw [hrest.1] at hstate
    exact ⟨state, hstate, rfl⟩
  · rw [hsets] at hmem
    split_ifs at hmem
    · cases hmem
    · exact hmem
  · rw [ConnectionRegistry.recipientSubscribers, hrest.2] at hmem
    exact hmem

theorem Authorized.addSubscription (h : Authorized parties subjects r) {subject : String}
    {filter : SubscriptionFilter} (hsubject : subjects ws = some (some subject))
    (hstream : ∀ streamId ∈ filter.streamId, StreamHub.PartyOf parties streamId subject)
    (hrecipient : filter.streamId = none → ∀ address ∈ filter.recipientAddress,
      address = subject) :
    Authorized parties subjects (r.addSubscription ws filter).2 := by
  cases hstate : r.clients ws with
  | none =>
    rw [ConnectionRegistry.addSubscription, hstate]
    exact h
  | some state =>
    by_cases hknown : subscriptionKey filter ∈ state.keys
    · rw [ConnectionRegistry.addSubscription_of_mem hstate hknown]
      exact h
    have hadded := ConnectionRegistry.added_addSubscription hstate hknown
    constructor
    · intro own after hafter
      rw [hadded.clients] at hafter
      by_cases hown : own = ws
      · subst hown
        rw [Function.update_self, hstate] at hafter
        cases hafter
        exact h.clients own state hstate
      · rw [Function.update_of_ne hown] at hafter
        exact h.clients own after hafter
    · intro own streamId hmem
      rcases hadded.mem_streamSubscribers.mp hmem with hold | ⟨rfl, hnamed⟩
      · exact h.streams own streamId hold
      · exact ⟨subject, hsubject, hstream streamId hnamed⟩
    · intro own address hmem
      rcases hadded.mem_recipientSubscribers.mp hmem with hold | ⟨rfl, hnone, hnamed⟩
      · exact h.recipients own address hold
      · rw [hrecipient hnone address hnamed]
        exact hsubject

theorem Authorized.register (h : Authorized parties subjects r) (hnew : subjects ws = none)
    (id ip : String) (subject : Option String) :
    Authorized parties (Function.update subjects ws (some subject))
      (r.register ws (createClientState id ip subject)) := by
  have hother : ∀ own own', subjects own = some own' → own ≠ ws := by
    rintro own own' hown rfl
    rw [hnew] at hown
    cases hown
  constructor
  · intro own state hstate
    rw [ConnectionRegistry.register, ConnectionRegistry.setClient] at hstate
    dsimp only at hstate
    by_cases hown : own = ws
    · subst hown
      rw [Function.update_self] at hstate ⊢
      cases hstate
      rfl
    · rw [Function.update_of_ne hown] at hstate ⊢
      exact h.clients own state hstate
  · intro own streamId hmem
    obtain ⟨held, hheld, hparty⟩ := h.streams own streamId hmem
    exact ⟨held, (Function.update_of_ne (hother own _ hheld) _ _).trans hheld, hparty⟩
  · intro own address hmem
    have hheld := h.recipients own address hmem
    exact (Function.update_of_ne (hother own _ hheld) _ _).trans hheld

end

/-! ## Runs -/

theorem EventStore.events_eq_nextDue {store : EventStore} {request : ReplayRequest}
    {cursor : Option String} {result : StreamEventReplayResult}
    (h : store.getEvents (request.pageFilter cursor) = .ok result) :
    result.events = store.nextDue request cursor := by
  cases store with
  | postgres parseDate store =>
    have hsame : store.getEvents parseDate (request.pageFilter cursor) = .ok result := h
    obtain ⟨empty, hempty, hevents, -⟩ : ∃ result,
        store.getEvents parseDate (request.pageFilter cursor) = .ok result ∧
          result.events = [] ∧ result.nextCursor = none :=
      PostgresContractEventStore.getEvents_of_page_eq_nil
        (PostgresContractEventStore.page_eq_nil hsame)
    rw [hempty] at hsame
    cases hsame
    exact hevents
  | memory localeCompare store =>
    cases hrest : remaining StoredEvent.key (store.sorted localeCompare) cursor with
    | some =>
      obtain ⟨page, hpage, hevents, -⟩ := getEvents_memory request hrest
      have hsame : store.getEvents localeCompare (request.pageFilter cursor) = .ok result := h
      rw [hpage] at hsame
      cases hsame
      rw [hevents, nextDue, hrest, Option.getD_some]
    | none =>
      cases cursor with
      | none => cases hrest
      | some k =>
        have hafter : after StoredEvent.key k (store.sorted localeCompare) = none := hrest
        have hcursor : (request.pageFilter (some k)).afterEventId = some k := rfl
        have hsame : store.getEvents localeCompare (request.pageFilter (some k)) =
            .ok result := h
        rw [InMemoryContractEventStore.getEvents, hcursor] at hsame
        dsimp only at hsame
        rw [hafter] at hsame
        cases hsame

theorem EventStore.nextDue_of_error {localeCompare : Collation}
    {store : InMemoryContractEventStore} {request : ReplayRequest} {cursor : Option String}
    {error : StoreError}
    (h : store.getEvents localeCompare (request.pageFilter cursor) = .error error) :
    (EventStore.memory localeCompare store).nextDue request cursor = [] := by
  cases hrest : remaining StoredEvent.key (store.sorted localeCompare) cursor with
  | none =>
    simp [nextDue, hrest]
  | some =>
    obtain ⟨page, hpage, -⟩ := getEvents_memory request hrest
    rw [hpage] at h
    cases h

namespace StreamHub

variable {parties : String → Option (String × String)} {streamOf : StreamEventRecord → String}
  {maxSubscriptionsPerConnection : ℕ} {s s' : StreamHub} {label : HubLabel}

/-- The registry is right, and a message that waits has the subject of its socket. -/
structure Sound (parties : String → Option (String × String)) (s : StreamHub) : Prop where
  registry : Authorized parties s.subjects s.registry
  pending : ∀ waiting ∈ s.pending, ∀ state ∈ waiting.client,
    s.subjects waiting.ws = some state.authenticatedSubject

theorem confidential_iff_of_same (hsubjects : s'.subjects = s.subjects)
    (hdelivered : s'.delivered = s.delivered) :
    s'.Confidential parties ↔ s.Confidential parties := by
  rw [Confidential, Confidential, hdelivered]
  simp only [Concerns, hsubjects]

theorem confidential_append_iff {arrived : List (Socket × String)}
    (hdelivered : s'.delivered = s.delivered ++ arrived) (hsubjects : s'.subjects = s.subjects)
    (hbefore : s.Confidential parties) :
    s'.Confidential parties ↔ ∀ own ∈ arrived, s.Concerns parties own.1 own.2 := by
  have hconcerns : ∀ ws streamId, s'.Concerns parties ws streamId ↔
      s.Concerns parties ws streamId := by
    simp only [Concerns, hsubjects, implies_true]
  simp only [Confidential, hdelivered, List.mem_append, hconcerns]
  apply Iff.intro
  · exact fun h own hown => h own (Or.inr hown)
  · rintro h own (hold | hnew)
    · exact hbefore own hold
    · exact h own hnew

theorem Sound.afterAuthorize (h : s.Sound parties) {waiting : PendingMessage}
    {stream : Option StreamRecord}
    (hclient : ∀ state ∈ waiting.client, s.subjects waiting.ws = some state.authenticatedSubject)
    (hstream : ∀ streamId ∈ waiting.filter.streamId, ∀ row ∈ stream,
      HasParties parties streamId row) :
    (s.afterAuthorize maxSubscriptionsPerConnection waiting stream).Sound parties := by
  cases hauthorized : authorize waiting.client waiting.filter stream with
  | error =>
    simp only [StreamHub.afterAuthorize, hauthorized]
    exact h
  | ok filter =>
    obtain ⟨state, hstate, subject, hsubject, hgranted⟩ := authorize_ok hauthorized
    have hown : s.subjects waiting.ws = some (some subject) := by
      rw [← hsubject]
      exact hclient state hstate
    cases hmessage : waiting.message with
    | subscribe =>
      simp only [StreamHub.afterAuthorize, hauthorized, hmessage]
      refine ⟨?_, h.pending⟩
      dsimp only
      rcases subscribe_cases maxSubscriptionsPerConnection s.registry waiting.ws filter with
        hsame | hadded
      · rw [hsame]
        exact h.registry
      · rw [hadded]
        refine h.registry.addSubscription hown (fun streamId hid => ?_)
          fun hnone address ha => ?_
        · rcases hgranted with ⟨rfl, -, row, hrow, hparty⟩ | ⟨hnone, -⟩
          · exact ⟨_, hstream streamId hid row hrow, hparty⟩
          · rw [hnone] at hid
            cases hid
        · rcases hgranted with ⟨rfl, hsome, -⟩ | ⟨-, hrecipient⟩
          · rw [hnone] at hsome
            cases hsome
          · rw [hrecipient] at ha
            exact (Option.some.inj ha).symm
    | unsubscribe =>
      simp only [StreamHub.afterAuthorize, hauthorized, hmessage]
      refine ⟨?_, h.pending⟩
      dsimp only
      rcases unsubscribe_cases s.registry waiting.ws filter with hsame | hremoved
      · rw [hsame]
        exact h.registry
      · rw [hremoved]
        exact h.registry.removeSubscription waiting.ws filter

theorem fields_afterAuthorize (maxSubscriptionsPerConnection : ℕ) (s : StreamHub)
    (waiting : PendingMessage)
    (stream : Option StreamRecord) :
    (s.afterAuthorize maxSubscriptionsPerConnection waiting stream).subjects = s.subjects ∧
      (s.afterAuthorize maxSubscriptionsPerConnection waiting stream).delivered = s.delivered := by
  rw [StreamHub.afterAuthorize]
  split
  · exact ⟨rfl, rfl⟩
  · exact ⟨rfl, rfl⟩
  · exact ⟨rfl, rfl⟩

theorem Sound.onConnect (h : s.Sound parties) {ws : Socket} (hnew : s.subjects ws = none)
    (id ip : String) (subject : Option String) :
    (s.onConnect ws id ip subject).Sound parties where
  registry := h.registry.register hnew id ip subject
  pending waiting hwaiting state hstate := by
    have hold := h.pending waiting hwaiting state hstate
    have hother : waiting.ws ≠ ws := by
      intro heq
      rw [heq, hnew] at hold
      cases hold
    exact (Function.update_of_ne hother _ _).trans hold

theorem Sound.step (h : s.Sound parties)
    (hstep : s.step parties streamOf maxSubscriptionsPerConnection label = some s') :
    s'.Sound parties := by
  have herased : ∀ i, ∀ waiting ∈ s.pending.eraseIdx i, ∀ state ∈ waiting.client,
      s.subjects waiting.ws = some state.authenticatedSubject := fun i waiting hwaiting =>
    h.pending waiting (List.mem_of_mem_eraseIdx hwaiting)
  cases label with
  | connect _ id ip subject =>
    rw [StreamHub.step] at hstep
    split_ifs at hstep with hnew
    cases hstep
    exact h.onConnect hnew id ip subject
  | message ws =>
    cases hstep
    refine ⟨h.registry, fun waiting hwaiting state hstate => ?_⟩
    rcases List.mem_append.mp hwaiting with hold | hlast
    · exact h.pending waiting hold state hstate
    · rw [List.mem_singleton.mp hlast] at hstate ⊢
      exact h.registry.clients ws state hstate
  | authorized i =>
    obtain ⟨waiting, hwaiting, hrest⟩ := Option.bind_eq_some_iff.mp hstep
    split_ifs at hrest with hrow
    cases hrest
    have hsound : ({ s with pending := s.pending.eraseIdx i } : StreamHub).Sound parties :=
      ⟨h.registry, herased i⟩
    exact hsound.afterAuthorize (h.pending waiting (List.mem_of_getElem? hwaiting)) hrow
  | lookupFails i =>
    cases hstep
    exact ⟨h.registry, herased i⟩
  | replay =>
    cases hstep
    exact ⟨h.registry, h.pending⟩
  | page =>
    obtain ⟨replay, -, hrest⟩ := Option.bind_eq_some_iff.mp hstep
    cases hrest
    rw [takePage]
    split
    · exact ⟨h.registry, h.pending⟩
    · exact ⟨h.registry, h.pending⟩
  | replayEnds | broadcast =>
    cases hstep
    exact ⟨h.registry, h.pending⟩
  | disconnectByStreamId streamId =>
    cases hstep
    exact ⟨h.registry.takeStreamSubscribers streamId, h.pending⟩
  | disconnect ws =>
    cases hstep
    exact ⟨(h.registry.removeAllSubscriptions ws).unregister ws, h.pending⟩

theorem confidential_onConnect {ws : Socket} (hnew : s.subjects ws = none) (id ip : String)
    (subject : Option String) (hbefore : s.Confidential parties) :
    (s.onConnect ws id ip subject).Confidential parties := by
  intro own hown
  obtain ⟨held, hheld, hparty⟩ := hbefore own hown
  have hother : own.1 ≠ ws := by
    intro heq
    rw [heq, hnew] at hheld
    cases hheld
  exact ⟨held, (Function.update_of_ne hother _ _).trans hheld, hparty⟩

theorem fields_takePage (s : StreamHub) (i : ℕ) (replay : OpenReplay) (store : EventStore)
    (arrives : StreamEventRecord → Bool) :
    (s.takePage streamOf i replay store arrives).delivered = s.delivered ++
        ((store.nextDue replay.request replay.cursor).filter arrives).map
          (fun event => (replay.ws, streamOf event)) ∧
      (s.takePage streamOf i replay store arrives).subjects = s.subjects := by
  rw [takePage]
  cases hresult : store.getEvents (replay.request.pageFilter replay.cursor) with
  | ok =>
    rw [← EventStore.events_eq_nextDue hresult]
    exact ⟨rfl, rfl⟩
  | error =>
    have hnothing : store.nextDue replay.request replay.cursor = [] := by
      cases store with
      | postgres => rfl
      | memory => exact EventStore.nextDue_of_error hresult
    rw [hnothing]
    exact ⟨(List.append_nil _).symm, rfl⟩

theorem confidential_takePage_iff {i : ℕ} {replay : OpenReplay} (store : EventStore)
    (arrives : StreamEventRecord → Bool) (hreplay : s.replays[i]? = some replay)
    (hbefore : s.Confidential parties) :
    (s.takePage streamOf i replay store arrives).Confidential parties ↔
      s.Harmless parties streamOf (.page i store arrives) := by
  obtain ⟨hdelivered, hsubjects⟩ := fields_takePage s i replay store arrives
  refine (confidential_append_iff hdelivered hsubjects hbefore).trans ?_
  rw [Harmless, hreplay]
  simp only [Option.mem_def, Option.some.injEq, forall_eq', List.mem_map, List.mem_filter]
  apply Iff.intro
  · exact fun h event hevent harrives => h _ ⟨event, ⟨hevent, harrives⟩, rfl⟩
  · rintro h _ ⟨event, ⟨hevent, harrives⟩, rfl⟩
    exact h event hevent harrives

theorem confidential_dispatch_iff (h : s.Sound parties) (event : StreamUpdateEvent)
    (arrives : Socket → Bool) (hbefore : s.Confidential parties) :
    (s.dispatch event arrives).Confidential parties ↔
      s.Harmless parties streamOf (.broadcast event arrives) := by
  have hdelivered : (s.dispatch event arrives).delivered = s.delivered ++ _ := rfl
  refine (confidential_append_iff hdelivered rfl hbefore).trans ?_
  simp only [List.mem_map, List.mem_filter, mem_sockets_resolveTargets, mem_matchingSubscribers]
  apply Iff.intro
  · intro hconcerns address haddress ws hmem hclient harrives
    obtain ⟨subject, hsubject, hparty⟩ :=
      hconcerns _ ⟨ws, ⟨⟨Or.inr ⟨address, haddress, hmem⟩, hclient⟩, harrives⟩, rfl⟩
    have hsame : s.subjects ws = some (some subject) := hsubject
    rw [h.registry.recipients ws address hmem] at hsame
    cases hsame
    exact hparty
  · rintro hnamed _ ⟨ws, ⟨⟨hmem | ⟨address, haddress, hmem⟩, hclient⟩, harrives⟩, rfl⟩
    · exact h.registry.streams ws event.streamId hmem
    · exact ⟨address, h.registry.recipients ws address hmem,
        hnamed address haddress ws hmem hclient harrives⟩

theorem confidential_step_iff (h : s.Sound parties) (hbefore : s.Confidential parties)
    (hstep : s.step parties streamOf maxSubscriptionsPerConnection label = some s') :
    s'.Confidential parties ↔ s.Harmless parties streamOf label := by
  cases label with
  | connect _ id ip subject =>
    rw [StreamHub.step] at hstep
    split_ifs at hstep with hnew
    cases hstep
    exact iff_of_true (confidential_onConnect hnew id ip subject hbefore) trivial
  | message =>
    cases hstep
    exact iff_of_true hbefore trivial
  | authorized i stream =>
    obtain ⟨waiting, hwaiting, hrest⟩ := Option.bind_eq_some_iff.mp hstep
    split_ifs at hrest with hrow
    cases hrest
    obtain ⟨hsubjects, hdelivered⟩ := fields_afterAuthorize maxSubscriptionsPerConnection
      { s with pending := s.pending.eraseIdx i } waiting stream
    exact iff_of_true ((confidential_iff_of_same hsubjects hdelivered).mpr hbefore) trivial
  | lookupFails | replay =>
    cases hstep
    exact iff_of_true hbefore trivial
  | page _ store arrives =>
    obtain ⟨replay, hreplay, hrest⟩ := Option.bind_eq_some_iff.mp hstep
    cases hrest
    exact confidential_takePage_iff store arrives hreplay hbefore
  | replayEnds =>
    cases hstep
    exact iff_of_true hbefore trivial
  | broadcast event arrives =>
    cases hstep
    exact confidential_dispatch_iff h event arrives hbefore
  | disconnectByStreamId | disconnect =>
    cases hstep
    exact iff_of_true hbefore trivial

/-- In a run every event that has arrived is of a stream of its socket's subject exactly as long
as every step is harmless. -/
theorem confidential_runs (parties : String → Option (String × String))
    (streamOf : StreamEventRecord → String) (maxSubscriptionsPerConnection : ℕ)
    (labels : List HubLabel) :
    EveryStep (StreamHub.step parties streamOf maxSubscriptionsPerConnection)
        (fun _ _ s' => s'.Confidential parties) start labels ↔
      EveryStep (StreamHub.step parties streamOf maxSubscriptionsPerConnection)
        (fun s label _ => s.Harmless parties streamOf label) start labels := by
  refine everyStep_iff_of_step (fun s => s.Sound parties)
    (fun s label s' hsound hbefore hstep => ?_)
    ⟨authorized_empty, fun waiting hwaiting => absurd hwaiting List.not_mem_nil⟩
    fun own hown => absurd hown List.not_mem_nil
  exact ⟨confidential_step_iff hsound hbefore hstep, hsound.step hstep⟩

/-- Lookups may end in any order, and whoever is in a set was authorized for it. -/
theorem subscribers_authorized (parties : String → Option (String × String))
    (streamOf : StreamEventRecord → String) (maxSubscriptionsPerConnection : ℕ)
    (labels : List HubLabel) :
    EveryStep (StreamHub.step parties streamOf maxSubscriptionsPerConnection)
      (fun _ _ s' => Authorized parties s'.subjects s'.registry) start labels := by
  refine everyStep_of_invariant (Sound parties) (fun s label s' hsound hstep => ?_) labels
    ⟨authorized_empty, fun waiting hwaiting => absurd hwaiting List.not_mem_nil⟩
  have h := hsound.step hstep
  exact ⟨h.registry, h⟩

/-- One stream, between two subjects. -/
def oneStream (streamId : String) : Option (String × String) :=
  if streamId = "t-0" then some ("G1", "G2") else none

def streamOfEvent (event : StreamEventRecord) : String :=
  deriveStreamId event.txHash event.eventIndex

/-- A third subject connects and asks for a replay of everything. -/
def strangerAsks : List HubLabel :=
  [.connect 1 "c-1" "10.0.0.1" (some "G3"), .replay 1 ReplayRun.everything]

/-- Whoever asks for a replay gets the events of all streams. -/
theorem strangerReplay_not_confidential :
    ¬ ∀ parties streamOf maxSubscriptionsPerConnection labels,
      EveryStep (StreamHub.step parties streamOf maxSubscriptionsPerConnection)
        (fun _ _ s' => s'.Confidential parties) start labels := by
  intro h
  have hevery := h oneStream streamOfEvent 100
    (strangerAsks ++ [.page 0 (.memory codePointCollation oneEventStore) fun _ => true])
  obtain ⟨_, hlast⟩ := EveryStep.last rfl hevery
  obtain ⟨subject, hsubject, pair, hpair, hparty⟩ := hlast (1, "t-0") (List.mem_singleton_self _)
  cases hsubject
  cases hpair
  revert hparty
  decide

end StreamHub

end Fluxora.Ws
