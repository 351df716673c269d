/-
# The gRPC gateway

The gateway offers three of the HTTP routes as remote calls: a batch of events to ingest, a page
of stored events, and a replay. Each handler turns its message into what the shared service takes.
A number that is not set arrives as 0 and a text as the empty text, and every number is a 32-bit
one.

Each message has a request that says the same over HTTP, and the two must have the same effect or
the same answer. They do only in part.
-/

import Fluxora.Lib.IsoInstant
import Fluxora.Lib.JsonStringify
import Fluxora.Indexer.HttpRoutes

namespace Fluxora.Indexer

open Lib Streams Lib.IsoInstant Lib.JsonStringify

/-! ## Messages -/

structure GrpcContractEvent where
  eventId : String
  ledger : Int32
  contractId : String
  topic : String
  txHash : String
  txIndex : Int32
  operationIndex : Int32
  eventIndex : Int32
  payloadJson : String
  happenedAt : String
  ledgerHash : String

structure GetEventsRequest where
  fromLedger : Int32
  toLedger : Int32
  contractId : String
  topic : String
  limit : Int32
  offset : Int32
  afterEventId : String

structure GrpcStreamEventRecord where
  eventId : String
  ledger : Int32
  contractId : String
  topic : String
  txHash : String
  payloadJson : String
  happenedAt : String
  ledgerHash : String

structure GetEventsResponse where
  events : List GrpcStreamEventRecord
  total : Int32
  limit : Int32
  offset : Int32
  nextCursor : String

structure GrpcReplayRequest where
  contractId : String
  ledger : Int32
  fromBlock : Int32
  toBlock : Int32

/-- A number that is set. -/
def ifSet (n : Int32) : Option Int32 := if n.toInt = 0 then none else some n

/-- A text that is set. -/
def ifNonEmpty (text : String) : Option String := if text = "" then none else some text

/-- A number as a JSON value. -/
def numberOf (n : Int32) : ℚ := n.toInt

/-! ## `IngestContractEvents` -/

def GrpcContractEvent.withPayload (event : GrpcContractEvent) (payload : Json) : Json :=
  .object
    [("eventId", .string event.eventId),
     ("ledger", .number (numberOf event.ledger)),
     ("contractId", .string event.contractId),
     ("topic", .string event.topic),
     ("txHash", .string event.txHash),
     ("txIndex", .number (numberOf event.txIndex)),
     ("operationIndex", .number (numberOf event.operationIndex)),
     ("eventIndex", .number (numberOf event.eventIndex)),
     ("payload", payload),
     ("happenedAt", .string event.happenedAt),
     ("ledgerHash", .string event.ledgerHash)]

section

-- `Date.parse` and `JSON.parse`, with `none` for NaN and for an exception
variable (parseDate : String → Option ℤ) (parseJson : String → Option Json)

/-- The event as the service takes it. What is no JSON becomes the empty object. -/
def GrpcContractEvent.domainEvent (event : GrpcContractEvent) : Json :=
  event.withPayload ((parseJson event.payloadJson).getD (.object []))

/-- The body that the gateway hands to the service. -/
def domainBody (events : List GrpcContractEvent) : Json :=
  .object [("events", .array (events.map (·.domainEvent parseJson)))]

def handleIngestContractEvents (state : IndexerState) (store : InMemoryContractEventStore)
    (events : List GrpcContractEvent) (peer : String) (now : ℕ) :
    IndexerState × InMemoryContractEventStore × Except ApiError InsertContractEventsResult :=
  ingest parseDate state store (domainBody parseJson events) peer now

/-- The body that says the same over HTTP. There is none when a payload is no JSON. -/
def correspondingBody (events : List GrpcContractEvent) : Option Json := do
  let items ← events.mapM fun event => (parseJson event.payloadJson).map event.withPayload
  some (.object [("events", .array items)])

/-- The gateway accepts the batches that the route accepts, and stores the same events.
A batch that no body corresponds to is to be refused. -/
def IngestAgrees (state : IndexerState) (store : InMemoryContractEventStore)
    (contentLength : Option ℕ) (events : List GrpcContractEvent) (actor : String)
    (now : ℕ) : Prop :=
  let overGrpc := handleIngestContractEvents parseDate parseJson state store events actor now
  match correspondingBody parseJson events with
  | some body =>
    let overHttp := postContractEvents parseDate state store contentLength body actor now
    overGrpc.2.2.isOk = overHttp.2.2.isOk ∧ overGrpc.2.1 = overHttp.2.1
  | none => overGrpc.2.2.isOk = false ∧ overGrpc.2.1 = store

end

/-! ## `GetEvents` -/

/-- What the gateway asks the store for. A number below zero counts as not set. -/
def positive (n : Int32) : Option ℕ := if 0 < n.toInt then some n.toInt.toNat else none

def GetEventsRequest.filter (request : GetEventsRequest) : StreamEventReplayFilter where
  fromLedger := positive request.fromLedger
  toledger := positive request.toLedger
  contractId := ifNonEmpty request.contractId
  topic := ifNonEmpty request.topic
  limit := positive request.limit
  offset := positive request.offset
  afterEventId := ifNonEmpty request.afterEventId

/-- The properties of a stored event, as the store returns it. -/
def StreamEventRecord.properties (event : StreamEventRecord) : List (String × Json) :=
  [("eventId", .string event.eventId), ("ledger", .number event.ledger)] ++
    (event.ledgerHash.map fun hash => ("ledgerHash", Json.string hash)).toList ++
    [("contractId", .string event.contractId), ("topic", .string event.topic),
     ("txHash", .string event.txHash), ("txIndex", .number event.txIndex),
     ("operationIndex", .number event.operationIndex),
     ("eventIndex", .number event.eventIndex), ("payload", .object event.payload),
     ("happenedAt", .string (toISOString event.happenedAt)),
     ("ingestedAt", .string (toISOString event.ingestedAt))]

/-- A text property, with the empty text when there is none. -/
def textOf (properties : List (String × Json)) (key : String) : String :=
  match properties.lookup key with
  | some (.string text) => text
  | _ => ""

def integerOf (properties : List (String × Json)) (key : String) : ℤ :=
  match properties.lookup key with
  | some (.number n) => n.num
  | _ => 0

/-- The message for a stored event. Three properties are read under names of columns. -/
def toGrpcRecord (event : StreamEventRecord) : GrpcStreamEventRecord where
  eventId := textOf event.properties "eventId"
  ledger := Int32.ofInt (integerOf event.properties "ledger")
  contractId := textOf event.properties "contractId"
  topic := textOf event.properties "topic"
  txHash := textOf event.properties "tx_hash"
  payloadJson := String.ofList
    (stringify ((event.properties.lookup "payload").getD (.object [])))
  happenedAt := textOf event.properties "happened_at"
  ledgerHash := textOf event.properties "ledger_hash"

def handleGetEvents (reader : EventReader) (request : GetEventsRequest) :
    Except StoreError GetEventsResponse :=
  match reader.getEvents request.filter with
  | .error e => .error e
  | .ok result => .ok
      { events := result.events.map toGrpcRecord
        total := Int32.ofNat result.total
        limit := Int32.ofNat result.limit
        offset := Int32.ofNat result.offset
        nextCursor := result.nextCursor.getD "" }

/-- The query that says the same over HTTP. -/
def GetEventsRequest.query (request : GetEventsRequest) : EventsQuery where
  fromLedger := (ifSet request.fromLedger).map numberOf
  toledger := (ifSet request.toLedger).map numberOf
  contractId := ifNonEmpty request.contractId
  topic := ifNonEmpty request.topic
  limit := (ifSet request.limit).map numberOf
  offset := (ifSet request.offset).map numberOf
  afterEventId := ifNonEmpty request.afterEventId

/-- No route takes both a cursor and an offset. -/
def GetEventsRequest.Expressible (request : GetEventsRequest) : Prop :=
  request.afterEventId = "" ∨ request.offset.toInt = 0

/-- The route for a query: the one with a cursor when it has one. -/
def getEventsOverHttp (reader : EventReader) (query : EventsQuery) :
    Except RouteError StreamEventReplayResult :=
  if query.afterEventId.isSome then getEventsReplay reader query
  else getEventsPage reader query

/-- A message has the values of an event in all its fields. -/
structure GrpcStreamEventRecord.Shows (message : GrpcStreamEventRecord)
    (event : StreamEventRecord) : Prop where
  eventId : message.eventId = event.eventId
  ledger : message.ledger.toInt = event.ledger
  contractId : message.contractId = event.contractId
  topic : message.topic = event.topic
  txHash : message.txHash = event.txHash
  payloadJson : message.payloadJson.toList = stringify (.object event.payload)
  happenedAt : message.happenedAt = toISOString event.happenedAt
  ledgerHash : message.ledgerHash = event.ledgerHash.getD ""

structure GetEventsResponse.Shows (response : GetEventsResponse)
    (result : StreamEventReplayResult) : Prop where
  events : List.Forall₂ GrpcStreamEventRecord.Shows response.events result.events
  total : response.total.toInt = result.total
  limit : response.limit.toInt = result.limit
  offset : response.offset.toInt = result.offset
  nextCursor : response.nextCursor = result.nextCursor.getD ""

/-- The gateway answers with the page that the route answers with, or both fail. -/
def GetEventsAgrees (reader : EventReader) (request : GetEventsRequest) : Prop :=
  match handleGetEvents reader request, getEventsOverHttp reader request.query with
  | .ok response, .ok result => response.Shows result
  | .error _, .error _ => True
  | _, _ => False

/-! ## `ReplayEvents` -/

/-- The body of a replay request, with the blocks it has. -/
def replayBody (contractId : String) (ledger : Int32) (fromBlock toBlock : Option Int32) :
    Json :=
  .object ([("contract_id", .string contractId), ("ledger", .number (numberOf ledger))] ++
    (fromBlock.map fun block => ("from_block", Json.number (numberOf block))).toList ++
    (toBlock.map fun block => ("to_block", Json.number (numberOf block))).toList)

/-- The answer "Replay started", with the replay that was. -/
def handleReplayEvents (guards : ReplayGuards) (request : GrpcReplayRequest) :
    Except (List Issue) (Option ReplayRequest) :=
  match replayRequestSchema (replayBody request.contractId request.ledger
      (some request.fromBlock) (some request.toBlock)) with
  | .error issues => .error issues
  | .ok parsed => .ok (admitReplay guards parsed)

/-- The body that says the same over HTTP. -/
def GrpcReplayRequest.body (request : GrpcReplayRequest) : Json :=
  replayBody request.contractId request.ledger (ifSet request.fromBlock) (ifSet request.toBlock)

/-- The replay that a request has started. -/
def started {ε : Type} (answer : Except ε (Option ReplayRequest)) : Option ReplayRequest :=
  match answer with
  | .ok replay => replay
  | .error _ => none

/-- The gateway starts the replay that the route starts. -/
def ReplayAgrees (guards : ReplayGuards) (request : GrpcReplayRequest) : Prop :=
  started (handleReplayEvents guards request) = started (postEventsReplay guards request.body)

/-! ## When a batch is ingested alike -/

section

variable {parseDate : String → Option ℤ} {parseJson : String → Option Json}

theorem correspondingBody_eq_some_iff (events : List GrpcContractEvent) (body : Json) :
    correspondingBody parseJson events = some body ↔
      (∀ event ∈ events, (parseJson event.payloadJson).isSome) ∧
        domainBody parseJson events = body := by
  have hitems : ∀ (events : List GrpcContractEvent) (items : List Json),
      events.mapM (fun event => (parseJson event.payloadJson).map event.withPayload) =
          some items ↔
        (∀ event ∈ events, (parseJson event.payloadJson).isSome) ∧
          events.map (·.domainEvent parseJson) = items := by
    intro events
    induction events with
    | nil => simp
    | cons event _ ih =>
      intro items
      cases hparse : parseJson event.payloadJson with
      | none => simp [List.mapM_cons, hparse]
      | some =>
        simp [List.mapM_cons, hparse, ih, GrpcContractEvent.domainEvent,
          Option.bind_eq_some_iff, and_assoc]
  simp [correspondingBody, Option.bind_eq_some_iff, hitems, domainBody, and_assoc]

theorem ingest_isOk (state : IndexerState) (store : InMemoryContractEventStore) (body : Json)
    (actor : String) (now : ℕ) :
    (ingest parseDate state store body actor now).2.2.isOk =
      (startIngest parseDate state body actor now).2.isOk := by
  unfold ingest
  split
  · next hstart => simp [hstart, Except.isOk, Except.toBool]
  · next hstart => simp [hstart, Except.isOk, Except.toBool]

theorem ingest_store_of_refused {state : IndexerState} {store : InMemoryContractEventStore}
    {body : Json} {actor : String} {now : ℕ}
    (hrefused : (startIngest parseDate state body actor now).2.isOk = false) :
    (ingest parseDate state store body actor now).2.1 = store := by
  unfold ingest
  split
  · rfl
  · next hstart =>
      rw [hstart] at hrefused
      cases hrefused

theorem enforceContentLength_eq (contentLength : Option ℕ) :
    (enforceContentLength contentLength).isOk = contentLength.all (· ≤ maxIngestBytes) := by
  cases contentLength with
  | none => rfl
  | some length =>
    by_cases hlong : maxIngestBytes < length
    · simp [enforceContentLength, hlong, Except.isOk, Except.toBool]
    · simp [enforceContentLength, hlong, Except.isOk, Except.toBool, Nat.le_of_not_lt hlong]

variable (parseDate) in
theorem postContractEvents_of_allowed (state : IndexerState)
    (store : InMemoryContractEventStore) {contentLength : Option ℕ} (body : Json)
    (actor : String) (now : ℕ) (hlength : contentLength.all (· ≤ maxIngestBytes)) :
    (postContractEvents parseDate state store contentLength body actor now).2.2.isOk =
        (ingest parseDate state store body actor now).2.2.isOk ∧
      (postContractEvents parseDate state store contentLength body actor now).2.1 =
        (ingest parseDate state store body actor now).2.1 := by
  rw [← enforceContentLength_eq] at hlength
  unfold postContractEvents
  cases henforce : enforceContentLength contentLength with
  | error =>
    rw [henforce] at hlength
    cases hlength
  | ok =>
    simp only
    split
    · next hingest => simp [hingest, Except.isOk, Except.toBool]
    · next hingest => simp [hingest, Except.isOk, Except.toBool]

variable (parseDate) in
theorem postContractEvents_of_too_long (state : IndexerState)
    (store : InMemoryContractEventStore) {contentLength : Option ℕ} (body : Json)
    (actor : String) (now : ℕ) (hlength : contentLength.all (· ≤ maxIngestBytes) = false) :
    (postContractEvents parseDate state store contentLength body actor now).2.2.isOk = false ∧
      (postContractEvents parseDate state store contentLength body actor now).2.1 = store := by
  rw [← enforceContentLength_eq] at hlength
  unfold postContractEvents
  cases henforce : enforceContentLength contentLength with
  | error => exact ⟨rfl, rfl⟩
  | ok =>
    rw [henforce] at hlength
    cases hlength

variable (parseDate parseJson) in
/-- The service would refuse the batch with an empty object for each payload that is no
JSON. -/
def RefusedAnyway (state : IndexerState) (events : List GrpcContractEvent) (actor : String)
    (now : ℕ) : Prop :=
  (startIngest parseDate state (domainBody parseJson events) actor now).2.isOk = false

theorem ingestAgrees_iff (state : IndexerState) (store : InMemoryContractEventStore)
    (contentLength : Option ℕ) (events : List GrpcContractEvent) (actor : String) (now : ℕ) :
    IngestAgrees parseDate parseJson state store contentLength events actor now ↔
      ((∀ event ∈ events, (parseJson event.payloadJson).isSome) ∧
          contentLength.all (· ≤ maxIngestBytes)) ∨
        RefusedAnyway parseDate parseJson state events actor now := by
  have haccepted := @ingest_isOk parseDate state store
    (domainBody parseJson events) actor now
  unfold IngestAgrees RefusedAnyway handleIngestContractEvents
  cases hbody : correspondingBody parseJson events with
  | none =>
    have hbroken : ¬∀ event ∈ events, (parseJson event.payloadJson).isSome := by
      intro hall
      have hsome := (correspondingBody_eq_some_iff events _).mpr ⟨hall, rfl⟩
      rw [hbody] at hsome
      cases hsome
    simp only [haccepted, hbroken, false_and, false_or]
    exact ⟨And.left, fun hrefused => ⟨hrefused, ingest_store_of_refused hrefused⟩⟩
  | some body =>
    obtain ⟨hall, hsame⟩ := (correspondingBody_eq_some_iff events body).mp hbody
    subst hsame
    cases hlength : contentLength.all (· ≤ maxIngestBytes) with
    | true =>
      obtain ⟨hok, hstore⟩ := postContractEvents_of_allowed parseDate state store
        (domainBody parseJson events) actor now hlength
      exact ⟨fun _ => Or.inl ⟨hall, rfl⟩, fun _ => ⟨hok.symm, hstore.symm⟩⟩
    | false =>
      obtain ⟨hok, hstore⟩ := postContractEvents_of_too_long parseDate state store
        (domainBody parseJson events) actor now hlength
      simp only [hok, hstore, haccepted, Bool.false_eq_true, and_false, false_or]
      exact ⟨And.left, fun hrefused => ⟨hrefused, ingest_store_of_refused hrefused⟩⟩

end

/-! ## When a page is answered alike -/

section

theorem parseIntParam_ifSet (name : String) (n : Int32) :
    parseIntParam name ((ifSet n).map numberOf) =
      if n.toInt < 0 then
        .error (.refused (.validation s!"{name} must be a non-negative integer"))
      else .ok (positive n) := by
  by_cases hzero : n.toInt = 0
  · simp [ifSet, parseIntParam, positive, hzero]
  · by_cases hneg : n.toInt < 0
    · have hnot : ¬0 ≤ n.toInt := by omega
      simp [ifSet, parseIntParam, numberOf, hzero, hneg, hnot]
    · have hpos : 0 < n.toInt := by omega
      simp [ifSet, parseIntParam, numberOf, positive, hzero, hneg, hpos, hpos.le]

/-- One of the numbers is below zero. -/
def GetEventsRequest.Negative (request : GetEventsRequest) : Prop :=
  request.fromLedger.toInt < 0 ∨ request.toLedger.toInt < 0 ∨ request.limit.toInt < 0 ∨
    request.offset.toInt < 0

variable {request : GetEventsRequest}

theorem pageFilter_query (hcursor : request.afterEventId = "") :
    (request.Negative → ∃ e, request.query.pageFilter = .error e) ∧
      (¬request.Negative → request.query.pageFilter = .ok request.filter) := by
  simp only [EventsQuery.pageFilter, GetEventsRequest.query, GetEventsRequest.filter,
    GetEventsRequest.Negative, parseIntParam_ifSet, bind, Except.bind, hcursor, ifNonEmpty]
  split_ifs <;> simp [*]

theorem replayFilter_query (hoffset : request.offset.toInt = 0) :
    (request.Negative → ∃ e, request.query.replayFilter = .error e) ∧
      (¬request.Negative → request.query.replayFilter = .ok request.filter) := by
  have hcursor : (ifNonEmpty request.afterEventId).filter (· ≠ "") =
      ifNonEmpty request.afterEventId := by
    by_cases hempty : request.afterEventId = ""
    · simp [ifNonEmpty, hempty]
    · simp [ifNonEmpty, hempty]
  simp only [EventsQuery.replayFilter, GetEventsRequest.query, GetEventsRequest.filter,
    GetEventsRequest.Negative, parseIntParam_ifSet, bind, Except.bind, hcursor]
  split_ifs <;> simp [*, positive]

theorem getEventsOverHttp_page (reader : EventReader) (hcursor : request.afterEventId = "") :
    getEventsOverHttp reader request.query = getEventsPage reader request.query := by
  simp [getEventsOverHttp, GetEventsRequest.query, ifNonEmpty, hcursor]

theorem getEventsOverHttp_replay (reader : EventReader)
    (hcursor : request.afterEventId ≠ "") :
    getEventsOverHttp reader request.query = getEventsReplay reader request.query := by
  simp [getEventsOverHttp, GetEventsRequest.query, ifNonEmpty, hcursor]

theorem getEventsOverHttp_of_negative (reader : EventReader) (hone : request.Expressible)
    (hnegative : request.Negative) :
    ∃ e, getEventsOverHttp reader request.query = .error e := by
  by_cases hcursor : request.afterEventId = ""
  · obtain ⟨e, hfilter⟩ := (pageFilter_query hcursor).1 hnegative
    rw [getEventsOverHttp_page reader hcursor, getEventsPage, hfilter]
    exact ⟨e, rfl⟩
  · obtain ⟨e, hfilter⟩ := (replayFilter_query (hone.resolve_left hcursor)).1 hnegative
    rw [getEventsOverHttp_replay reader hcursor, getEventsReplay, hfilter]
    exact ⟨e, rfl⟩

theorem getEventsOverHttp_of_not_negative (reader : EventReader) (hone : request.Expressible)
    (hnot : ¬request.Negative) :
    getEventsOverHttp reader request.query =
      match reader.getEvents request.filter with
      | .ok result => .ok result
      | .error (.staleCursor cursor) =>
        if request.afterEventId = "" then .error (.failed (.staleCursor cursor))
        else .ok (pastTheEnd request.filter)
      | .error e => .error (.failed e) := by
  by_cases hcursor : request.afterEventId = ""
  · have hfilter := (pageFilter_query hcursor).2 hnot
    rw [getEventsOverHttp_page reader hcursor, getEventsPage, hfilter]
    simp only [hcursor, if_true]
    cases hread : reader.getEvents request.filter with
    | ok => simp [hread, bind, Except.bind]
    | error e =>
      cases e with
      | staleCursor | rowMapping => simp [hread, bind, Except.bind]
  · have hfilter := (replayFilter_query (hone.resolve_left hcursor)).2 hnot
    rw [getEventsOverHttp_replay reader hcursor, getEventsReplay, hfilter]
    simp only [hcursor, if_false]
    rfl

/-! The values of an event that a message does not have are its three misread ones. -/

theorem toGrpcRecord_eq (event : StreamEventRecord) :
    toGrpcRecord event =
      { eventId := event.eventId
        ledger := Int32.ofNat event.ledger
        contractId := event.contractId
        topic := event.topic
        txHash := ""
        payloadJson := String.ofList (stringify (.object event.payload))
        happenedAt := ""
        ledgerHash := "" } := by
  cases hhash : event.ledgerHash with
  | none | some =>
    simp [toGrpcRecord, StreamEventRecord.properties, hhash, textOf, integerOf,
      List.lookup_cons, Int32.ofInt_eq_ofNat]

theorem not_shows_toGrpcRecord (event : StreamEventRecord) :
    ¬(toGrpcRecord event).Shows event := by
  intro hshows
  have htime := hshows.happenedAt
  rw [toGrpcRecord_eq] at htime
  exact toISOString_ne_empty event.happenedAt htime.symm

theorem shows_events_iff (events : List StreamEventRecord) :
    List.Forall₂ GrpcStreamEventRecord.Shows (events.map toGrpcRecord) events ↔
      events = [] := by
  cases events with
  | nil => simp
  | cons event =>
    simp only [List.map_cons, List.forall₂_cons, reduceCtorEq, iff_false, not_and]
    exact fun hshows => absurd hshows (not_shows_toGrpcRecord event)

theorem toInt_ofNat_eq_iff (n : ℕ) : (Int32.ofNat n).toInt = n ↔ n < 2 ^ 31 := by
  apply Iff.intro
  · intro hsame
    have hbound := (Int32.ofNat n).toInt_lt
    omega
  · intro hsmall
    exact Int32.toInt_ofNat_of_lt hsmall

theorem positive_le (n : Int32) : (positive n).getD 0 < 2 ^ 31 := by
  have hbound := n.toInt_lt
  unfold positive
  split
  · simp only [Option.getD_some]
    omega
  · decide

/-- What the route answers with and the gateway alike: no event at all, and a count of 32
bits. -/
def GetEventsRequest.AnsweredAlike (request : GetEventsRequest) (reader : EventReader) : Prop :=
  (request.Negative → ∃ e, reader.getEvents request.filter = .error e) ∧
    (¬request.Negative →
      match reader.getEvents request.filter with
      | .ok result => result.events = [] ∧ result.total < 2 ^ 31
      | .error (.staleCursor _) => request.afterEventId = ""
      | .error (.rowMapping _) => True)

theorem getEventsAgrees_iff (reader : EventReader) (hone : request.Expressible) :
    GetEventsAgrees reader request ↔ request.AnsweredAlike reader := by
  by_cases hnegative : request.Negative
  · obtain ⟨e, hhttp⟩ := getEventsOverHttp_of_negative reader hone hnegative
    simp only [GetEventsAgrees, hhttp, handleGetEvents, GetEventsRequest.AnsweredAlike, hnegative,
      true_imp_iff, not_true, false_imp_iff, and_true]
    cases reader.getEvents request.filter with
    | ok | error => simp
  · simp only [GetEventsAgrees, getEventsOverHttp_of_not_negative reader hone hnegative,
      handleGetEvents, GetEventsRequest.AnsweredAlike, hnegative, false_imp_iff, not_false_iff,
      true_imp_iff, true_and]
    cases hread : reader.getEvents request.filter with
    | error e =>
      cases e with
      | rowMapping => simp
      | staleCursor =>
        by_cases hcursor : request.afterEventId = ""
        · simp [hcursor]
        · simp [hcursor]
    | ok result =>
      have hlimit : result.limit < 2 ^ 31 := by
        rw [reader.limit_eq _ _ hread, StreamEventReplayFilter.pageLimit]
        omega
      have hoffset : result.offset < 2 ^ 31 :=
        lt_of_le_of_lt (reader.offset_le _ _ hread) (positive_le request.offset)
      apply Iff.intro
      · intro hshows
        exact ⟨(shows_events_iff _).mp hshows.events, (toInt_ofNat_eq_iff _).mp hshows.total⟩
      · rintro ⟨hnone, htotal⟩
        exact ⟨(shows_events_iff _).mpr hnone, (toInt_ofNat_eq_iff _).mpr htotal,
          (toInt_ofNat_eq_iff _).mpr hlimit, (toInt_ofNat_eq_iff _).mpr hoffset, rfl⟩

end

/-! ## When a replay is started alike -/

section

theorem nonNegativeIntegerField_numberOf (field : String) (n : Int32) :
    nonNegativeIntegerField field (.number (numberOf n)) =
      if n.toInt < 0 then .error ⟨field, s!"{field} must be non-negative"⟩
      else .ok n.toInt.toNat := by
  have hlower := n.le_toInt
  have hupper := n.toInt_lt
  have hsafe : ¬maxSafeTime < |n.toInt| := by
    rw [not_lt, abs_le, maxSafeTime]
    omega
  simp [nonNegativeIntegerField, numberOf, hsafe]

theorem optionalField_numberOf_eq_ok (field : String) (block : Option Int32) (n : Option ℕ) :
    optionalField (nonNegativeIntegerField field)
        (block.map fun block => Json.number (numberOf block)) = .ok n ↔
      (∀ b ∈ block, 0 ≤ b.toInt) ∧ n = block.map (·.toInt.toNat) := by
  cases block with
  | none => simp [optionalField, eq_comm]
  | some b =>
    by_cases hneg : b.toInt < 0
    · have hnot : ¬0 ≤ b.toInt := by omega
      simp [optionalField, nonNegativeIntegerField_numberOf, hneg, hnot, Except.map]
    · have hnonneg : 0 ≤ b.toInt := by omega
      simp [optionalField, nonNegativeIntegerField_numberOf, hneg, hnonneg, Except.map, eq_comm]

theorem replayRequestSchema_replayBody (contractId : String) (ledger : Int32)
    (fromBlock toBlock : Option Int32) (request : ReplayRequest) :
    replayRequestSchema (replayBody contractId ledger fromBlock toBlock) = .ok request ↔
      contractId ≠ "" ∧ 0 ≤ ledger.toInt ∧ (∀ first ∈ fromBlock, 0 ≤ first.toInt) ∧
        (∀ last ∈ toBlock, 0 ≤ last.toInt) ∧
        (∀ first ∈ fromBlock, ∀ last ∈ toBlock, first.toInt ≤ last.toInt) ∧
        request = ⟨contractId, ledger.toInt.toNat, fromBlock.map (·.toInt.toNat),
          toBlock.map (·.toInt.toNat)⟩ := by
  have hfrom := optionalField_numberOf_eq_ok "from_block" fromBlock
  have hto := optionalField_numberOf_eq_ok "to_block" toBlock
  have hlookups : ∀ entries, replayBody contractId ledger fromBlock toBlock = .object entries →
      entries.lookup "contract_id" = some (.string contractId) ∧
      entries.lookup "ledger" = some (.number (numberOf ledger)) ∧
      entries.lookup "from_block" = fromBlock.map (fun block => .number (numberOf block)) ∧
      entries.lookup "to_block" = toBlock.map (fun block => .number (numberOf block)) := by
    intro entries hentries
    cases hentries
    cases fromBlock <;> cases toBlock <;> simp [List.lookup_cons]
  obtain ⟨hcontract, hledger, hfromField, htoField⟩ := hlookups _ rfl
  rw [replayBody, replayRequestSchema, hcontract, hledger, hfromField, htoField]
  simp only [nonNegativeIntegerField_numberOf]
  generalize optionalField (nonNegativeIntegerField "from_block")
    (fromBlock.map fun block => Json.number (numberOf block)) = parsedFrom at hfrom ⊢
  generalize optionalField (nonNegativeIntegerField "to_block")
    (toBlock.map fun block => Json.number (numberOf block)) = parsedTo at hto ⊢
  by_cases hempty : contractId = ""
  · simp [hempty]
  by_cases hnegative : ledger.toInt < 0
  · simp [hempty, hnegative, not_le.mpr hnegative]
  cases parsedFrom with
  | error =>
    have hbelow : ¬∀ b ∈ fromBlock, 0 ≤ b.toInt := fun hall => by
      cases (hfrom _).mpr ⟨hall, rfl⟩
    simp only [hempty, hnegative, if_false, reduceCtorEq, false_iff]
    exact fun haccepted => hbelow haccepted.2.2.1
  | ok first =>
    obtain ⟨hfirst, rfl⟩ := (hfrom first).mp rfl
    cases parsedTo with
    | error =>
      have hbelow : ¬∀ b ∈ toBlock, 0 ≤ b.toInt := fun hall => by
        cases (hto _).mpr ⟨hall, rfl⟩
      simp only [hempty, hnegative, if_false, reduceCtorEq, false_iff]
      exact fun haccepted => hbelow haccepted.2.2.2.1
    | ok last =>
      obtain ⟨hlast, rfl⟩ := (hto last).mp rfl
      -- the range of two blocks that are both set
      have hrange : ((fromBlock.map (·.toInt.toNat)).any fun first =>
            (toBlock.map (·.toInt.toNat)).any (· < first)) = false ↔
          ∀ first ∈ fromBlock, ∀ last ∈ toBlock, first.toInt ≤ last.toInt := by
        cases fromBlock with
        | none => simp
        | some first =>
          cases toBlock with
          | none => simp
          | some last =>
            have hfirst := hfirst first rfl
            have hlast := hlast last rfl
            simp only [Option.map_some, Option.any_some, decide_eq_false_iff_not,
              Option.mem_def, Option.some.injEq, forall_eq']
            omega
      by_cases hfits : ∀ first ∈ fromBlock, ∀ last ∈ toBlock, first.toInt ≤ last.toInt
      · simp only [hempty, hnegative, if_false, hrange.mpr hfits, Bool.false_eq_true]
        apply Iff.intro
        · intro hrequest
          cases hrequest
          exact ⟨hempty, not_lt.mp hnegative, hfirst, hlast, hfits, rfl⟩
        · rintro ⟨-, -, -, -, -, rfl⟩
          rfl
      · have hbad := Bool.eq_true_of_not_eq_false (mt hrange.mp hfits)
        simp only [hempty, hnegative, if_false, hbad, if_true, reduceCtorEq, false_iff]
        exact fun haccepted => hfits haccepted.2.2.2.2.1

/-- Nothing stands in the way of a replay in this process. -/
def ReplayGuards.Ready (guards : ReplayGuards) : Prop :=
  guards.stopRequested = false ∧ guards.lockHeld = false ∧ guards.leads = true

theorem validateReplayRequest_eq_ok (request : ReplayRequest) (maxRangeBlocks : ℕ) :
    validateReplayRequest request maxRangeBlocks = .ok () ↔
      request.contractId ≠ "" ∧
        ∀ first ∈ request.fromBlock, ∀ last ∈ request.toBlock,
          first ≤ last ∧ (0 < maxRangeBlocks → last - first ≤ maxRangeBlocks) := by
  unfold validateReplayRequest
  by_cases hempty : request.contractId = ""
  · simp [hempty]
  · cases request.fromBlock with
    | none => simp [hempty]
    | some =>
      cases request.toBlock with
      | none => simp [hempty]
      | some =>
        simp only [hempty, if_false, Option.mem_def, Option.some.injEq, forall_eq', ne_eq,
          not_false_eq_true, true_and]
        split_ifs with horder hlong
        · simp only [false_iff]
          omega
        · simp only [false_iff]
          omega
        · simp only [true_iff]
          omega

theorem admitReplay_eq_some (guards : ReplayGuards) (request replay : ReplayRequest) :
    admitReplay guards request = some replay ↔
      guards.Ready ∧ validateReplayRequest request guards.maxRangeBlocks = .ok () ∧
        replay = request := by
  unfold admitReplay ReplayGuards.Ready
  cases guards.stopRequested with
  | true => simp
  | false =>
    cases validateReplayRequest request guards.maxRangeBlocks with
    | error => simp
    | ok => cases guards.lockHeld <;> cases guards.leads <;> simp [eq_comm]

/-- The fields of a request pass the schema one by one. -/
def GrpcReplayRequest.WellFormed (request : GrpcReplayRequest) : Prop :=
  request.contractId ≠ "" ∧ 0 ≤ request.ledger.toInt ∧ 0 ≤ request.fromBlock.toInt ∧
    0 ≤ request.toBlock.toInt

def GrpcReplayRequest.BothSet (request : GrpcReplayRequest) : Prop :=
  request.fromBlock.toInt ≠ 0 ∧ request.toBlock.toInt ≠ 0

/-- The range from block to block, with 0 for an unset one, is none that is refused. -/
def GrpcReplayRequest.WithinRange (request : GrpcReplayRequest) (maxRangeBlocks : ℕ) : Prop :=
  request.fromBlock.toInt ≤ request.toBlock.toInt ∧
    (0 < maxRangeBlocks → request.toBlock.toInt - request.fromBlock.toInt ≤ maxRangeBlocks)

theorem started_handleReplayEvents (guards : ReplayGuards) (request : GrpcReplayRequest)
    (replay : ReplayRequest) :
    started (handleReplayEvents guards request) = some replay ↔
      guards.Ready ∧ request.WellFormed ∧ request.WithinRange guards.maxRangeBlocks ∧
        replay = ⟨request.contractId, request.ledger.toInt.toNat,
          some request.fromBlock.toInt.toNat, some request.toBlock.toInt.toNat⟩ := by
  have hschema := replayRequestSchema_replayBody request.contractId request.ledger
    (some request.fromBlock) (some request.toBlock)
  unfold handleReplayEvents
  cases hparsed : replayRequestSchema (replayBody request.contractId request.ledger
      (some request.fromBlock) (some request.toBlock)) with
  | error =>
    simp only [started, reduceCtorEq, false_iff]
    rintro ⟨-, ⟨hcontract, hledger, hfrom, hto⟩, ⟨horder, -⟩, -⟩
    have haccepted := (hschema _).mpr ⟨hcontract, hledger, by simpa using hfrom,
      by simpa using hto, by simpa using horder, rfl⟩
    rw [hparsed] at haccepted
    cases haccepted
  | ok parsed =>
    obtain ⟨hcontract, hledger, hfrom, hto, horder, rfl⟩ := (hschema parsed).mp hparsed
    have hfrom := hfrom _ rfl
    have hto := hto _ rfl
    have horder := horder _ rfl _ rfl
    simp only [started, admitReplay_eq_some, validateReplayRequest_eq_ok,
      GrpcReplayRequest.WellFormed, GrpcReplayRequest.WithinRange, Option.map_some,
      Option.mem_def, Option.some.injEq, forall_eq']
    apply Iff.intro
    · rintro ⟨hready, ⟨-, hrange⟩, rfl⟩
      exact ⟨hready, ⟨hcontract, hledger, hfrom, hto⟩, ⟨horder, by omega⟩, rfl⟩
    · rintro ⟨hready, -, hrange, rfl⟩
      exact ⟨hready, ⟨hcontract, by omega⟩, rfl⟩

theorem started_of_parsed {guards : ReplayGuards} {body : Json} {request replay : ReplayRequest}
    (hparsed : replayRequestSchema body = .ok request) :
    started (postEventsReplay guards body) = some replay ↔
      guards.reindexLock ≠ some false ∧ admitReplay guards request = some replay := by
  unfold postEventsReplay
  rw [hparsed, admitReplay_eq_some, validateReplayRequest_eq_ok]
  simp only
  split_ifs with horder hrunning hlocked
  · simp only [started, reduceCtorEq, false_iff]
    rintro ⟨-, -, ⟨-, hrange⟩, -⟩
    cases hfrom : request.fromBlock with
    | none => simp [hfrom] at horder
    | some first =>
      cases hto : request.toBlock with
      | none => simp [hfrom, hto] at horder
      | some last =>
        simp only [hfrom, hto, Option.any_some, decide_eq_true_eq] at horder
        exact absurd (hrange first hfrom last hto).1 (not_le.mpr horder)
  · simp only [started, reduceCtorEq, false_iff]
    rintro ⟨-, ⟨-, hfree, -⟩, -⟩
    have hheld : guards.lockHeld := hrunning.elim id guards.lockHeld_of_isReplaying
    rw [hfree] at hheld
    cases hheld
  · simp [started, hlocked]
  · simp [started, hlocked, admitReplay_eq_some, validateReplayRequest_eq_ok]

theorem started_postEventsReplay (guards : ReplayGuards) (request : GrpcReplayRequest)
    (replay : ReplayRequest) :
    started (postEventsReplay guards request.body) = some replay ↔
      guards.Ready ∧ request.WellFormed ∧ guards.reindexLock ≠ some false ∧
        (request.BothSet → request.WithinRange guards.maxRangeBlocks) ∧
        replay = ⟨request.contractId, request.ledger.toInt.toNat,
          (ifSet request.fromBlock).map (·.toInt.toNat),
          (ifSet request.toBlock).map (·.toInt.toNat)⟩ := by
  have hset : ∀ n block : Int32, block ∈ ifSet n ↔ n.toInt ≠ 0 ∧ block = n := by
    intro n block
    unfold ifSet
    split_ifs with hzero
    · simp [hzero]
    · simp [hzero, eq_comm]
  have hschema := replayRequestSchema_replayBody request.contractId request.ledger
    (ifSet request.fromBlock) (ifSet request.toBlock)
  simp only [hset, and_imp, forall_eq_apply_imp_iff] at hschema
  cases hparsed : replayRequestSchema request.body with
  | error =>
    have hnone : started (postEventsReplay guards request.body) = none := by
      simp [postEventsReplay, hparsed, started]
    rw [hnone]
    simp only [reduceCtorEq, false_iff]
    rintro ⟨-, ⟨hcontract, hledger, hfrom, hto⟩, -, hrange, -⟩
    have haccepted := (hschema _).mpr ⟨hcontract, hledger, fun _ => hfrom, fun _ => hto,
      fun hfrom hto => (hrange ⟨hfrom, hto⟩).1, rfl⟩
    rw [GrpcReplayRequest.body, haccepted] at hparsed
    cases hparsed
  | ok parsed =>
    obtain ⟨hcontract, hledger, hfrom, hto, horder, hfields⟩ := (hschema parsed).mp hparsed
    rw [started_of_parsed hparsed, admitReplay_eq_some, validateReplayRequest_eq_ok]
    subst hfields
    simp only [Option.mem_map, hset, GrpcReplayRequest.WellFormed, GrpcReplayRequest.BothSet,
      GrpcReplayRequest.WithinRange]
    apply Iff.intro
    · rintro ⟨hlock, hready, ⟨-, hrange⟩, rfl⟩
      refine ⟨hready, ⟨hcontract, hledger, by omega, by omega⟩, hlock, ?_, rfl⟩
      rintro ⟨hfromSet, htoSet⟩
      have hlong := (hrange _ ⟨_, ⟨hfromSet, rfl⟩, rfl⟩ _ ⟨_, ⟨htoSet, rfl⟩, rfl⟩).2
      exact ⟨horder hfromSet htoSet, by omega⟩
    · rintro ⟨hready, -, hlock, hrange, rfl⟩
      refine ⟨hlock, hready, ⟨hcontract, ?_⟩, rfl⟩
      rintro _ ⟨_, ⟨hfromSet, rfl⟩, rfl⟩ _ ⟨_, ⟨htoSet, rfl⟩, rfl⟩
      have hrange := hrange ⟨hfromSet, htoSet⟩
      omega

/-- Both start a replay when both blocks are set and the reindex lock is free. Neither
starts one when the range is refused, or, with a block that is not set, when both the range
of the gateway and the reindex lock stand in the way. -/
def GrpcReplayRequest.StartedAlike (request : GrpcReplayRequest) (guards : ReplayGuards) :
    Prop :=
  guards.Ready → request.WellFormed →
    request.BothSet ∧
        (request.WithinRange guards.maxRangeBlocks → guards.reindexLock ≠ some false) ∨
      ¬request.BothSet ∧ ¬request.WithinRange guards.maxRangeBlocks ∧
        guards.reindexLock = some false

theorem replayAgrees_iff (guards : ReplayGuards) (request : GrpcReplayRequest) :
    ReplayAgrees guards request ↔ request.StartedAlike guards := by
  unfold ReplayAgrees GrpcReplayRequest.StartedAlike
  rw [Option.ext_iff]
  simp only [started_handleReplayEvents, started_postEventsReplay]
  by_cases hready : guards.Ready
  · by_cases hformed : request.WellFormed
    · by_cases hboth : request.BothSet
      · obtain ⟨hfrom, hto⟩ := hboth
        simp [hready, hformed, GrpcReplayRequest.BothSet, hfrom, hto, ifSet]
      · have hblocks : (⟨request.contractId, request.ledger.toInt.toNat,
            some request.fromBlock.toInt.toNat, some request.toBlock.toInt.toNat⟩ :
              ReplayRequest) ≠
            ⟨request.contractId, request.ledger.toInt.toNat,
              (ifSet request.fromBlock).map (·.toInt.toNat),
              (ifSet request.toBlock).map (·.toInt.toNat)⟩ := by
          intro hsame
          apply hboth
          injection hsame with _ _ hfrom hto
          apply And.intro
          · intro hzero
            simp [ifSet, hzero] at hfrom
          · intro hzero
            simp [ifSet, hzero] at hto
        apply Iff.intro
        · intro hsame _ _
          refine Or.inr ⟨hboth, fun hrange => ?_, ?_⟩
          · obtain ⟨-, -, -, -, hequal⟩ :=
              (hsame ⟨_, _, some _, some _⟩).mp ⟨hready, hformed, hrange, rfl⟩
            exact hblocks hequal
          · by_contra hlock
            obtain ⟨-, -, -, hequal⟩ := (hsame ⟨_, _, Option.map _ _, Option.map _ _⟩).mpr
              ⟨hready, hformed, hlock, fun hset => absurd hset hboth, rfl⟩
            exact hblocks hequal.symm
        · intro halike replay
          obtain ⟨hset, -⟩ | ⟨-, hrange, hlock⟩ := halike hready hformed
          · exact absurd hset hboth
          · simp [hrange, hlock]
    · simp [hformed]
  · simp [hready]

end

/-! ## The gateway and the routes -/

def sampleGrpcEvent (payloadJson : String) : GrpcContractEvent where
  eventId := "a"
  ledger := 7
  contractId := "C"
  topic := "stream.created"
  txHash := "t"
  txIndex := 0
  operationIndex := 0
  eventIndex := 0
  payloadJson
  happenedAt := "1970-01-01T00:00:00.000Z"
  ledgerHash := "aa"

/-- `JSON.parse` on the two texts the examples use. -/
def parseEmptyObject (text : String) : Option Json :=
  if text = "\x7b\x7d" then some (.object []) else none

/-- The request without a filter. -/
def anyEvents : GetEventsRequest := ⟨0, 0, "", "", 0, 0, ""⟩

def idleGuards : ReplayGuards where
  stopRequested := false
  maxRangeBlocks := 0
  lockHeld := false
  isReplaying := false
  lockHeld_of_isReplaying h := h
  leads := true
  reindexLock := none

end Fluxora.Indexer
