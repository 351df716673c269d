/-
# The HTTP routes of the indexer

`POST /contract-events` hands a batch to `ingest`, the two `GET` routes read stored events, by
offset or after a cursor, and `POST /events/replay` starts a replay. Each checks its request first
and answers with an error when a check fails.

`ingest` is written here as one call that nothing else runs into.
-/

import Fluxora.Indexer.SingleChain
import Fluxora.Indexer.EventPaging
import Fluxora.Indexer.Replay
import Fluxora.Streams.CreateInput

namespace Fluxora.Indexer

open Lib Lib.Transition Streams

/-- How a route answers other than with success. -/
inductive RouteError
  | refused (error : ApiError)
  | payloadTooLarge (message : String)
  | invalidBody (message : String) (issues : List Issue)
  | conflict (message : String)
  | failed (error : StoreError)

/-! ## `POST /contract-events` -/

section

variable (parseDate : String → Option ℤ)

/-- Compare the ledgers of a batch with the store, and roll back where they differ. -/
def resolveReorgs (events : List ContractEventRecord) :
    List ℕ → IndexerState → InMemoryContractEventStore →
      IndexerState × InMemoryContractEventStore
  | [], state, store => (state, store)
  | ledger :: remaining, state, store =>
    match store.getLedgerHash ledger with
    | some existingHash =>
      if existingHash ≠ "" ∧ existingHash ≠ incomingHash events ledger then
        resolveReorgs events remaining (state.flagReorg ledger)
          (store.rollbackBeforeLedger ledger)
      else resolveReorgs events remaining state store
    | none => resolveReorgs events remaining state store

def ingest (state : IndexerState) (store : InMemoryContractEventStore) (body : Json)
    (actor : String) (now : ℕ) :
    IndexerState × InMemoryContractEventStore × Except ApiError InsertContractEventsResult :=
  match startIngest parseDate state body actor now with
  | (counted, .error e) => (counted, store, .error e)
  | (counted, .ok events) =>
    let (resolved, kept) := resolveReorgs events (ledgersInBatch events) counted store
    let (stored, result) := kept.insertMany now events
    (resolved.recordInsert events result, stored, .ok result)

def maxIngestBytes : ℕ := 256 * 1024

/-- The `content-length` header, when there is one that is a number. -/
def enforceContentLength (contentLength : Option ℕ) : Except RouteError Unit :=
  match contentLength with
  | some length =>
    if maxIngestBytes < length then
      .error (.payloadTooLarge "Indexer ingest payload exceeds the 256 KiB limit")
    else .ok ()
  | none => .ok ()

/-- The state and the store after the request, and the answer. -/
def postContractEvents (state : IndexerState) (store : InMemoryContractEventStore)
    (contentLength : Option ℕ) (body : Json) (actor : String) (now : ℕ) :
    IndexerState × InMemoryContractEventStore × Except RouteError InsertContractEventsResult :=
  match enforceContentLength contentLength with
  | .error e => (state, store, .error e)
  | .ok () =>
    match ingest parseDate state store body actor now with
    | (state, store, .ok result) => (state, store, .ok result)
    | (state, store, .error e) => (state, store, .error (.refused e))

end

/-! ## The `GET` routes -/

/-- The parameters of a query. The numeric ones are what `Number` makes of their texts. -/
structure EventsQuery where
  fromLedger : Option ℚ := none
  toledger : Option ℚ := none
  contractId : Option String := none
  topic : Option String := none
  limit : Option ℚ := none
  offset : Option ℚ := none
  afterEventId : Option String := none

def parseIntParam (name : String) : Option ℚ → Except RouteError (Option ℕ)
  | none => .ok none
  | some n =>
    if n.den = 1 ∧ 0 ≤ n.num then .ok (some n.num.toNat)
    else .error (.refused (.validation s!"{name} must be a non-negative integer"))

/-- `getEvents` of a store. A page is as long as its request asks for, and starts no later. -/
structure EventReader where
  getEvents : StreamEventReplayFilter → Except StoreError StreamEventReplayResult
  limit_eq : ∀ filter result, getEvents filter = .ok result → result.limit = filter.pageLimit
  offset_le : ∀ filter result, getEvents filter = .ok result →
    result.offset ≤ filter.pageOffset

/-- The in-memory store. -/
def InMemoryContractEventStore.reader (localeCompare : Collation)
    (store : InMemoryContractEventStore) : EventReader where
  getEvents := store.getEvents localeCompare
  limit_eq filter result hread := by
    unfold getEvents at hread
    split at hread
    · split at hread
      · cases hread
        rfl
      · cases hread
    · cases hread
      rfl
  offset_le filter result hread := by
    unfold getEvents at hread
    split at hread
    · split at hread
      · cases hread
        exact Nat.zero_le _
      · cases hread
    · cases hread
      exact Nat.le_refl _

/-- The table. -/
def PostgresContractEventStore.reader (parseDate : String → Option ℤ)
    (store : PostgresContractEventStore) : EventReader where
  getEvents := store.getEvents parseDate
  limit_eq filter result hread := by
    unfold getEvents at hread
    simp only at hread
    split at hread
    · cases hread
    · cases hread
      rfl
  offset_le filter result hread := by
    unfold getEvents at hread
    simp only at hread
    split at hread
    · cases hread
    · cases hread
      exact Nat.le_refl _

/-- The filter of `GET /events/replay`. -/
def EventsQuery.replayFilter (query : EventsQuery) :
    Except RouteError StreamEventReplayFilter := do
  let fromLedger ← parseIntParam "fromLedger" query.fromLedger
  let toledger ← parseIntParam "toledger" query.toledger
  let limit ← parseIntParam "limit" query.limit
  .ok { fromLedger, toledger, contractId := query.contractId, topic := query.topic, limit,
        afterEventId := query.afterEventId.filter (· ≠ "") }

/-- The filter of `GET /events`. -/
def EventsQuery.pageFilter (query : EventsQuery) :
    Except RouteError StreamEventReplayFilter := do
  let fromLedger ← parseIntParam "fromLedger" query.fromLedger
  let toledger ← parseIntParam "toledger" query.toledger
  let limit ← parseIntParam "limit" query.limit
  let offset ← parseIntParam "offset" query.offset
  .ok { fromLedger, toledger, contractId := query.contractId, topic := query.topic, limit,
        offset }

/-- An unknown cursor counts as past the end of the store. -/
def pastTheEnd (filter : StreamEventReplayFilter) : StreamEventReplayResult where
  events := []
  total := 0
  limit := filter.limit.getD 100
  offset := 0
  nextCursor := none

def getEventsReplay (reader : EventReader) (query : EventsQuery) :
    Except RouteError StreamEventReplayResult := do
  let filter ← query.replayFilter
  match reader.getEvents filter with
  | .ok result => .ok result
  | .error (.staleCursor _) => .ok (pastTheEnd filter)
  | .error e => .error (.failed e)

def getEventsPage (reader : EventReader) (query : EventsQuery) :
    Except RouteError StreamEventReplayResult := do
  let filter ← query.pageFilter
  match reader.getEvents filter with
  | .ok result => .ok result
  | .error e => .error (.failed e)

/-! ## `POST /events/replay` -/

/-- The fields first, then the range. -/
def replayRequestSchema : Json → Except (List Issue) ReplayRequest
  | .object entries =>
    let contractId : Except Issue String :=
      match entries.lookup "contract_id" with
      | some (.string text) =>
        if text = "" then
          .error ⟨"contract_id", "contract_id must be a non-empty string"⟩
        else .ok text
      | _ => .error ⟨"contract_id", "contract_id must be a string"⟩
    let ledger : Except Issue ℕ :=
      match entries.lookup "ledger" with
      | some value => nonNegativeIntegerField "ledger" value
      | none => .error ⟨"ledger", "ledger must be a number"⟩
    let fromBlock := optionalField (nonNegativeIntegerField "from_block")
      (entries.lookup "from_block")
    let toBlock := optionalField (nonNegativeIntegerField "to_block")
      (entries.lookup "to_block")
    match contractId, ledger, fromBlock, toBlock with
    | .ok contractId, .ok ledger, .ok fromBlock, .ok toBlock =>
      if fromBlock.any fun first => toBlock.any (· < first) then
        .error [⟨"from_block", "from_block must be less than or equal to to_block"⟩]
      else .ok { contractId, ledger, fromBlock, toBlock }
    | _, _, _, _ =>
      .error (issueOf contractId ++ issueOf ledger ++ issueOf fromBlock ++ issueOf toBlock)
  | body =>
    let received := jsonTypeName body
    .error [⟨"body", s!"Invalid input: expected object, received {received}"⟩]

/-- What a request for a replay finds. A running replay holds the lock of the process. -/
structure ReplayGuards where
  stopRequested : Bool
  /-- The longest block range, with 0 for no bound. -/
  maxRangeBlocks : ℕ
  lockHeld : Bool
  isReplaying : Bool
  lockHeld_of_isReplaying : isReplaying → lockHeld
  /-- Whether the leader election is won. -/
  leads : Bool
  /-- Whether the reindex lock is free, where one is set up. -/
  reindexLock : Option Bool

/-- The block range against the bound. The other checks repeat those of the schema. -/
def validateReplayRequest (request : ReplayRequest) (maxRangeBlocks : ℕ) :
    Except String Unit :=
  if request.contractId = "" then .error "Invalid contract_id"
  else
    match request.fromBlock, request.toBlock with
    | some fromBlock, some toBlock =>
      if toBlock < fromBlock then
        .error "from_block must be less than or equal to to_block"
      else if 0 < maxRangeBlocks ∧ maxRangeBlocks < toBlock - fromBlock then
        let range := toBlock - fromBlock
        .error (s!"Block range {range} exceeds the maximum allowed range of " ++
          s!"{maxRangeBlocks}. Reduce the range or increase " ++
          "INDEXER_MAX_REPLAY_RANGE_BLOCKS.")
      else .ok ()
    | _, _ => .ok ()

/-- The request that `replayEvents` goes on with, past its guards. -/
def admitReplay (guards : ReplayGuards) (request : ReplayRequest) : Option ReplayRequest :=
  if guards.stopRequested then none
  else
    match validateReplayRequest request guards.maxRangeBlocks with
    | .error _ => none
    | .ok () => if guards.lockHeld ∨ guards.leads = false then none else some request

/-- The answer "Replay started", with the replay that was. -/
def postEventsReplay (guards : ReplayGuards) (body : Json) :
    Except RouteError (Option ReplayRequest) :=
  match replayRequestSchema body with
  | .error issues => .error (.invalidBody "Request body validation failed" issues)
  | .ok request =>
    if request.fromBlock.any fun first => request.toBlock.any (· < first) then
      .error (.invalidBody "from_block cannot be greater than to_block" [])
    else if guards.lockHeld ∨ guards.isReplaying then
      .error (.conflict "Replay operation already in progress")
    else if guards.reindexLock = some false then
      .error (.conflict "A reindex operation is already in progress.")
    else .ok (admitReplay guards request)

/-! ## A single call is a run -/

section

variable {parseDate : String → Option ℤ} {ι : Type} [DecidableEq ι]

theorem resolveReorgs_reaches (events : List ContractEventRecord) (ledgers : List ℕ)
    (s : IngestSystem ι) (i : ι) (hphase : s.calls i = .checking events ledgers) :
    ∃ s' : IngestSystem ι, Reaches (ingestStep parseDate) (fun _ _ => True) s s' ∧
      (s'.state, s'.store) = resolveReorgs events ledgers s.state s.store ∧
      s'.calls i = .checking events [] := by
  induction ledgers generalizing s with
  | nil => exact ⟨s, Reaches.refl s, rfl, hphase⟩
  | cons ledger remaining ih =>
    -- what is left of the call, from whatever one check leaves behind
    have hrest : ∀ t : IngestSystem ι,
        Reaches (ingestStep parseDate) (fun _ _ => True) s t →
        t.calls i = .checking events remaining →
        resolveReorgs events remaining t.state t.store =
          resolveReorgs events (ledger :: remaining) s.state s.store →
        ∃ s' : IngestSystem ι, Reaches (ingestStep parseDate) (fun _ _ => True) s s' ∧
          (s'.state, s'.store) =
            resolveReorgs events (ledger :: remaining) s.state s.store ∧
          s'.calls i = .checking events [] := by
      intro t hreach hcalls hsame
      obtain ⟨s', hrun, hresolved, hend⟩ := ih t hcalls
      exact ⟨s', hreach.trans hrun, hresolved.trans hsame, hend⟩
    cases hhash : s.store.getLedgerHash ledger with
    | none =>
      have hcheck : ingestStep parseDate s (.check i) =
          some (s.put i s.store s.state (.checking events remaining)) := by
        simp [ingestStep, hphase, hhash]
      apply hrest _ ((Reaches.refl s).tail trivial hcheck)
      · simp
      · simp [resolveReorgs, hhash, IngestSystem.put]
    | some existingHash =>
      by_cases hfork : existingHash ≠ "" ∧ existingHash ≠ incomingHash events ledger
      · let flagged := s.put i s.store (s.state.flagReorg ledger)
          (.rollingBack events ledger remaining)
        have hcheck : ingestStep parseDate s (.check i) = some flagged := by
          simp [ingestStep, hphase, hhash, hfork, flagged]
        have hrollback : ingestStep parseDate flagged (.rollback i) =
            some (flagged.put i (s.store.rollbackBeforeLedger ledger)
              (s.state.flagReorg ledger) (.checking events remaining)) := by
          simp [ingestStep, IngestSystem.put, flagged]
        apply hrest _ (((Reaches.refl s).tail trivial hcheck).tail trivial hrollback)
        · simp
        · simp [resolveReorgs, hhash, hfork, IngestSystem.put]
      · have hcheck : ingestStep parseDate s (.check i) =
            some (s.put i s.store s.state (.checking events remaining)) := by
          simp [ingestStep, hphase, hhash, hfork]
        apply hrest _ ((Reaches.refl s).tail trivial hcheck)
        · simp
        · simp [resolveReorgs, hhash, hfork, IngestSystem.put]

end

end Fluxora.Indexer
