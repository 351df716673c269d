/-
# Ingesting contract events

`ingest` takes a batch of contract events from the chain worker. The body is checked first: an
object with one to a hundred events, every field of every event of the right kind, no event id
twice. Then, for each ledger of the batch, the hash that the store has for it is compared with the
hash of the batch; a difference is a reorg, and everything stored at or above that ledger is
rolled back.

The comparison, the rollback and the insert each wait for the store, so other calls may run in
between. The second half of the module is the transition system of any number of calls over one
store, a step for each of them.
-/

import Fluxora.Lib.Fallible
import Fluxora.Lib.JsText
import Fluxora.Lib.Transition
import Fluxora.Indexer.EventStore

namespace Fluxora.Indexer

open Lib Lib.Fallible Lib.JsText Lib.Transition

def maxEventsPerBatch : ℕ := 100
def maxEventIdLength : ℕ := 128
def maxTopicLength : ℕ := 128
def maxContractIdLength : ℕ := 128
def maxTxHashLength : ℕ := 128
def maxRateLimitRequests : ℕ := 30
def rateLimitWindowMs : ℕ := 60000

/-- How a call is refused. -/
inductive ApiError
  | validation (message : String)
  | conflict (message : String) (eventId : String)
  | tooManyRequests (message : String) (retryAfterSeconds : ℕ)
  | serviceUnavailable (message : String)
  deriving DecidableEq

/-! ## Validation -/

/-- A property that must be a non-empty string after trimming, within a length. -/
def assertNonEmptyString (field : String) (maxLength : ℕ) :
    Option Json → Except ApiError String
  | some (.string text) =>
    if trim text.toList = [] then
      .error (.validation s!"{field} must be a non-empty string")
    else if maxLength < (codeUnits (trim text.toList)).length then
      .error (.validation s!"{field} must not exceed {maxLength} characters")
    else .ok (String.ofList (trim text.toList))
  | _ => .error (.validation s!"{field} must be a non-empty string")

def assertNonNegativeInteger (field : String) : Option Json → Except ApiError ℕ
  | some (.number q) =>
    if q.den = 1 ∧ 0 ≤ q.num then .ok q.num.toNat
    else .error (.validation s!"{field} must be a non-negative integer")
  | _ => .error (.validation s!"{field} must be a non-negative integer")

section

-- `Date.parse`, with `none` for NaN
variable (parseDate : String → Option ℤ)

def assertIsoTimestamp (field : String) (value : Option Json) : Except ApiError ℤ := do
  let timestamp ← assertNonEmptyString field 256 value
  match parseDate timestamp with
  | some instant => .ok instant
  | none => .error (.validation s!"{field} must be a valid ISO-8601 timestamp")

def validateEvent : Json → Except ApiError ContractEventRecord
  | .object rawEvent =>
    match rawEvent.lookup "payload" with
    | some (.object payload) => do
        let eventId ← assertNonEmptyString "eventId" maxEventIdLength
          (rawEvent.lookup "eventId")
        let ledger ← assertNonNegativeInteger "ledger" (rawEvent.lookup "ledger")
        let contractId ← assertNonEmptyString "contractId" maxContractIdLength
          (rawEvent.lookup "contractId")
        let topic ← assertNonEmptyString "topic" maxTopicLength (rawEvent.lookup "topic")
        let txHash ← assertNonEmptyString "txHash" maxTxHashLength (rawEvent.lookup "txHash")
        let txIndex ← assertNonNegativeInteger "txIndex" (rawEvent.lookup "txIndex")
        let operationIndex ← assertNonNegativeInteger "operationIndex"
          (rawEvent.lookup "operationIndex")
        let eventIndex ← assertNonNegativeInteger "eventIndex" (rawEvent.lookup "eventIndex")
        let happenedAt ← assertIsoTimestamp parseDate "happenedAt"
          (rawEvent.lookup "happenedAt")
        let ledgerHash ← assertNonEmptyString "ledgerHash" maxTxHashLength
          (rawEvent.lookup "ledgerHash")
        .ok { eventId, ledger, contractId, topic, txHash, txIndex, operationIndex,
              eventIndex, payload, happenedAt, ledgerHash }
    | _ => .error (.validation "payload must be a JSON object")
  | _ => .error (.validation "each event must be an object")

/-- The first event id that an earlier event of the batch has. -/
def repeatedEventId (seenIds : List String) : List ContractEventRecord → Option String
  | [] => none
  | event :: rest =>
    if event.eventId ∈ seenIds then some event.eventId
    else repeatedEventId (event.eventId :: seenIds) rest

def validateBatch : Json → Except ApiError (List ContractEventRecord)
  | .object body =>
    match body.lookup "events" with
    | some (.array items) =>
      if items.length < 1 then
        .error (.validation "events must contain at least one contract event")
      else if maxEventsPerBatch < items.length then
        .error (.validation
          s!"events must not contain more than {maxEventsPerBatch} items")
      else do
        let events ← items.mapM (validateEvent parseDate)
        match repeatedEventId [] events with
        | some eventId =>
          .error (.conflict "request batch contains duplicate eventId values" eventId)
        | none => .ok events
    | _ => .error (.validation "events must be an array")
  | _ => .error (.validation "request body must be an object")

variable {parseDate} {events : List ContractEventRecord}

theorem assertNonEmptyString_ne_empty {field : String} {maxLength : ℕ} {value : Option Json}
    {text : String} (haccept : assertNonEmptyString field maxLength value = .ok text) :
    text ≠ "" := by
  unfold assertNonEmptyString at haccept
  split at haccept
  · split_ifs at haccept with hblank hlong
    injection haccept with htext
    intro hempty
    apply hblank
    rw [← htext, ← String.toList_inj, String.toList_ofList] at hempty
    exact hempty
  · cases haccept

theorem validateEvent_ledgerHash_ne {item : Json} {event : ContractEventRecord}
    (haccept : validateEvent parseDate item = .ok event) : event.ledgerHash ≠ "" := by
  unfold validateEvent at haccept
  split at haccept
  · split at haccept
    · simp only [bind_eq_ok] at haccept
      obtain ⟨_, _, _, _, _, _, _, _, _, _, _, _, _, _, _, _, _, _, hash, hhash, hevent⟩ := haccept
      cases hevent
      exact assertNonEmptyString_ne_empty hhash
    · cases haccept
  · cases haccept

theorem validateBatch_ledgerHash_ne {body : Json}
    (haccept : validateBatch parseDate body = .ok events) :
    ∀ event ∈ events, event.ledgerHash ≠ "" := by
  unfold validateBatch at haccept
  split at haccept
  · split at haccept
    · split_ifs at haccept with hfew hmany
      obtain ⟨validated, hmap, hrest⟩ := bind_eq_ok.mp haccept
      split at hrest
      · cases hrest
      · cases hrest
        intro event hevent
        obtain ⟨item, _, hitem⟩ := exists_of_mem_mapM hmap hevent
        exact validateEvent_ledgerHash_ne hitem
    · cases haccept
  · cases haccept

theorem repeatedEventId_eq_none {seenIds : List String}
    (hnone : repeatedEventId seenIds events = none) :
    (events.map (·.eventId)).Nodup ∧ ∀ event ∈ events, event.eventId ∉ seenIds := by
  induction events generalizing seenIds with
  | nil => exact ⟨List.nodup_nil, fun _ hmem => nomatch hmem⟩
  | cons _ _ ih =>
    rw [repeatedEventId] at hnone
    split_ifs at hnone with hseen
    obtain ⟨hnodup, hfresh⟩ := ih hnone
    refine ⟨List.nodup_cons.mpr ⟨?_, hnodup⟩, ?_⟩
    · intro hmem
      obtain ⟨event, hevent, heq⟩ := List.mem_map.mp hmem
      exact hfresh event hevent (heq ▸ List.mem_cons_self)
    · intro event hevent
      rcases List.mem_cons.mp hevent with rfl | hrest
      · exact hseen
      · exact fun hmem => hfresh event hrest (List.mem_cons_of_mem _ hmem)

theorem validateBatch_nodup {body : Json} (haccept : validateBatch parseDate body = .ok events) :
    (events.map (·.eventId)).Nodup := by
  unfold validateBatch at haccept
  split at haccept
  · split at haccept
    · split_ifs at haccept with hfew hmany
      obtain ⟨validated, _, hrest⟩ := bind_eq_ok.mp haccept
      split at hrest
      · cases hrest
      · rename_i hunrepeated
        cases hrest
        exact (repeatedEventId_eq_none hunrepeated).1
    · cases haccept
  · cases haccept

end

/-! ## The service -/

inductive IndexerDependencyState
  | healthy
  | degraded
  | unavailable
  deriving DecidableEq

/-- The counters of the service and the reorg in progress. `rolledBackLedgers` is the
set of the ledgers whose webhook deliveries are held back. -/
structure IndexerState where
  dependency : IndexerDependencyState
  acceptedBatchCount : ℕ
  acceptedEventCount : ℕ
  duplicateEventCount : ℕ
  lastSafeLedger : ℕ
  reorgDetected : Bool
  reorgHeight : Option ℕ
  rateLimits : List (String × List ℕ)
  rolledBackLedgers : List ℕ

def IndexerState.initial : IndexerState where
  dependency := .healthy
  acceptedBatchCount := 0
  acceptedEventCount := 0
  duplicateEventCount := 0
  lastSafeLedger := 0
  reorgDetected := false
  reorgHeight := none
  rateLimits := []
  rolledBackLedgers := []

/-- Count a request of an actor, or refuse it. A refused request is not counted. -/
def IndexerState.enforceRateLimit (state : IndexerState) (now : ℕ) (actor : String) :
    Except ApiError IndexerState :=
  let recent := ((state.rateLimits.lookup actor).getD []).filter (now < · + rateLimitWindowMs)
  if maxRateLimitRequests ≤ recent.length then
    .error (.tooManyRequests "indexer ingest rate limit exceeded" (rateLimitWindowMs / 1000))
  else
    .ok { state with
      rateLimits := Properties.set actor (recent ++ [now]) state.rateLimits }

/-- The ledgers of a batch, each once, in the order of their first event. -/
def ledgersInBatch (events : List ContractEventRecord) : List ℕ :=
  (events.map (·.ledger)).eraseDups

/-- The hash a batch has for a ledger: that of its first event there. -/
def incomingHash (events : List ContractEventRecord) (ledger : ℕ) : String :=
  ((events.find? (·.ledger = ledger)).map (·.ledgerHash)).getD ""

/-- A reorg was found at a ledger. -/
def IndexerState.flagReorg (state : IndexerState) (ledger : ℕ) : IndexerState :=
  { state with
    reorgDetected := true
    reorgHeight := some ledger
    rolledBackLedgers := state.rolledBackLedgers.insert ledger }

/-- The bookkeeping after a batch was inserted. -/
def IndexerState.recordInsert (state : IndexerState) (events : List ContractEventRecord)
    (result : InsertContractEventsResult) : IndexerState :=
  let maxLedger := (events.map (·.ledger)).foldl max 0
  let counted := { state with
    acceptedBatchCount := state.acceptedBatchCount + 1
    acceptedEventCount := state.acceptedEventCount + result.insertedEventIds.length
    duplicateEventCount := state.duplicateEventCount + result.duplicateEventIds.length
    lastSafeLedger := max state.lastSafeLedger (maxLedger - 1) }
  match state.reorgHeight with
  | some height =>
    if state.reorgDetected ∧ height + 5 < maxLedger then
      { counted with
        reorgDetected := false
        reorgHeight := none
        rolledBackLedgers := state.rolledBackLedgers.filter (· ≠ height) }
    else counted
  | none => counted

/-! ## Calls over one store -/

/-- Where a call of `ingest` waits. -/
inductive IngestPhase
  | idle
  /-- For the hash of the first ledger that is left, or for the insert when none is. -/
  | checking (events : List ContractEventRecord) (remaining : List ℕ)
  /-- For the rollback at a ledger. -/
  | rollingBack (events : List ContractEventRecord) (ledger : ℕ) (remaining : List ℕ)

structure IngestSystem (ι : Type) where
  store : InMemoryContractEventStore
  state : IndexerState
  calls : ι → IngestPhase

inductive IngestLabel (ι : Type)
  /-- A call with a body, from an actor, at a time. -/
  | begin (i : ι) (body : Json) (actor : String) (now : ℕ)
  /-- `getLedgerHash` answers. -/
  | check (i : ι)
  /-- `rollbackBeforeLedger` is carried out. -/
  | rollback (i : ι)
  /-- `insertMany` is carried out. -/
  | insert (i : ι) (now : ℤ)
  /-- `insertMany` fails after some of the rows. -/
  | insertFails (i : ι) (now : ℤ) (rows : ℕ)
  /-- The store fails before anything is written. -/
  | abort (i : ι)
  | setDependencyState (dependency : IndexerDependencyState)

section

variable (parseDate : String → Option ℤ) {ι : Type} [DecidableEq ι]

/-- What `ingest` does before it first waits. -/
def startIngest (state : IndexerState) (body : Json) (actor : String) (now : ℕ) :
    IndexerState × Except ApiError (List ContractEventRecord) :=
  if state.dependency ≠ .healthy then
    (state, .error (.serviceUnavailable
      "Indexer event ingestion is temporarily unavailable while the durable store is unhealthy."))
  else
    match state.enforceRateLimit now actor with
    | .error e => (state, .error e)
    | .ok counted => (counted, validateBatch parseDate body)

variable {parseDate} in
theorem startIngest_eq_ok {state : IndexerState} {body : Json} {actor : String} {now : ℕ}
    {events : List ContractEventRecord}
    (hstart : (startIngest parseDate state body actor now).2 = .ok events) :
    validateBatch parseDate body = .ok events := by
  unfold startIngest at hstart
  split_ifs at hstart with hhealthy
  split at hstart
  · cases hstart
  · exact hstart

def IngestSystem.initial : IngestSystem ι where
  store := .empty
  state := .initial
  calls _ := .idle

/-- Give a call a new phase and the system a new store and state. -/
def IngestSystem.put (s : IngestSystem ι) (i : ι) (store : InMemoryContractEventStore)
    (state : IndexerState) (phase : IngestPhase) : IngestSystem ι where
  store := store
  state := state
  calls := Function.update s.calls i phase

/-- One step of one call. -/
def ingestStep (s : IngestSystem ι) : IngestLabel ι → Option (IngestSystem ι)
  | .begin i body actor now =>
    match s.calls i with
    | .idle =>
      let (state, outcome) := startIngest parseDate s.state body actor now
      match outcome with
      | .ok events => some (s.put i s.store state (.checking events (ledgersInBatch events)))
      | .error _ => some (s.put i s.store state .idle)
    | _ => none
  | .check i =>
    match s.calls i with
    | .checking events (ledger :: remaining) =>
      match s.store.getLedgerHash ledger with
      | some existingHash =>
        -- an empty hash counts as no hash
        if existingHash ≠ "" ∧ existingHash ≠ incomingHash events ledger then
          some (s.put i s.store (s.state.flagReorg ledger)
            (.rollingBack events ledger remaining))
        else some (s.put i s.store s.state (.checking events remaining))
      | none => some (s.put i s.store s.state (.checking events remaining))
    | _ => none
  | .rollback i =>
    match s.calls i with
    | .rollingBack events ledger remaining =>
      some (s.put i (s.store.rollbackBeforeLedger ledger) s.state
        (.checking events remaining))
    | _ => none
  | .insert i now =>
    match s.calls i with
    | .checking events [] =>
      let (store, result) := s.store.insertMany now events
      some (s.put i store (s.state.recordInsert events result) .idle)
    | _ => none
  | .insertFails i now rows =>
    match s.calls i with
    | .checking events [] =>
      some (s.put i (s.store.insertMany now (events.take rows)).1 s.state .idle)
    | _ => none
  | .abort i => some (s.put i s.store s.state .idle)
  | .setDependencyState dependency =>
    some { s with state := { s.state with dependency := dependency } }

end

end Fluxora.Indexer
