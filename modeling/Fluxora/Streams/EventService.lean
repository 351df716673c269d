/-
# Processing stream events

Stream events from the chain are applied to the streams table, each at most once: a cache of the
recent event keys answers a repeated delivery without going to the database. The key is entered
before the event is applied, and it stays there when applying fails.

The three handlers have one shape.
-/

import Fluxora.Lib.DigitText
import Fluxora.Streams.Repository

namespace Fluxora.Streams

open Lib Lib.Statements

/-! ## Events -/

def isHexDigit (c : Char) : Bool := "0123456789abcdef".toList.contains c

/-- A hex-encoded transaction hash. -/
structure TransactionHash where
  text : String
  hex : text.toList.all isHexDigit = true

structure StreamCreatedEvent where
  contractId : String
  transactionHash : TransactionHash
  eventIndex : ℕ
  sender : String
  recipient : String
  amount : String
  ratePerSecond : String
  startTime : ℤ
  endTime : ℤ

structure StreamUpdatedEvent where
  contractId : String
  transactionHash : TransactionHash
  eventIndex : ℕ
  streamId : String
  streamedAmount : Option String
  remainingAmount : Option String
  status : Option StreamStatus
  endTime : Option ℤ

structure StreamCancelledEvent where
  contractId : String
  transactionHash : TransactionHash
  eventIndex : ℕ
  streamId : String

inductive StreamEvent
  | created (event : StreamCreatedEvent)
  | updated (event : StreamUpdatedEvent)
  | cancelled (event : StreamCancelledEvent)

inductive Action
  | created
  | updated
  | ignored
  deriving DecidableEq

structure EventIngestionResult where
  eventId : String
  streamId : String
  action : Action
  success : Bool
  error : Option String := none
  deriving DecidableEq

/-- The stable identity used for deduplication and replay. -/
def deriveStreamEventId (transactionHash : String) (eventIndex : ℕ) : String :=
  transactionHash ++ "-" ++ toString eventIndex

/-- The id of the stream that an event creates, which is written the same way. -/
def deriveStreamId (transactionHash : String) (eventIndex : ℕ) : String :=
  transactionHash ++ "-" ++ toString eventIndex

/-! ## The dedup cache -/

def dedupCacheMax : ℕ := 10000

/-- Keys with the time they expire, in the order they were entered. -/
structure InMemoryDedupCache where
  seen : List (String × ℕ)
  windowMs : ℕ

namespace InMemoryDedupCache

def isLive (cache : InMemoryDedupCache) (now : ℕ) (key : String) : Bool :=
  (cache.seen.lookup key).any (now < ·)

def cacheKey (streamId eventId : String) : String := streamId ++ ":" ++ eventId

/-- Enter a key and say whether it is new. An expired entry is dropped, and so is the
oldest entry when the cache is full. -/
def add (cache : InMemoryDedupCache) (now : ℕ) (streamId eventId : String) :
    Bool × InMemoryDedupCache :=
  let key := cacheKey streamId eventId
  if cache.isLive now key then (false, cache)
  else
    let live := cache.seen.filter (·.1 ≠ key)
    let kept := if dedupCacheMax ≤ live.length then live.tail else live
    (true, { cache with seen := kept ++ [(key, now + cache.windowMs)] })

theorem add_fst (cache : InMemoryDedupCache) (now : ℕ) (streamId eventId : String) :
    (cache.add now streamId eventId).1 = !cache.isLive now (cacheKey streamId eventId) := by
  cases hlive : cache.isLive now (cacheKey streamId eventId) <;> simp [add, hlive]

variable {cache : InMemoryDedupCache}

theorem mem_add {now : ℕ} {streamId eventId key : String}
    (hmem : key ∈ (cache.add now streamId eventId).2.seen.map Prod.fst) :
    key ∈ cache.seen.map Prod.fst ∨ key = cacheKey streamId eventId := by
  by_cases hlive : cache.isLive now (cacheKey streamId eventId) = true
  · rw [add, if_pos hlive] at hmem
    exact Or.inl hmem
  · rw [add, if_neg hlive, List.map_append, List.mem_append] at hmem
    rcases hmem with hkept | hnew
    · obtain ⟨entry, hentry, hkey⟩ := List.mem_map.mp hkept
      have hentry' : entry ∈ cache.seen.filter (·.1 ≠ cacheKey streamId eventId) := by
        split_ifs at hentry with hfull
        · exact List.mem_of_mem_tail hentry
        · exact hentry
      rw [← hkey]
      exact Or.inl (List.mem_map_of_mem (List.mem_of_mem_filter hentry'))
    · exact Or.inr (List.mem_singleton.mp hnew)

theorem mem_of_isLive {now : ℕ} {key : String} (hlive : cache.isLive now key = true) :
    key ∈ cache.seen.map Prod.fst := by
  rw [isLive] at hlive
  cases hlookup : cache.seen.lookup key with
  | none =>
    rw [hlookup] at hlive
    cases hlive
  | some =>
    obtain ⟨before, after, hsplit, _⟩ := List.lookup_eq_some_iff.mp hlookup
    rw [hsplit]
    simp

end InMemoryDedupCache

/-! ## The handlers -/

/-- What the handlers share: a key that is still live is answered as a duplicate, and
an error while applying is reported. -/
def processOnce (eventId streamId : String) (failure : String → EventIngestionResult)
    (program : Program StreamsTable EventIngestionResult) (now : ℕ)
    (cache : InMemoryDedupCache) (s : Session StreamsTable) :
    EventIngestionResult × InMemoryDedupCache × Session StreamsTable :=
  match cache.add now streamId eventId with
  | (false, cache') => ({ eventId, streamId, action := .ignored, success := true }, cache', s)
  | (true, cache') =>
    match program s with
    | (.ok result, s') => (result, cache', s')
    | (.error message, s') => (failure message, cache', s')

namespace StreamCreatedEvent

def eventId (event : StreamCreatedEvent) : String :=
  deriveStreamEventId event.transactionHash.text event.eventIndex

def streamId (event : StreamCreatedEvent) : String :=
  deriveStreamId event.transactionHash.text event.eventIndex

def input (event : StreamCreatedEvent) : CreateStreamInput where
  id := event.streamId
  senderAddress := event.sender
  recipientAddress := event.recipient
  amount := event.amount
  streamedAmount := "0"
  remainingAmount := event.amount
  ratePerSecond := event.ratePerSecond
  startTime := event.startTime
  endTime := event.endTime
  contractId := event.contractId
  transactionHash := event.transactionHash.text
  eventIndex := event.eventIndex

def program (event : StreamCreatedEvent) : Program StreamsTable EventIngestionResult := do
  let result ← upsertStream event.input
  pure
    { eventId := event.eventId
      streamId := event.streamId
      action := if result.created then .created else .ignored
      success := true }

/-- The stream id of a failure is left empty. -/
def failure (event : StreamCreatedEvent) (message : String) : EventIngestionResult :=
  { eventId := event.eventId, streamId := "", action := .created, success := false,
    error := some message }

end StreamCreatedEvent

def processStreamCreated (event : StreamCreatedEvent) :=
  processOnce event.eventId event.streamId event.failure event.program

namespace StreamUpdatedEvent

def eventId (event : StreamUpdatedEvent) : String :=
  deriveStreamEventId event.transactionHash.text event.eventIndex

/-- The fields of the event that count: empty texts and a zero end time do not. -/
def update (event : StreamUpdatedEvent) : UpdateStreamInput where
  status := event.status
  streamedAmount := event.streamedAmount.filter (· ≠ "")
  remainingAmount := event.remainingAmount.filter (· ≠ "")
  endTime := event.endTime.filter (· ≠ 0)

def program (event : StreamUpdatedEvent) : Program StreamsTable EventIngestionResult := do
  match ← query (·.getById event.streamId) with
  | none =>
    let streamId := event.streamId
    pure
      { eventId := event.eventId
        streamId := event.streamId
        action := .updated
        success := false
        error := some s!"Stream not found: {streamId}" }
  | some _ =>
    if event.update = {} then
      pure
        { eventId := event.eventId
          streamId := event.streamId
          action := .ignored
          success := true }
    else
      let _ ← updateStream event.streamId event.update
      pure
        { eventId := event.eventId
          streamId := event.streamId
          action := .updated
          success := true }

def failure (event : StreamUpdatedEvent) (message : String) : EventIngestionResult :=
  { eventId := event.eventId, streamId := event.streamId, action := .updated, success := false,
    error := some message }

end StreamUpdatedEvent

def processStreamUpdated (event : StreamUpdatedEvent) :=
  processOnce event.eventId event.streamId event.failure event.program

namespace StreamCancelledEvent

def eventId (event : StreamCancelledEvent) : String :=
  deriveStreamEventId event.transactionHash.text event.eventIndex

/-- The first read only feeds the trace. -/
def program (event : StreamCancelledEvent) : Program StreamsTable EventIngestionResult := do
  let _ ← query (·.getById event.streamId)
  let _ ← updateStream event.streamId { status := some .cancelled }
  pure
    { eventId := event.eventId
      streamId := event.streamId
      action := .updated
      success := true }

def failure (event : StreamCancelledEvent) (message : String) : EventIngestionResult :=
  { eventId := event.eventId, streamId := event.streamId, action := .updated, success := false,
    error := some message }

end StreamCancelledEvent

def processStreamCancelled (event : StreamCancelledEvent) :=
  processOnce event.eventId event.streamId event.failure event.program

/-- Process any stream event. -/
def processEvent : StreamEvent → ℕ → InMemoryDedupCache → Session StreamsTable →
    EventIngestionResult × InMemoryDedupCache × Session StreamsTable
  | .created event => processStreamCreated event
  | .updated event => processStreamUpdated event
  | .cancelled event => processStreamCancelled event

end Fluxora.Streams
