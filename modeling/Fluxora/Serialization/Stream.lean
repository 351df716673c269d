/-
# Streams as the API shows them

Rows are mapped to the public shape in one place, and the cache policy of a response is
decided from the statuses it shows.
-/

import Fluxora.Streams.Repository

namespace Fluxora.Serialization

open Streams

/-- Public-facing stream shape. -/
structure Stream where
  id : String
  sender : String
  recipient : String
  depositAmount : String
  streamedAmount : String
  remainingAmount : String
  ratePerSecond : String
  startTime : ℤ
  endTime : ℤ
  status : StreamStatus
  deriving DecidableEq

def toApiStream (row : StreamRecord) : Stream where
  id := row.id
  sender := row.senderAddress
  recipient := row.recipientAddress
  depositAmount := row.amount
  streamedAmount := row.streamedAmount
  remainingAmount := row.remainingAmount
  ratePerSecond := row.ratePerSecond
  startTime := row.startTime
  endTime := row.endTime
  status := row.status

def cacheableStreamHeaders : String := "public, max-age=300, stale-while-revalidate=60"

def noStoreStreamHeaders : String := "private, no-store"

/-- Publicly cacheable only when every stream is terminal. An empty set counts as
all-terminal. -/
def streamCacheControl (statuses : List StreamStatus) : String :=
  if statuses.all isTerminalStatus then cacheableStreamHeaders else noStoreStreamHeaders

theorem streamCacheControl_eq_cacheable_iff {statuses : List StreamStatus} :
    streamCacheControl statuses = cacheableStreamHeaders ↔
      ∀ status ∈ statuses, isTerminalStatus status = true := by
  rw [← List.all_eq_true, streamCacheControl]
  split_ifs with hall
  · simp [hall]
  · simp [hall, noStoreStreamHeaders, cacheableStreamHeaders]

end Fluxora.Serialization
