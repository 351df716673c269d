/-
# The idempotency stores

A request claims its idempotency key with `start`, which opens a window of time, and stores its
response with `set`, which keeps the window. The store is written twice: over Redis, and in
memory.

Redis keeps the response under a deadline, and the store over it keeps the deadlines of its own
claims aside until the response is there.
-/

import Mathlib.Data.String.Basic
import Fluxora.Lib.Json
import Fluxora.Lib.TtlTable

namespace Fluxora.Idempotency

open Lib Lib.TtlTable

/-- A response that is kept for replays. -/
structure IdempotentEntry where
  version : ℕ
  requestFingerprint : String
  statusCode : ℕ
  body : Json

/-- What is kept under a key. -/
inductive Kept
  | inProgress
  | entry (entry : IdempotentEntry)

def idempotencyKeyPrefix : String := "fluxora:idempotency:"

def envelopeVersion : ℕ := 1

/-- The envelope as it is written to Redis. -/
def IdempotentEntry.versioned (entry : IdempotentEntry) : IdempotentEntry :=
  { entry with version := envelopeVersion }

/-! ## Over Redis -/

/-- The values in Redis, and the deadlines the store keeps aside. A value is the text
`IN_PROGRESS` or the JSON text of an envelope. -/
structure RedisIdempotencyStore where
  values : Table String Kept := fun _ => none
  expiryByKey : String → Option ℤ := fun _ => none

namespace RedisIdempotencyStore

variable (store : RedisIdempotencyStore) (now : ℤ) (key tenantId : String)

def buildKey (key tenantId : String) : String :=
  idempotencyKeyPrefix ++ (tenantId ++ ":" ++ key)

def pruneExpiredDeadlines (exceptKey : Option String) : RedisIdempotencyStore :=
  { store with
    expiryByKey := fun fullKey =>
      (store.expiryByKey fullKey).filter fun expiresAt => fullKey ∈ exceptKey ∨ now < expiresAt }

/-- `SET … PX … NX`. Redis takes no window of zero, and a claim that Redis refuses counts as
acquired. -/
def start (ttlSeconds : ℕ) : Bool × RedisIdempotencyStore :=
  let fullKey := buildKey key tenantId
  let pruned := store.pruneExpiredDeadlines now none
  let expiresAt := now + ttlSeconds * 1000
  if ttlSeconds = 0 then
    (true, { pruned with
      expiryByKey := Function.update pruned.expiryByKey fullKey (some expiresAt) })
  else if (TtlTable.get pruned.values now fullKey).isSome then (false, pruned)
  else
    (true, {
      values := TtlTable.set pruned.values now fullKey .inProgress (ttlSeconds * 1000)
      expiryByKey := Function.update pruned.expiryByKey fullKey (some expiresAt) })

/-- The envelopes are those that `set` has written, so none is refused. -/
def get : Option Kept × RedisIdempotencyStore :=
  let pruned := store.pruneExpiredDeadlines now none
  (TtlTable.get pruned.values now (buildKey key tenantId), pruned)

/-- The deadline of the claim, or a new one if there is none. -/
def deadline (ttlSeconds : ℕ) : ℤ :=
  (store.expiryByKey (buildKey key tenantId)).getD (now + ttlSeconds * 1000)

/-- `SET … PXAT …`, unless the deadline is over. -/
def set (entry : IdempotentEntry) (ttlSeconds : ℕ) : RedisIdempotencyStore :=
  let fullKey := buildKey key tenantId
  let pruned := store.pruneExpiredDeadlines now (some fullKey)
  let deadline := pruned.deadline now key tenantId ttlSeconds
  { values :=
      if deadline ≤ now then pruned.values
      else TtlTable.set pruned.values now fullKey (.entry entry.versioned) (deadline - now)
    expiryByKey := Function.update pruned.expiryByKey fullKey none }

end RedisIdempotencyStore

/-! ## In memory -/

/-- What the store in memory holds, with its deadline. -/
structure Held where
  entry : Kept
  expiresAt : ℤ

structure InMemoryIdempotencyStore where
  store : String → Option Held := fun _ => none

namespace InMemoryIdempotencyStore

variable (memory : InMemoryIdempotencyStore) (now : ℤ) (key tenantId : String)

def buildKey (key tenantId : String) : String := tenantId ++ ":" ++ key

/-- What is held under a key and is not over. -/
def live (fullKey : String) : Option Kept :=
  ((memory.store fullKey).filter fun held => now < held.expiresAt).map Held.entry

def start (ttlSeconds : ℕ) : Bool × InMemoryIdempotencyStore :=
  let fullKey := buildKey key tenantId
  if (memory.live now fullKey).isSome then (false, memory)
  else
    (true, ⟨Function.update memory.store fullKey
      (some ⟨.inProgress, now + ttlSeconds * 1000⟩)⟩)

def get : Option Kept := memory.live now (buildKey key tenantId)

/-- The deadline of what is in progress, also if it is over, or a new one. -/
def deadline (ttlSeconds : ℕ) : ℤ :=
  match memory.store (buildKey key tenantId) with
  | some ⟨.inProgress, expiresAt⟩ => expiresAt
  | _ => now + ttlSeconds * 1000

def set (entry : IdempotentEntry) (ttlSeconds : ℕ) : InMemoryIdempotencyStore :=
  ⟨Function.update memory.store (buildKey key tenantId)
    (some ⟨.entry entry, memory.deadline now key tenantId ttlSeconds⟩)⟩

end InMemoryIdempotencyStore

end Fluxora.Idempotency
