/-
# The revocation store

Revoked tokens are entries in Redis that end by their time to live. Every revocation writes the
entry anew, with its own time to live. The client is set up by the first call that needs it; the
promise of a client is kept also when it has been rejected, and calls then fail before they come
to Redis.
-/

import Mathlib.Data.Rat.Floor
import Fluxora.Lib.JsText
import Fluxora.Lib.Transition

namespace Fluxora.Redis

open Lib.JsText Lib.Transition

/-! ## Times to live -/

/-- The options of a revocation: a number, an object, or none. -/
inductive RevocationOptions
  | default
  | ttl (seconds : ℚ)
  | object (ttl : Option ℚ) (exp : ℚ) (nowSeconds : Option ℚ)
  deriving DecidableEq

inductive RevocationError
  | type (message : String)
  | revocation (message : String)
  /-- What the set-up of the client has thrown. -/
  | setUp (message : String)
  deriving DecidableEq

def defaultRevocationTtlSeconds : ℚ := 7 * 24 * 60 * 60

def assertPositiveInteger (value : ℚ) (field : String) : Except RevocationError Unit :=
  if value.den ≠ 1 ∨ value ≤ 0 then .error (.type s!"{field} must be a positive integer")
  else .ok ()

/-- The `nowSeconds` of an options object, by default the time of the call. -/
def secondsOf (calledAt : ℤ) (nowSeconds : Option ℚ) : ℚ := nowSeconds.getD (calledAt / 1000)

/-- The seconds an entry lives, or `none` for a token that has expired. -/
def resolveRevocationTtl (calledAt : ℤ) :
    RevocationOptions → Except RevocationError (Option ℤ)
  | .default => .ok (some defaultRevocationTtlSeconds.num)
  | .ttl seconds => do
      assertPositiveInteger seconds "ttl"
      .ok (some seconds.num)
  | .object ttl exp nowSeconds => do
      assertPositiveInteger exp "exp"
      if let some seconds := ttl then
        assertPositiveInteger seconds "ttl"
      let remaining := ⌈exp - secondsOf calledAt nowSeconds⌉
      if remaining ≤ 0 then .ok none else .ok (some remaining)

/-! ## The client -/

structure RetryOptions where
  baseDelayMs : ℤ
  maxDelayMs : ℤ
  maxAttempts : ℤ

/-- The delay before an attempt, with the jitter of a random number, or 0. -/
def calculateNextRetryDelay (attemptNumber : ℕ) (options : RetryOptions) (random : ℚ) : ℤ :=
  if (attemptNumber : ℤ) ≥ options.maxAttempts then 0
  else
    let capped := min options.maxDelayMs (options.baseDelayMs * 2 ^ attemptNumber)
    let range := capped - options.baseDelayMs
    max 0 ⌊(options.baseDelayMs + random * max 0 range : ℚ) + 1 / 2⌋

/-- The delay before the attempt with the given number, counted from 1, or `none` to give
up. -/
def defaultRetryStrategy (options : RetryOptions) (random : ℚ) (times : ℕ) : Option ℤ :=
  let delay := calculateNextRetryDelay (times - 1) options random
  if delay = 0 then none else some delay

inductive ClientStatus
  | ready
  /-- The next attempt has this number. -/
  | reconnecting (times : ℕ)
  /-- The client has given up, and refuses every command. -/
  | ended
  deriving DecidableEq

/-- The two variables of the module: no client and no promise of one, a promise that has
been rejected, or a client. -/
inductive StoreClient
  | unset
  | rejected (message : String)
  | present (status : ClientStatus)
  deriving DecidableEq

/-- An answer of `isRevoked`, with the time, whether Redis could be reached, and whether it
had the entry. -/
structure Answer where
  jti : String
  time : ℤ
  reachable : Bool
  stored : Bool
  answer : Except RevocationError Bool
  deriving DecidableEq

/-- What has been answered to the callers. -/
inductive RevocationRecord
  /-- A revocation with an expiry time has succeeded. -/
  | revoked (jti : String) (exp : ℚ)
  | answered (answer : Answer)
  deriving DecidableEq

structure RevocationState where
  /-- Milliseconds. -/
  now : ℤ
  /-- Redis can be reached. -/
  reachable : Bool
  /-- The keys in Redis with the times at which they expire. -/
  entries : String → Option ℤ
  client : StoreClient
  log : List RevocationRecord

namespace RevocationState

variable (s : RevocationState)

/-- `EXISTS` -/
def keyExists (key : String) : Bool := (s.entries key).any (s.now ≤ ·)

/-- `getRedisClient`. A connection that cannot be opened rejects the promise. -/
def getRedisClient : Except RevocationError ClientStatus × StoreClient :=
  match s.client with
  | .present status => (.ok status, s.client)
  | .rejected message => (.error (.setUp message), s.client)
  | .unset =>
    if s.reachable then (.ok .ready, .present .ready)
    else (.error (.setUp "Connection is closed."), .rejected "Connection is closed.")

/-- Whether a command reaches Redis. A client that is waiting to reconnect holds it back
until it has. -/
def sendCommand : ClientStatus → Except String Unit
  | .ended => .error "Connection is closed."
  | .ready | .reconnecting _ =>
    if s.reachable then .ok () else .error "Reached the max retries per request limit."

end RevocationState

/-- The client after a command. -/
def afterCommand : ClientStatus → Except String Unit → StoreClient
  | _, .ok () => .present .ready
  | status, .error _ => .present status

def redisMaxKeyLength : ℕ := 1024

def assertRedisKey (key : String) : Except String Unit :=
  if trim key.toList = [] then
    .error "Redis input validation failed for 'key': must be a non-empty string"
  else if (codeUnits key.toList).length > redisMaxKeyLength then
    .error <| "Redis input validation failed for 'key': " ++
      s!"must not exceed {redisMaxKeyLength} characters"
  else .ok ()

/-- `assertPositiveInteger(options.ex, 'options.ex')` -/
def assertExpiry (ex : ℤ) : Except String Unit :=
  if ex ≤ 0 ∨ 2 ^ 53 ≤ ex then
    .error "Redis input validation failed for 'options.ex': must be a positive integer"
  else .ok ()

/-! ## Revocation -/

def buildKey (jti : String) : String := "jwt:revoked:" ++ jti

structure RevocationResult where
  revoked : Bool
  ttlSeconds : ℤ
  deriving DecidableEq

namespace RevocationState

variable (s : RevocationState)

/-- `SET key 1 EX ttl`, with the new state of the client. -/
def set (status : ClientStatus) (key : String) (ex : ℤ) : Except String Unit × StoreClient :=
  match assertRedisKey key, assertExpiry ex with
  | .error message, _ | _, .error message => (.error message, .present status)
  | .ok (), .ok () => (s.sendCommand status, afterCommand status (s.sendCommand status))

/-- `revoke`. The reply of Redis may get lost. -/
def revoke (jti : String) (options : RevocationOptions) (calledAt : ℤ) (replyLost : Bool) :
    Except RevocationError RevocationResult × RevocationState :=
  if jti = "" then (.error (.type "jti must be a non-empty string"), s)
  else
    match resolveRevocationTtl calledAt options with
    | .error error => (.error error, s)
    | .ok none => (.ok ⟨false, 0⟩, s)
    | .ok (some ttl) =>
      match s.getRedisClient with
      | (.error error, client) => (.error error, { s with client })
      | (.ok status, _) =>
        match s.set status (buildKey jti) ttl with
        | (.error message, client) =>
          (.error (.revocation s!"Failed to revoke JWT: {message}"), { s with client })
        | (.ok (), client) =>
          let written :=
            { s with
              client
              entries := Function.update s.entries (buildKey jti)
                (some (s.now + 1000 * ttl)) }
          if replyLost then
            (.error (.revocation "Failed to revoke JWT: Connection is closed."), written)
          else (.ok ⟨true, ttl⟩, written)

/-- `isRevoked` -/
def isRevoked (jti : String) : Except RevocationError Bool × StoreClient :=
  if jti = "" then (.ok true, s.client)
  else
    match s.getRedisClient with
    | (.error error, client) => (.error error, client)
    | (.ok status, _) =>
      match assertRedisKey (buildKey jti) with
      | .error _ => (.ok true, .present status)
      | .ok () =>
        match s.sendCommand status with
        | .error message => (.ok true, afterCommand status (.error message))
        | .ok () => (.ok (s.keyExists (buildKey jti)), .present .ready)

end RevocationState

/-! ## Runs -/

inductive RevocationEvent
  | tick (ms : ℕ)
  /-- Redis cannot be reached any more, with the random number of the retry strategy. -/
  | redisFails (random : ℚ)
  | redisRecovers
  /-- The client tries to reconnect. -/
  | reconnect (random : ℚ)
  | revoke (jti : String) (options : RevocationOptions) (calledAt : ℤ) (replyLost : Bool)
  | isRevoked (jti : String)
  | closeRevocationStore

/-- What becomes of a client that has to make the attempt with the given number. -/
def retry (options : RetryOptions) (random : ℚ) (times : ℕ) : StoreClient :=
  if (defaultRetryStrategy options random times).isSome then .present (.reconnecting times)
  else .present .ended

/-- What a revocation has told its caller. -/
def recordOf (jti : String) :
    RevocationOptions → Except RevocationError RevocationResult → List RevocationRecord
  | .object _ exp _, .ok ⟨true, _⟩ => [.revoked jti exp]
  | _, _ => []

def revocationStep (retryOptions : RetryOptions) (s : RevocationState) :
    RevocationEvent → Option RevocationState
  | .tick ms => some { s with now := s.now + ms }
  | .redisFails random =>
    some
      { s with
        reachable := false
        client := if s.client = .present .ready then retry retryOptions random 1 else s.client }
  | .redisRecovers => some { s with reachable := true }
  | .reconnect random =>
    match s.client with
    | .present (.reconnecting times) =>
      some
        { s with
          client := if s.reachable then .present .ready
            else retry retryOptions random (times + 1) }
    | _ => none
  | .revoke jti options calledAt replyLost =>
    if s.now < calledAt then none
    else
      match s.revoke jti options calledAt replyLost with
      | (result, next) => some { next with log := s.log ++ recordOf jti options result }
  | .isRevoked jti =>
    match s.isRevoked jti with
    | (answer, client) =>
      some
        { s with
          client
          log := s.log ++
            [.answered ⟨jti, s.now, s.reachable, s.keyExists (buildKey jti), answer⟩] }
  | .closeRevocationStore =>
    match s.client with
    | .present status =>
      some { s with client := if s.sendCommand status = .ok () then .unset else s.client }
    | _ => some s

def RevocationState.initial (now : ℤ) (reachable : Bool) : RevocationState :=
  ⟨now, reachable, fun _ => none, .unset, []⟩

end Fluxora.Redis
