/-
# Circuit breakers of webhook consumers

A breaker is a record under the hash of the consumer's URL. The store is in Redis, where a record
is gone after a while, or in memory, where it stays. What an operation decides once it has read a
record, and what it writes, is the same in both stores.

Here an operation is carried out as a whole.
-/

import Fluxora.Lib.TtlTable
import Fluxora.Webhooks.Retry

namespace Fluxora.Webhooks

open Lib.TtlTable

/-! ## Policy and records -/

structure CircuitBreakerPolicy where
  circuitBreakerThreshold : Option ℕ
  circuitBreakerResetMs : Option ℕ
  deriving DecidableEq

def defaultWebhookCircuitBreakerThreshold : ℕ := 0

def defaultWebhookCircuitBreakerResetMs : ℕ := 300000

def webhookCircuitBreakerProbeLockMaxMs : ℕ := 60000

def webhookCircuitBreakerStateTtlFloorMs : ℕ := 300000

namespace CircuitBreakerPolicy

variable (policy : CircuitBreakerPolicy)

def threshold : ℕ :=
  policy.circuitBreakerThreshold.getD defaultWebhookCircuitBreakerThreshold

def resetMs : ℕ := policy.circuitBreakerResetMs.getD defaultWebhookCircuitBreakerResetMs

/-- The seconds are rounded up. -/
def ttlSec : ℕ := (max (policy.resetMs * 2) webhookCircuitBreakerStateTtlFloorMs + 999) / 1000

def ttlMs : ℕ := policy.ttlSec * 1000

def probeLockMs : ℕ := min policy.resetMs webhookCircuitBreakerProbeLockMaxMs

end CircuitBreakerPolicy

structure WebhookCircuitBreakerRecord where
  state : WebhookCircuitBreakerPhase
  consecutiveFailures : ℕ
  resetAt : ℤ
  lastFailureAt : Option ℤ
  expiresAt : ℤ
  deriving DecidableEq

def closedRecord : WebhookCircuitBreakerRecord := ⟨.closed, 0, 0, none, 0⟩

deriving instance DecidableEq for WebhookCircuitBreakerCheckResult

/-! ## What an operation decides -/

/-- An answer, or an attempt to become the probe of an open circuit. -/
inductive Admission
  | answered (result : WebhookCircuitBreakerCheckResult)
  | claiming

/-- What a disabled breaker answers, and one whose store fails. -/
def failOpen : WebhookCircuitBreakerCheckResult := ⟨true, .closed, 0, none⟩

section

variable (policy : CircuitBreakerPolicy) (now : ℤ) (record : WebhookCircuitBreakerRecord)

def admission : Admission :=
  match record.state with
  | .closed => .answered ⟨true, .closed, record.consecutiveFailures, none⟩
  | .opened =>
    if now < record.resetAt then
      .answered ⟨false, .opened, record.consecutiveFailures, some record.resetAt⟩
    else .claiming
  | .halfOpen => .answered ⟨false, .halfOpen, record.consecutiveFailures, none⟩

/-- Another attempt is the probe. -/
def probeTaken : WebhookCircuitBreakerCheckResult :=
  ⟨false, .halfOpen, record.consecutiveFailures, some record.resetAt⟩

def probeAdmitted : WebhookCircuitBreakerCheckResult :=
  ⟨true, .halfOpen, record.consecutiveFailures, none⟩

/-- The record while a probe is under way. -/
def probeRecord : WebhookCircuitBreakerRecord :=
  { record with state := .halfOpen, resetAt := 0, expiresAt := now + policy.ttlMs }

def successRecord : WebhookCircuitBreakerRecord :=
  { closedRecord with expiresAt := now + policy.ttlMs }

/-- The record after a failure. -/
def failureRecord : WebhookCircuitBreakerRecord :=
  let reopened (failures : ℕ) : WebhookCircuitBreakerRecord :=
    ⟨.opened, failures, now + policy.resetMs, some now, now + policy.ttlMs⟩
  if record.state = .halfOpen then reopened record.consecutiveFailures
  else
    let failures := record.consecutiveFailures + 1
    if policy.threshold ≤ failures then reopened failures
    else ⟨.closed, failures, 0, some now, now + policy.ttlMs⟩

end

/-! ## The store in Redis -/

/-- The records and the probe locks, under the hashes of the URLs. -/
structure RedisBreakers where
  states : Table String WebhookCircuitBreakerRecord := fun _ => none
  probes : Table String Unit := fun _ => none

namespace RedisBreakers

variable (redis : RedisBreakers) (key : String) (policy : CircuitBreakerPolicy) (now : ℤ)

/-- An absent record is that of a closed circuit. -/
def recordOf : WebhookCircuitBreakerRecord := (get redis.states now key).getD closedRecord

def setState (record : WebhookCircuitBreakerRecord) : RedisBreakers :=
  { redis with states := set redis.states now key record policy.ttlMs }

def delProbe : RedisBreakers := { redis with probes := del redis.probes key }

/-- A lock without a time to live is refused, which admits the attempt like every error. -/
def checkAndClaimAttempt : WebhookCircuitBreakerCheckResult × RedisBreakers :=
  if policy.threshold = 0 then (failOpen, redis)
  else
    let record := redis.recordOf key now
    match admission now record with
    | .answered result => (result, redis)
    | .claiming =>
      if policy.probeLockMs = 0 then (failOpen, redis)
      else if (get redis.probes now key).isSome then (probeTaken record, redis)
      else
        let claimed := { redis with probes := set redis.probes now key () policy.probeLockMs }
        (probeAdmitted record,
          claimed.setState key policy now (probeRecord policy now record))

def recordSuccess : WebhookCircuitBreakerRecord × RedisBreakers :=
  let next := successRecord policy now
  (next, (redis.setState key policy now next).delProbe key)

def recordFailure : WebhookCircuitBreakerRecord × RedisBreakers :=
  if policy.threshold = 0 then (closedRecord, redis)
  else
    let next := failureRecord policy now (redis.recordOf key now)
    (next, (redis.setState key policy now next).delProbe key)

def getState : Option WebhookCircuitBreakerRecord := get redis.states now key

end RedisBreakers

/-! ## The store in memory -/

/-- The records and the times until which probes are reserved. -/
structure MemoryBreakers where
  states : String → Option WebhookCircuitBreakerRecord := fun _ => none
  probes : String → Option ℤ := fun _ => none

namespace MemoryBreakers

variable (memory : MemoryBreakers) (key : String) (policy : CircuitBreakerPolicy) (now : ℤ)

def recordOf : WebhookCircuitBreakerRecord := (memory.states key).getD closedRecord

def checkAndClaimAttempt : WebhookCircuitBreakerCheckResult × MemoryBreakers :=
  if policy.threshold = 0 then (failOpen, memory)
  else
    let record := memory.recordOf key
    match admission now record with
    | .answered result => (result, memory)
    | .claiming =>
      if (memory.probes key).any (now < ·) then (probeTaken record, memory)
      else
        (probeAdmitted record,
          { states := Function.update memory.states key (some (probeRecord policy now record))
            probes := Function.update memory.probes key (some (now + policy.probeLockMs)) })

/-- The record of an outcome ends the reservation of the probe. -/
def setState (record : WebhookCircuitBreakerRecord) : MemoryBreakers where
  states := Function.update memory.states key (some record)
  probes := Function.update memory.probes key none

def recordSuccess : WebhookCircuitBreakerRecord × MemoryBreakers :=
  let next := successRecord policy now
  (next, memory.setState key next)

def recordFailure : WebhookCircuitBreakerRecord × MemoryBreakers :=
  if policy.threshold = 0 then (closedRecord, memory)
  else
    let next := failureRecord policy now (memory.recordOf key)
    (next, memory.setState key next)

def getState : Option WebhookCircuitBreakerRecord := memory.states key

end MemoryBreakers

end Fluxora.Webhooks
