/-
# Operations on circuit breakers that overlap

Replicas share the breakers in Redis. An operation reads the record, decides, and writes with
further commands; between any two commands other operations go on. A delivery reports its outcome
in an operation of its own, long after it was admitted.
-/

import Fluxora.Lib.Transition
import Fluxora.Webhooks.BreakerStore

namespace Fluxora.Webhooks

open Lib.TtlTable Lib.Transition

/-! ## Operations under way -/

/-- An operation with the time its caller gives it. An outcome may be that of an admitted
delivery, whose operation is given. -/
inductive BreakerRequest
  | check (now : ℤ)
  | success (of : Option ℕ)
  | failure (now : ℤ) (of : Option ℕ)
  deriving DecidableEq

/-- The delivery whose outcome a request reports. -/
def BreakerRequest.of : BreakerRequest → Option ℕ
  | check _ => none
  | success of => of
  | failure _ of => of

/-- What an operation does next, or its answer. -/
inductive BreakerProgress
  | reading
  /-- Before the lock of the probe is set. -/
  | claiming (record : WebhookCircuitBreakerRecord)
  /-- With the lock, before the record is set. -/
  | opening (record : WebhookCircuitBreakerRecord)
  /-- Before the record of an outcome is set. -/
  | writing (next : WebhookCircuitBreakerRecord)
  /-- Before the lock is deleted. -/
  | releasing (next : WebhookCircuitBreakerRecord)
  | checked (result : WebhookCircuitBreakerCheckResult)
  | recorded (record : WebhookCircuitBreakerRecord)
  deriving DecidableEq

structure BreakerCall where
  /-- The hash of the URL. -/
  key : String
  policy : CircuitBreakerPolicy
  request : BreakerRequest
  progress : BreakerProgress
  /-- The last time at which a lock that the operation has set is there. -/
  lockedUntil : Option ℤ := none
  /-- The outcome of the delivery that was admitted has been reported. -/
  reported : Bool := false
  /-- How often the record had been written when it was read. -/
  seen : ℕ := 0
  deriving DecidableEq

structure BreakerWorld where
  clock : ℤ := 0
  states : Table String WebhookCircuitBreakerRecord := fun _ => none
  /-- The operations that have set the locks. -/
  probes : Table String ℕ := fun _ => none
  calls : List BreakerCall := []
  writes : String → ℕ := fun _ => 0

/-! ## Steps -/

inductive BreakerStep
  | start (key : String) (policy : CircuitBreakerPolicy) (request : BreakerRequest)
  /-- The next command of an operation. -/
  | proceed (i : ℕ)
  | tick (ms : ℕ)
  deriving DecidableEq

/-- What an operation does before its first command. Disabled breakers have none. -/
def firstProgress (policy : CircuitBreakerPolicy) : BreakerRequest → BreakerProgress
  | .check _ => if policy.threshold = 0 then .checked failOpen else .reading
  | .success _ => .reading
  | .failure _ _ => if policy.threshold = 0 then .recorded closedRecord else .reading

namespace BreakerWorld

variable (w : BreakerWorld)

/-- A delivery was admitted for a key. -/
def admitted (i : ℕ) (key : String) : Bool :=
  w.calls[i]?.any fun call =>
    call.key = key && match call.progress with
      | .checked result => result.allowed
      | _ => false

def put (i : ℕ) (call : BreakerCall) : BreakerWorld := { w with calls := w.calls.set i call }

def writeState (call : BreakerCall) (record : WebhookCircuitBreakerRecord) : BreakerWorld :=
  { w with
    states := set w.states w.clock call.key record call.policy.ttlMs
    writes := Function.update w.writes call.key (w.writes call.key + 1) }

/-- What an operation does with the record it has read. -/
def decide (call : BreakerCall) (record : WebhookCircuitBreakerRecord) : BreakerProgress :=
  match call.request with
  | .check now =>
    match admission now record with
    | .answered result => .checked result
    | .claiming => .claiming record
  | .success _ => .writing (successRecord call.policy w.clock)
  | .failure now _ => .writing (failureRecord call.policy now record)

/-- A delivery whose outcome has been reported. -/
def markReported (i : ℕ) : BreakerWorld :=
  { w with calls := w.calls.modify i fun call => { call with reported := true } }

/-- The next command of an operation. -/
def proceed (i : ℕ) (call : BreakerCall) : Option BreakerWorld :=
  match call.progress with
  | .reading =>
    let record := (get w.states w.clock call.key).getD closedRecord
    some (w.put i { call with progress := w.decide call record, seen := w.writes call.key })
  | .claiming record =>
    if call.policy.probeLockMs = 0 then
      some (w.put i { call with progress := .checked failOpen })
    else if (get w.probes w.clock call.key).isSome then
      some (w.put i { call with progress := .checked (probeTaken record) })
    else
      let lockMs := call.policy.probeLockMs
      some (put { w with probes := set w.probes w.clock call.key i lockMs } i
        { call with progress := .opening record, lockedUntil := some (w.clock + lockMs) })
  | .opening record =>
    match call.request with
    | .check now =>
      some ((w.writeState call (probeRecord call.policy now record)).put i
        { call with progress := .checked (probeAdmitted record) })
    | _ => none
  | .writing next =>
    some ((w.writeState call next).put i { call with progress := .releasing next })
  | .releasing next =>
    let released := put { w with probes := del w.probes call.key } i
      { call with progress := .recorded next }
    some (match call.request.of with
      | some delivery => released.markReported delivery
      | none => released)
  | .checked _ | .recorded _ => none

/-- An outcome is that of a delivery that was admitted. -/
def step : BreakerStep → Option BreakerWorld
  | .start key policy request =>
    if request.of.all (w.admitted · key) then
      some { w with calls := w.calls ++
        [{ key, policy, request, progress := firstProgress policy request }] }
    else none
  | .proceed i => w.calls[i]?.bind (w.proceed i)
  | .tick ms => some { w with clock := w.clock + ms }

end BreakerWorld

/-! ## What a step can do -/

section

variable {w w' : BreakerWorld}

@[simp]
theorem BreakerWorld.put_calls (i : ℕ) (call : BreakerCall) :
    (w.put i call).calls = w.calls.set i call := rfl

/-- An operation goes on with a command of its own. -/
inductive Proceeds (w : BreakerWorld) (i : ℕ) (call : BreakerCall) : BreakerWorld → Prop
  | read (hreading : call.progress = .reading) : Proceeds w i call
      (w.put i { call with
        progress := w.decide call ((get w.states w.clock call.key).getD closedRecord)
        seen := w.writes call.key })
  | refused {record : WebhookCircuitBreakerRecord} (hclaiming : call.progress = .claiming record)
      (result : WebhookCircuitBreakerCheckResult) : Proceeds w i call
        (w.put i { call with progress := .checked result })
  | locked {record : WebhookCircuitBreakerRecord} (hclaiming : call.progress = .claiming record)
      (hfree : get w.probes w.clock call.key = none) : Proceeds w i call
        (BreakerWorld.put
          { w with probes := set w.probes w.clock call.key i call.policy.probeLockMs } i
          { call with
            progress := .opening record
            lockedUntil := some (w.clock + call.policy.probeLockMs) })
  | opened {record : WebhookCircuitBreakerRecord} {now : ℤ}
      (hopening : call.progress = .opening record) (hcheck : call.request = .check now) :
        Proceeds w i call ((w.writeState call (probeRecord call.policy now record)).put i
          { call with progress := .checked (probeAdmitted record) })
  | written {next : WebhookCircuitBreakerRecord} (hwriting : call.progress = .writing next) :
      Proceeds w i call ((w.writeState call next).put i { call with progress := .releasing next })
  | released {next : WebhookCircuitBreakerRecord} (hreleasing : call.progress = .releasing next)
      (hof : call.request.of = none) : Proceeds w i call
        (BreakerWorld.put { w with probes := del w.probes call.key } i
          { call with progress := .recorded next })
  | reported {next : WebhookCircuitBreakerRecord} {delivery : ℕ}
      (hreleasing : call.progress = .releasing next) (hof : call.request.of = some delivery) :
        Proceeds w i call ((BreakerWorld.put { w with probes := del w.probes call.key } i
          { call with progress := .recorded next }).markReported delivery)

theorem proceeds_of_proceed {i : ℕ} {call : BreakerCall} (h : w.proceed i call = some w') :
    Proceeds w i call w' := by
  unfold BreakerWorld.proceed at h
  split at h
  · rename_i hreading
    cases h
    exact .read hreading
  · rename_i record hclaiming
    split_ifs at h with hlock htaken
    · cases h
      exact .refused hclaiming _
    · cases h
      exact .refused hclaiming _
    · cases h
      exact .locked hclaiming (Option.not_isSome_iff_eq_none.mp htaken)
  · rename_i record hopening
    split at h
    · rename_i now hcheck
      cases h
      exact .opened hopening hcheck
    · cases h
  · rename_i next hwriting
    cases h
    exact .written hwriting
  · rename_i next hreleasing
    cases hof : call.request.of with
    | none =>
      rw [hof] at h
      cases h
      exact .released hreleasing hof
    | some =>
      rw [hof] at h
      cases h
      exact .reported hreleasing hof
  · cases h
  · cases h

theorem exists_of_proceed {i : ℕ} (h : w.step (.proceed i) = some w') :
    ∃ call, w.calls[i]? = some call ∧ Proceeds w i call w' := by
  obtain ⟨call, hcall, hproceed⟩ := Option.bind_eq_some_iff.mp h
  exact ⟨call, hcall, proceeds_of_proceed hproceed⟩

theorem eq_of_start {key : String} {policy : CircuitBreakerPolicy} {request : BreakerRequest}
    (h : w.step (.start key policy request) = some w') :
    w' = { w with calls := w.calls ++
      [{ key, policy, request, progress := firstProgress policy request }] } := by
  rw [BreakerWorld.step] at h
  split_ifs at h
  exact (Option.some.inj h).symm

end

end Fluxora.Webhooks
