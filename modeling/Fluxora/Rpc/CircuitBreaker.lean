/-
# The circuit breaker of the RPC client

A call passes the breaker when it starts and reports to it when it ends; between the two, other
calls start and end. The breaker keeps the times of the recent failures, and it drops the old ones
only when a call starts.
-/

import Mathlib.Data.Int.Order.Basic
import Mathlib.Data.List.Basic
import Fluxora.Lib.Transition

namespace Fluxora.Rpc

open Lib.Transition

/-! ## The breaker -/

inductive CircuitState
  | closed
  | opened
  | halfOpen
  deriving DecidableEq

structure CircuitBreakerOptions where
  failureThreshold : ℕ := 5
  windowMs : ℕ := 30000
  resetTimeoutMs : ℕ := 60000

structure CircuitBreaker where
  state : CircuitState := .closed
  /-- The times of recent failures. -/
  failures : List ℤ := []
  openedAt : ℤ := 0
  deriving DecidableEq

namespace CircuitBreaker

variable (opts : CircuitBreakerOptions) (now : ℤ) (breaker : CircuitBreaker)

def evictOldFailures : CircuitBreaker :=
  { breaker with failures := breaker.failures.filter fun t => now - opts.windowMs ≤ t }

/-- `call` up to the invocation of the function: whether the call is admitted. -/
def callStart : CircuitBreaker × Bool :=
  let breaker := breaker.evictOldFailures opts now
  if breaker.state = .opened then
    if opts.resetTimeoutMs ≤ now - breaker.openedAt then
      ({ breaker with state := .halfOpen }, true)
    else (breaker, false)
  else (breaker, true)

def onSuccess : CircuitBreaker := { breaker with failures := [], state := .closed }

def onFailure : CircuitBreaker :=
  let breaker := { breaker with failures := breaker.failures ++ [now] }
  if opts.failureThreshold ≤ breaker.failures.length then
    { breaker with state := .opened, openedAt := now }
  else breaker

end CircuitBreaker

/-! ## Runs of overlapping calls -/

/-- A call that has been admitted and has not ended. -/
structure RpcCall where
  /-- How often the breaker had opened when the call was admitted. -/
  openings : ℕ
  /-- The call was admitted while the breaker was half open. -/
  probe : Bool
  deriving DecidableEq

structure RpcState where
  breaker : CircuitBreaker := {}
  clock : ℤ := 0
  calls : List RpcCall := []
  /-- The times of all failures since the last success. -/
  failed : List ℤ := []
  /-- When the last call started. -/
  lastStart : ℤ := 0
  /-- How often the breaker has opened. -/
  openings : ℕ := 0
  /-- The calls admitted since the breaker was last opened or closed. -/
  probes : ℕ := 0
  /-- When the probe failed, if the breaker opened then for the last time. -/
  probeFailed : Option ℤ := none

inductive RpcLabel
  | start (now : ℤ)
  | succeed (i : ℕ) (now : ℤ)
  | fail (i : ℕ) (now : ℤ)
  deriving DecidableEq

def RpcLabel.now : RpcLabel → ℤ
  | .start now => now
  | .succeed _ now => now
  | .fail _ now => now

namespace RpcState

variable (opts : CircuitBreakerOptions) (s : RpcState)

/-- A call starts: it is admitted, or refused with `CircuitOpenError`. -/
def start (now : ℤ) : RpcState :=
  let (breaker, admitted) := s.breaker.callStart opts now
  let probe : Bool := breaker.state = .halfOpen
  { s with
    breaker := breaker
    clock := now
    lastStart := now
    calls := if admitted then s.calls ++ [⟨s.openings, probe⟩] else s.calls
    probes := if admitted && probe then s.probes + 1 else s.probes }

/-- The function of a call resolves. -/
def succeed (i : ℕ) (now : ℤ) : RpcState :=
  { s with
    breaker := s.breaker.onSuccess
    clock := now
    calls := s.calls.eraseIdx i
    failed := []
    probes := 0
    probeFailed := none }

/-- The call is the probe of the breaker as it was opened last. -/
def IsProbe (call : RpcCall) : Prop := call.probe = true ∧ call.openings = s.openings

instance (call : RpcCall) : Decidable (s.IsProbe call) := by unfold IsProbe; infer_instance

/-- The function of a call rejects. -/
def fail (i : ℕ) (call : RpcCall) (now : ℤ) : RpcState :=
  let breaker := s.breaker.onFailure opts now
  { s with
    breaker := breaker
    clock := now
    calls := s.calls.eraseIdx i
    failed := s.failed ++ [now]
    openings :=
      if s.breaker.state ≠ .opened ∧ breaker.state = .opened then s.openings + 1 else s.openings
    probes := if breaker.state = .halfOpen then s.probes else 0
    probeFailed := if s.IsProbe call then some now else s.probeFailed }

def step (s : RpcState) (label : RpcLabel) : Option RpcState :=
  if label.now < s.clock then none
  else
    match label with
    | .start now => some (s.start opts now)
    | .succeed i now => (s.calls[i]?).map fun _ => s.succeed i now
    | .fail i now => (s.calls[i]?).map fun call => s.fail opts i call now

/-! ## What a step does -/

variable {opts s} {s' : RpcState} {label : RpcLabel}

inductive Effect (opts : CircuitBreakerOptions) (s : RpcState) : RpcLabel → RpcState → Prop
  | starts (now : ℤ) : Effect opts s (.start now) (s.start opts now)
  | succeeds (i : ℕ) (now : ℤ) (call : RpcCall) (hcall : s.calls[i]? = some call) :
      Effect opts s (.succeed i now) (s.succeed i now)
  | fails (i : ℕ) (now : ℤ) (call : RpcCall) (hcall : s.calls[i]? = some call) :
      Effect opts s (.fail i now) (s.fail opts i call now)

theorem effect (hstep : s.step opts label = some s') :
    s.clock ≤ label.now ∧ Effect opts s label s' := by
  unfold step at hstep
  split_ifs at hstep with hclock
  refine ⟨not_lt.mp hclock, ?_⟩
  cases label with
  | start now =>
    cases hstep
    exact .starts now
  | succeed i now =>
    obtain ⟨call, hcall, rfl⟩ := Option.map_eq_some_iff.mp hstep
    exact .succeeds i now call hcall
  | fail i now =>
    obtain ⟨call, hcall, rfl⟩ := Option.map_eq_some_iff.mp hstep
    exact .fails i now call hcall

end RpcState

/-! ## The breaker at a start and at a failure -/

namespace CircuitBreaker

variable (opts : CircuitBreakerOptions) (now : ℤ) (breaker : CircuitBreaker)

/-- The breaker refuses a call at a time. -/
def Refuses : Prop := (breaker.callStart opts now).2 = false

variable {opts now breaker}

theorem callStart_failures :
    (breaker.callStart opts now).1.failures =
      breaker.failures.filter fun t => now - opts.windowMs ≤ t := by
  rw [callStart]
  split_ifs <;> rfl

theorem callStart_openedAt : (breaker.callStart opts now).1.openedAt = breaker.openedAt := by
  rw [callStart]
  split_ifs <;> rfl

theorem callStart_of_not_opened (opts : CircuitBreakerOptions) (now : ℤ)
    (hstate : breaker.state ≠ .opened) :
    (breaker.callStart opts now).2 = true ∧
      (breaker.callStart opts now).1.state = breaker.state := by
  rw [callStart, if_neg (show (breaker.evictOldFailures opts now).state ≠ .opened from hstate)]
  exact ⟨rfl, rfl⟩

theorem callStart_of_opened (opts : CircuitBreakerOptions) (now : ℤ)
    (hstate : breaker.state = .opened) :
    (now - breaker.openedAt < opts.resetTimeoutMs ∧ breaker.Refuses opts now ∧
        (breaker.callStart opts now).1.state = .opened) ∨
      (opts.resetTimeoutMs ≤ now - breaker.openedAt ∧ (breaker.callStart opts now).2 = true ∧
        (breaker.callStart opts now).1.state = .halfOpen) := by
  rw [Refuses, callStart,
    if_pos (show (breaker.evictOldFailures opts now).state = .opened from hstate)]
  by_cases hreset : opts.resetTimeoutMs ≤ now - breaker.openedAt
  · rw [if_pos (show (opts.resetTimeoutMs : ℤ) ≤
      now - (breaker.evictOldFailures opts now).openedAt from hreset)]
    exact Or.inr ⟨hreset, rfl, rfl⟩
  · rw [if_neg (show ¬ (opts.resetTimeoutMs : ℤ) ≤
      now - (breaker.evictOldFailures opts now).openedAt from hreset)]
    exact Or.inl ⟨not_le.mp hreset, rfl, hstate⟩

theorem onFailure_trips (now : ℤ)
    (htrips : opts.failureThreshold ≤ breaker.failures.length + 1) :
    breaker.onFailure opts now = ⟨.opened, breaker.failures ++ [now], now⟩ := by
  rw [onFailure, if_pos]
  rw [List.length_append]
  exact htrips

theorem onFailure_counts (now : ℤ)
    (hcounts : ¬ opts.failureThreshold ≤ breaker.failures.length + 1) :
    breaker.onFailure opts now = { breaker with failures := breaker.failures ++ [now] } := by
  rw [onFailure, if_neg]
  rw [List.length_append]
  exact hcounts

end CircuitBreaker

end Fluxora.Rpc
