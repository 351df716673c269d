/-
# Limiters of open connections

Event streams and long polls have a limiter each, of the same make: a connection is counted for
its address, for its API key if it has one, and for all. It is accepted when none of the three
counts has reached its limit, and the accepted connection has a function that gives its place
back.
-/

import Fluxora.Lib.JsText
import Fluxora.Lib.Tally
import Fluxora.Lib.Transition

namespace Fluxora.Streams

open Lib Lib.JsText Lib.Tally Lib.Transition

/-! ## Limits -/

structure ConnectionLimits where
  maxConnectionsPerIp : ℕ
  maxConnectionsPerApiKey : ℕ
  maxGlobalConnections : ℕ
  maxConnectionDurationMs : ℕ
  retryAfterSeconds : ℕ
  deriving DecidableEq

/-- The variables of the process. -/
abbrev Env := String → Option (List Char)

def maxSafeInteger : ℕ := 2 ^ 53 - 1

def readBoundedPositiveInteger (env : Env) (name : String) (fallback min max : ℕ) : ℕ :=
  match env name with
  | none => fallback
  | some raw =>
    let trimmed := trim raw
    if trimmed = [] then fallback
    else if trimmed.all Char.isDigit = false then fallback
    else
      let parsed := DigitText.value trimmed
      if parsed ≤ maxSafeInteger ∧ min ≤ parsed ∧ parsed ≤ max then parsed else fallback

def maxConnectionLimit : ℕ := 100000

def maxConnectionDuration : ℕ := 86400000

def maxRetryAfterSeconds : ℕ := 86400

def resolveSseConnectionLimits (env : Env) : ConnectionLimits where
  maxConnectionsPerIp :=
    readBoundedPositiveInteger env "SSE_MAX_CONNECTIONS_PER_IP" 10 1 maxConnectionLimit
  maxConnectionsPerApiKey :=
    readBoundedPositiveInteger env "SSE_MAX_CONNECTIONS_PER_API_KEY" 50 1 maxConnectionLimit
  maxGlobalConnections :=
    readBoundedPositiveInteger env "SSE_MAX_GLOBAL_CONNECTIONS" 1000 1 maxConnectionLimit
  maxConnectionDurationMs :=
    readBoundedPositiveInteger env "SSE_MAX_CONNECTION_DURATION_MS" (30 * 60 * 1000) 1
      maxConnectionDuration
  retryAfterSeconds :=
    readBoundedPositiveInteger env "SSE_RETRY_AFTER_SECONDS" 15 1 maxRetryAfterSeconds

/-- The limits of the event streams are the defaults of the long polls, all but the
duration. -/
def resolveLongPollConnectionLimits (env : Env) : ConnectionLimits where
  maxConnectionsPerIp :=
    readBoundedPositiveInteger env "LONG_POLL_MAX_CONNECTIONS_PER_IP"
      (resolveSseConnectionLimits env).maxConnectionsPerIp 1 maxConnectionLimit
  maxConnectionsPerApiKey :=
    readBoundedPositiveInteger env "LONG_POLL_MAX_CONNECTIONS_PER_API_KEY"
      (resolveSseConnectionLimits env).maxConnectionsPerApiKey 1 maxConnectionLimit
  maxGlobalConnections :=
    readBoundedPositiveInteger env "LONG_POLL_MAX_GLOBAL_CONNECTIONS"
      (resolveSseConnectionLimits env).maxGlobalConnections 1 maxConnectionLimit
  maxConnectionDurationMs :=
    readBoundedPositiveInteger env "LONG_POLL_MAX_CONNECTION_DURATION_MS" 30000 1
      maxConnectionDuration
  retryAfterSeconds :=
    readBoundedPositiveInteger env "LONG_POLL_RETRY_AFTER_SECONDS"
      (resolveSseConnectionLimits env).retryAfterSeconds 1 maxRetryAfterSeconds

variable (env : Env)

theorem readBoundedPositiveInteger_within (name : String) {fallback min max : ℕ}
    (hmin : min ≤ fallback) (hmax : fallback ≤ max) :
    min ≤ readBoundedPositiveInteger env name fallback min max ∧
      readBoundedPositiveInteger env name fallback min max ≤ max := by
  rw [readBoundedPositiveInteger]
  cases env name with
  | none => exact ⟨hmin, hmax⟩
  | some =>
    dsimp only
    split_ifs with _ _ hparsed
    · exact ⟨hmin, hmax⟩
    · exact ⟨hmin, hmax⟩
    · exact hparsed.2
    · exact ⟨hmin, hmax⟩

/-- Limits as `limits`, or stricter. -/
def ConnectionLimits.AtMost (own limits : ConnectionLimits) : Prop :=
  own.maxConnectionsPerIp ≤ limits.maxConnectionsPerIp ∧
    own.maxConnectionsPerApiKey ≤ limits.maxConnectionsPerApiKey ∧
    own.maxGlobalConnections ≤ limits.maxGlobalConnections

instance (own limits : ConnectionLimits) : Decidable (own.AtMost limits) := instDecidableAnd

/-- The greatest limits that the variables can set. -/
def greatestLimits : ConnectionLimits :=
  ⟨maxConnectionLimit, maxConnectionLimit, maxConnectionLimit, maxConnectionDuration,
    maxRetryAfterSeconds⟩

theorem resolveSseConnectionLimits_atMost :
    (resolveSseConnectionLimits env).AtMost greatestLimits :=
  ⟨(readBoundedPositiveInteger_within env _ (by decide) (by decide)).2,
    (readBoundedPositiveInteger_within env _ (by decide) (by decide)).2,
    (readBoundedPositiveInteger_within env _ (by decide) (by decide)).2⟩

theorem resolveLongPollConnectionLimits_atMost :
    (resolveLongPollConnectionLimits env).AtMost greatestLimits := by
  have hip : 1 ≤ (resolveSseConnectionLimits env).maxConnectionsPerIp :=
    (readBoundedPositiveInteger_within env _ (by decide) (by decide)).1
  have hkey : 1 ≤ (resolveSseConnectionLimits env).maxConnectionsPerApiKey :=
    (readBoundedPositiveInteger_within env _ (by decide) (by decide)).1
  have hglobal : 1 ≤ (resolveSseConnectionLimits env).maxGlobalConnections :=
    (readBoundedPositiveInteger_within env _ (by decide) (by decide)).1
  obtain ⟨hipMax, hkeyMax, hglobalMax⟩ := resolveSseConnectionLimits_atMost env
  exact ⟨(readBoundedPositiveInteger_within env _ hip hipMax).2,
    (readBoundedPositiveInteger_within env _ hkey hkeyMax).2,
    (readBoundedPositiveInteger_within env _ hglobal hglobalMax).2⟩

/-! ## The limiter -/

inductive ConnectionRejectionReason
  | perIpLimit
  | perKeyLimit
  | globalLimit
  deriving DecidableEq

/-- A connection that was accepted, with what its release function remembers. -/
structure AcceptedConnection where
  ip : List Char
  apiKey : Option (List Char)
  acceptedAt : ℤ
  limits : ConnectionLimits
  /-- The time that is left to a timer, if there is one. -/
  timer : Option ℕ
  released : Bool
  deriving DecidableEq

structure ConnectionRejection where
  reason : ConnectionRejectionReason
  message : String
  limits : ConnectionLimits
  retryAfterSeconds : ℕ
  activeConnections : ℕ
  activeConnectionsForIp : ℕ
  deriving DecidableEq

inductive ConnectionAttempt
  | ok (connection : AcceptedConnection)
  | rejected (rejection : ConnectionRejection)
  deriving DecidableEq

structure ConnectionLimiter where
  activeConnectionsByIp : CountTable (List Char)
  activeConnections : ℕ
  activeConnectionsByApiKey : CountTable (List Char)

/-- What the two limiters do not share: how they call a connection, and their timer. -/
structure LimiterKind where
  noun : String
  timer : ConnectionLimits → Option ℕ

def sseLimiter : LimiterKind where
  noun := "SSE"
  timer limits :=
    if limits.maxConnectionDurationMs > 0 then some limits.maxConnectionDurationMs else none

def longPollLimiter : LimiterKind where
  noun := "long-polling"
  timer _ := none

def normalizeApiKey (apiKey : Option (List Char)) : Option (List Char) :=
  match apiKey with
  | none => none
  | some key => if (trim key).length > 0 then some (trim key) else none

def normalizeIp (ip : List Char) : List Char :=
  if (trim ip).length > 0 then trim ip else "unknown".toList

namespace ConnectionLimiter

def empty : ConnectionLimiter := ⟨fun _ => none, 0, fun _ => none⟩

variable (l : ConnectionLimiter)

/-- The count of a key, if there is one, has reached its limit. -/
def keyIsFull (limits : ConnectionLimits) (apiKey : Option (List Char)) : Bool :=
  apiKey.any fun key => count l.activeConnectionsByApiKey key ≥ limits.maxConnectionsPerApiKey

/-- The limiter with one connection more. -/
def enter (ip : List Char) (apiKey : Option (List Char)) : ConnectionLimiter where
  activeConnectionsByIp := incr l.activeConnectionsByIp ip
  activeConnections := l.activeConnections + 1
  activeConnectionsByApiKey :=
    match apiKey with
    | some key => incr l.activeConnectionsByApiKey key
    | none => l.activeConnectionsByApiKey

/-- The limiter with one connection less. -/
def leave (ip : List Char) (apiKey : Option (List Char)) : ConnectionLimiter where
  activeConnectionsByIp := decr l.activeConnectionsByIp ip
  activeConnections := l.activeConnections - 1 -- never below zero
  activeConnectionsByApiKey :=
    match apiKey with
    | some key => decr l.activeConnectionsByApiKey key
    | none => l.activeConnectionsByApiKey

/-- Check the three limits and reserve a place. -/
def tryAcquire (kind : LimiterKind) (now : ℤ) (ip : List Char) (limits : ConnectionLimits)
    (apiKey : Option (List Char)) : ConnectionAttempt × ConnectionLimiter :=
  let normalizedIp := normalizeIp ip
  let normalizedKey := normalizeApiKey apiKey
  let activeConnectionsForIp := count l.activeConnectionsByIp normalizedIp
  let reject (reason : ConnectionRejectionReason) (message : String) :=
    (ConnectionAttempt.rejected ⟨reason, message, limits, limits.retryAfterSeconds,
      l.activeConnections, activeConnectionsForIp⟩, l)
  if activeConnectionsForIp ≥ limits.maxConnectionsPerIp then
    reject .perIpLimit ("Too many active " ++ kind.noun ++ " connections from this IP address")
  else if l.keyIsFull limits normalizedKey then
    reject .perKeyLimit ("Too many active " ++ kind.noun ++ " connections for this API key")
  else if l.activeConnections ≥ limits.maxGlobalConnections then
    reject .globalLimit ("Too many active " ++ kind.noun ++ " connections")
  else
    (.ok ⟨normalizedIp, normalizedKey, now, limits, kind.timer limits, false⟩,
      l.enter normalizedIp normalizedKey)

/-- The release function of an accepted connection. -/
def release (connection : AcceptedConnection) : AcceptedConnection × ConnectionLimiter :=
  if connection.released then (connection, l)
  else
    ({ connection with released := true, timer := none },
      l.leave connection.ip connection.apiKey)

end ConnectionLimiter

def tryAcquireSseConnection (l : ConnectionLimiter) :
    ℤ → List Char → ConnectionLimits → Option (List Char) → ConnectionAttempt × ConnectionLimiter :=
  l.tryAcquire sseLimiter

def tryAcquireLongPollConnection (l : ConnectionLimiter) :
    ℤ → List Char → ConnectionLimits → Option (List Char) → ConnectionAttempt × ConnectionLimiter :=
  l.tryAcquire longPollLimiter

/-! ## Runs -/

/-- The limiter with all connections it has accepted, in their order. -/
structure LimiterState where
  limiter : ConnectionLimiter
  accepted : List AcceptedConnection

/-- A connection is attempted, or the release function of an accepted one is called: by the
route, or by its timer. -/
inductive LimiterCall
  | acquire (now : ℤ) (ip : List Char) (limits : ConnectionLimits) (apiKey : Option (List Char))
  | release (i : ℕ)
  | timeout (i : ℕ)

/-- The limits of a call are as `limits`, or stricter. -/
def LimiterCall.LimitsAtMost (limits : ConnectionLimits) : LimiterCall → Prop
  | .acquire _ _ own _ => own.AtMost limits
  | .release _ => True
  | .timeout _ => True

namespace LimiterState

def initial : LimiterState := ⟨ConnectionLimiter.empty, []⟩

variable (s : LimiterState)

def attempted (attempt : ConnectionAttempt) (limiter : ConnectionLimiter) : LimiterState :=
  match attempt with
  | .ok connection => ⟨limiter, s.accepted ++ [connection]⟩
  | .rejected _ => ⟨limiter, s.accepted⟩

def released (i : ℕ) (connection : AcceptedConnection) : LimiterState :=
  ⟨(s.limiter.release connection).2, s.accepted.set i (s.limiter.release connection).1⟩

def step (kind : LimiterKind) (s : LimiterState) : LimiterCall → Option LimiterState
  | .acquire now ip limits apiKey =>
    let result := s.limiter.tryAcquire kind now ip limits apiKey
    some (s.attempted result.1 result.2)
  | .release i => s.accepted[i]?.map (s.released i)
  | .timeout i =>
    (s.accepted[i]?.filter fun connection => connection.timer.isSome).map (s.released i)

end LimiterState

/-- The group of an address, for a connection that has not been released. -/
def AcceptedConnection.ipGroup (connection : AcceptedConnection) : Option (List Char) :=
  if connection.released then none else some connection.ip

def AcceptedConnection.keyGroup (connection : AcceptedConnection) : Option (List Char) :=
  if connection.released then none else connection.apiKey

def AcceptedConnection.group (connection : AcceptedConnection) : Option Unit :=
  if connection.released then none else some ()

namespace LimiterState

variable (s : LimiterState)

/-- The counters are the numbers of accepted connections that have not been released, of each
group and of all, and no zero is kept. -/
structure Accounts : Prop where
  global : s.limiter.activeConnections = members AcceptedConnection.group () s.accepted
  perIp : Counts s.limiter.activeConnectionsByIp AcceptedConnection.ipGroup s.accepted
  perKey : Counts s.limiter.activeConnectionsByApiKey AcceptedConnection.keyGroup s.accepted

/-- No counter is above its limit. -/
structure Within (limits : ConnectionLimits) : Prop where
  global : s.limiter.activeConnections ≤ limits.maxGlobalConnections
  perIp : ∀ ip, count s.limiter.activeConnectionsByIp ip ≤ limits.maxConnectionsPerIp
  perKey : ∀ key, count s.limiter.activeConnectionsByApiKey key ≤ limits.maxConnectionsPerApiKey

end LimiterState

/-! ## One call -/

namespace ConnectionLimiter

variable {l : ConnectionLimiter} {kind : LimiterKind} {now : ℤ} {ip : List Char}
  {limits : ConnectionLimits} {apiKey : Option (List Char)}

theorem tryAcquire_cases (l : ConnectionLimiter) (kind : LimiterKind) (now : ℤ) (ip : List Char)
    (limits : ConnectionLimits) (apiKey : Option (List Char)) :
    (∃ rejection, l.tryAcquire kind now ip limits apiKey = (.rejected rejection, l)) ∨
      count l.activeConnectionsByIp (normalizeIp ip) < limits.maxConnectionsPerIp ∧
      l.keyIsFull limits (normalizeApiKey apiKey) = false ∧
      l.activeConnections < limits.maxGlobalConnections ∧
      l.tryAcquire kind now ip limits apiKey =
        (.ok ⟨normalizeIp ip, normalizeApiKey apiKey, now, limits, kind.timer limits, false⟩,
          l.enter (normalizeIp ip) (normalizeApiKey apiKey)) := by
  rw [tryAcquire]
  dsimp only
  split_ifs with hip hkey hglobal
  · exact Or.inl ⟨_, rfl⟩
  · exact Or.inl ⟨_, rfl⟩
  · exact Or.inl ⟨_, rfl⟩
  · exact Or.inr ⟨not_le.mp hip, Bool.eq_false_iff.mpr hkey, not_le.mp hglobal, rfl⟩

variable {connection : AcceptedConnection}

theorem release_of_released (h : connection.released = true) :
    l.release connection = (connection, l) := by
  rw [release, if_pos h]

theorem release_of_not_released (h : connection.released = false) :
    l.release connection = ({ connection with released := true, timer := none },
      l.leave connection.ip connection.apiKey) := by
  rw [release, if_neg (by rw [h]; exact Bool.false_ne_true)]

end ConnectionLimiter

namespace LimiterState

variable {kind : LimiterKind} {s : LimiterState} {connection : AcceptedConnection} {i : ℕ}

theorem accounts_initial : initial.Accounts := ⟨rfl, Counts.nil, Counts.nil⟩

theorem Accounts.enter (h : s.Accounts) (hnew : connection.released = false) :
    Accounts ⟨s.limiter.enter connection.ip connection.apiKey, s.accepted ++ [connection]⟩ where
  global := by
    change s.limiter.activeConnections + 1 = _
    rw [members_append_singleton, AcceptedConnection.group, hnew, h.global]
    rfl
  perIp := h.perIp.add (by rw [AcceptedConnection.ipGroup, hnew]; rfl)
  perKey := by
    have hgroup : connection.keyGroup = connection.apiKey := by
      rw [AcceptedConnection.keyGroup, hnew]
      rfl
    cases hkey : connection.apiKey with
    | none => exact h.perKey.add_none (hgroup.trans hkey)
    | some => exact h.perKey.add (hgroup.trans hkey)

theorem Accounts.released (h : s.Accounts) (hget : s.accepted[i]? = some connection) :
    (s.released i connection).Accounts := by
  cases hdone : connection.released with
  | true =>
    have hsame : s.accepted.set i connection = s.accepted := by
      obtain ⟨hlt, hmem⟩ := List.getElem?_eq_some_iff.mp hget
      rw [← hmem, List.set_getElem_self]
    rw [LimiterState.released, ConnectionLimiter.release_of_released hdone, hsame]
    exact h
  | false =>
    rw [LimiterState.released, ConnectionLimiter.release_of_not_released hdone]
    refine ⟨?_, ?_, ?_⟩
    · have hset := members_set AcceptedConnection.group ()
        { connection with released := true, timer := none } hget
      have hbefore : connection.group = some () := by
        rw [AcceptedConnection.group, hdone]
        rfl
      rw [hbefore, ← h.global] at hset
      simp only [AcceptedConnection.group, if_true, reduceCtorEq, if_false, Nat.add_zero] at hset
      exact Nat.sub_eq_of_eq_add hset.symm
    · exact h.perIp.leave hget (by rw [AcceptedConnection.ipGroup, hdone]; rfl) rfl
    · have hgroup : connection.keyGroup = connection.apiKey := by
        rw [AcceptedConnection.keyGroup, hdone]
        rfl
      cases hkey : connection.apiKey with
      | none => exact h.perKey.stay hget (hgroup.trans hkey).symm
      | some => exact h.perKey.leave hget (hgroup.trans hkey) rfl

variable {call : LimiterCall} {s' : LimiterState}

theorem Accounts.step (h : s.Accounts) (hstep : step kind s call = some s') : s'.Accounts := by
  cases call with
  | acquire now ip limits apiKey =>
    cases hstep
    rcases s.limiter.tryAcquire_cases kind now ip limits apiKey with
      ⟨rejection, heq⟩ | ⟨-, -, -, heq⟩
    · rw [heq]
      exact h
    · rw [heq]
      have hnew : AcceptedConnection.released ⟨normalizeIp ip, normalizeApiKey apiKey, now,
          limits, kind.timer limits, false⟩ = false := rfl
      exact h.enter hnew
  | release =>
    obtain ⟨connection, hget, rfl⟩ := Option.map_eq_some_iff.mp hstep
    exact h.released hget
  | timeout =>
    obtain ⟨connection, hget, rfl⟩ := Option.map_eq_some_iff.mp hstep
    exact h.released (Option.filter_eq_some_iff.mp hget).1

/-! ## The limits -/

theorem within_initial (limits : ConnectionLimits) : initial.Within limits :=
  ⟨Nat.zero_le _, fun _ => Nat.zero_le _, fun _ => Nat.zero_le _⟩

variable {t : CountTable (List Char)}

theorem count_decr_le (k k' : List Char) : count (decr t k) k' ≤ count t k' := by
  by_cases hk : k' = k
  · rw [hk, count_decr_self]
    exact Nat.sub_le _ _
  · rw [count_decr_of_ne hk]

theorem Within.released {limits : ConnectionLimits} (h : s.Within limits) :
    (s.released i connection).Within limits := by
  cases hdone : connection.released with
  | true =>
    rw [LimiterState.released, ConnectionLimiter.release_of_released hdone]
    exact ⟨h.global, h.perIp, h.perKey⟩
  | false =>
    rw [LimiterState.released, ConnectionLimiter.release_of_not_released hdone]
    refine ⟨?_, fun ip => (count_decr_le _ _).trans (h.perIp ip), fun key => ?_⟩
    · have hglobal := h.global
      change s.limiter.activeConnections - 1 ≤ _
      omega
    · refine le_trans ?_ (h.perKey key)
      cases hkey : connection.apiKey with
      | none => simp only [ConnectionLimiter.leave]; exact le_rfl
      | some => exact count_decr_le _ _

theorem count_incr_le {k : List Char} {bound : ℕ} (hall : ∀ k', count t k' ≤ bound)
    (hroom : count t k < bound) (k' : List Char) : count (incr t k) k' ≤ bound := by
  by_cases hk : k' = k
  · rw [hk, count_incr_self]
    exact hroom
  · rw [count_incr_of_ne hk]
    exact hall k'

theorem Within.step {limits : ConnectionLimits} (h : s.Within limits)
    (hlimits : call.LimitsAtMost limits) (hstep : step kind s call = some s') :
    s'.Within limits := by
  cases call with
  | acquire now ip own apiKey =>
    cases hstep
    obtain ⟨hownIp, hownKey, hownGlobal⟩ := hlimits
    rcases s.limiter.tryAcquire_cases kind now ip own apiKey with
      ⟨rejection, heq⟩ | ⟨hip, hkeyFull, hglobal, heq⟩
    · rw [heq]
      exact ⟨h.global, h.perIp, h.perKey⟩
    · rw [heq]
      refine ⟨hglobal.trans_le hownGlobal, count_incr_le h.perIp (hip.trans_le hownIp), ?_⟩
      cases hkey : normalizeApiKey apiKey with
      | none => exact h.perKey
      | some =>
        rw [hkey, ConnectionLimiter.keyIsFull, Option.any_some, decide_eq_false_iff_not,
          not_le] at hkeyFull
        exact count_incr_le h.perKey (hkeyFull.trans_le hownKey)
  | release | timeout =>
    obtain ⟨connection, -, rfl⟩ := Option.map_eq_some_iff.mp hstep
    exact h.released

theorem step_of_rejected {now : ℤ} {ip : List Char} {limits : ConnectionLimits}
    {apiKey : Option (List Char)} {rejection : ConnectionRejection}
    (h : (s.limiter.tryAcquire kind now ip limits apiKey).1 = .rejected rejection) :
    step kind s (.acquire now ip limits apiKey) = some s := by
  rcases s.limiter.tryAcquire_cases kind now ip limits apiKey with
    ⟨rejection, heq⟩ | ⟨-, -, -, heq⟩
  · rw [step, heq]
    rfl
  · rw [heq] at h
    cases h

/-- Along every run of a limiter the counters are the numbers of accepted connections that
have not been released, and no zero is kept; they are never above the limits, as long as no
call brings greater ones; and a rejected attempt changes nothing. -/
theorem connections_accounted (kind : LimiterKind) {calls : List LimiterCall} {s : LimiterState}
    (hrun : run (step kind) initial calls = some s) :
    s.Accounts ∧
      (∀ limits, (∀ call ∈ calls, call.LimitsAtMost limits) → s.Within limits) ∧
      ∀ now ip limits apiKey rejection,
        (s.limiter.tryAcquire kind now ip limits apiKey).1 = .rejected rejection →
          step kind s (.acquire now ip limits apiKey) = some s := by
  refine ⟨?_, ?_, ?_⟩
  · exact invariant_of_run (fun _ _ _ h hstep => h.step hstep) accounts_initial hrun
  · intro limits hcalls
    have hreaches : Reaches (step kind) (fun _ call => call.LimitsAtMost limits) initial s :=
      Reaches.of_run (fun _ call hmem => hcalls call hmem) hrun
    exact Reaches.invariant (P := fun s => s.Within limits)
      (fun _ _ _ h hallowed hstep => h.step hallowed hstep) (within_initial limits) hreaches
  · intro now ip limits apiKey rejection h
    exact step_of_rejected h

/-- Two connections of an address and one more than its limit; the first is released twice. -/
def crowdedCalls : List LimiterCall :=
  let limits : ConnectionLimits := ⟨2, 2, 3, 1000, 15⟩
  [.acquire 0 "10.0.0.1".toList limits (some "key".toList),
    .acquire 1 " 10.0.0.1 ".toList limits none,
    .acquire 2 "10.0.0.1".toList limits none,
    .release 0, .timeout 1, .release 0]

theorem connections_accounted_crowded :
    ∃ s, run (step sseLimiter) initial crowdedCalls = some s ∧ s.Accounts ∧
      s.Within ⟨2, 2, 3, 1000, 15⟩ := by
  have hrun : ∃ s, run (step sseLimiter) initial crowdedCalls = some s := ⟨_, rfl⟩
  obtain ⟨s, hs⟩ := hrun
  obtain ⟨haccounts, hwithin, -⟩ := connections_accounted sseLimiter hs
  refine ⟨s, hs, haccounts, hwithin _ ?_⟩
  intro call hcall
  simp only [crowdedCalls, List.mem_cons, List.not_mem_nil, or_false] at hcall
  rcases hcall with rfl | rfl | rfl | rfl | rfl | rfl
  · exact ⟨le_rfl, le_rfl, le_rfl⟩
  · exact ⟨le_rfl, le_rfl, le_rfl⟩
  · exact ⟨le_rfl, le_rfl, le_rfl⟩
  · trivial
  · trivial
  · trivial

/-- The third attempt is rejected, and in the end nobody is connected. -/
example : (run (step sseLimiter) initial crowdedCalls).map
    (fun s => (s.accepted.length, s.limiter.activeConnections,
      s.limiter.activeConnectionsByIp "10.0.0.1".toList)) = some (2, 0, none) := by decide

end LimiterState

end Fluxora.Streams
