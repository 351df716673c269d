/-
# Exchanging ID tokens once

A call that has checked an ID token looks into the replay cache of its process, asks Redis to
claim the token, and records it in the cache when it is let through. The look, the claim and the
record are separate steps, and the steps of different calls come in any order, in any number of
processes with one Redis.

A call that gets no answer from Redis goes on as if its claim had been granted.
-/

import Fluxora.Auth.IdToken
import Fluxora.Lib.Transition

namespace Fluxora.Auth

open Lib Lib.Transition

/-! ## The cache of a process -/

/-- The keys of exchanged tokens with the times, in milliseconds, at which they expire. -/
abbrev ReplayCache := List (String × ℚ)

def replayCacheMaxSize : ℕ := 10000

def pruneExpiredReplayEntries (nowMs : ℕ) (cache : ReplayCache) : ReplayCache :=
  cache.filter fun entry => (nowMs : ℚ) < entry.2

/-- A full cache is left as it is. -/
def recordReplayEntry (nowMs : ℕ) (replayKey : String) (expiresAtMs : ℚ) (cache : ReplayCache) :
    ReplayCache :=
  let pruned := pruneExpiredReplayEntries nowMs cache
  if pruned.length ≥ replayCacheMaxSize then pruned
  else Properties.set replayKey expiresAtMs pruned

/-! ## Calls -/

/-- What a call knows once it has looked into the cache. -/
structure Look where
  exp : ℚ
  payload : Json
  nowMs : ℕ

/-- The seconds the token has left. -/
def Look.ttl (look : Look) : ℚ := look.exp - (look.nowMs / 1000 : ℕ)

/-- When the record of the call expires. -/
def Look.expiresAtMs (look : Look) : ℚ := look.nowMs + look.ttl * 1000

/-- Where a call is. -/
inductive ReplayPhase
  /-- The cache does not know the token. -/
  | looked (look : Look)
  /-- Redis has carried out the claim, and the answer is on its way. -/
  | claimed (look : Look) (added : Bool)
  /-- The token has been exchanged at a time. -/
  | succeeded (time : ℕ) (verified : VerifiedIdToken)
  | refused (error : IdTokenError)

structure ReplayCall where
  process : ℕ
  idToken : String
  phase : ReplayPhase

structure ReplayState where
  now : ℕ
  /-- The keys in Redis with the times at which they expire. -/
  redis : String → Option ℚ
  caches : ℕ → ReplayCache
  calls : ℕ → Option ReplayCall

def ReplayState.initial (now : ℕ) : ReplayState := ⟨now, fun _ => none, fun _ => [], fun _ => none⟩

/-- What decodes a token and digests it. -/
structure ReplayConfig where
  decode : Decode
  sha256 : String → String

def ReplayConfig.replayKey (cfg : ReplayConfig) (idToken : String) : String :=
  "fluxora:oidc_replay:" ++ cfg.sha256 idToken

def replayError : IdTokenError :=
  .rejected "Token replay detected: this token has already been exchanged"

inductive ReplayLabel
  | tick (ms : ℕ)
  /-- The sweep timer of a process. -/
  | sweep (process : ℕ)
  /-- A call checks a token and looks into the cache. -/
  | look (process call : ℕ) (env : ProviderEnv) (idToken : String)
  /-- Redis carries out the claim of a call. -/
  | claim (call : ℕ)
  /-- The answer of Redis reaches the call. -/
  | answer (call : ℕ)
  /-- The call learns that Redis is disabled or has failed. -/
  | fail (call : ℕ)
  /-- The client refuses a time to live that is not a whole number. -/
  | skip (call : ℕ)

section

variable (cfg : ReplayConfig)

def ReplayState.put (s : ReplayState) (call : ℕ) (next : ReplayCall) : ReplayState :=
  { s with calls := fun other => if other = call then some next else s.calls other }

/-- The call is let through and records the token. -/
def ReplayState.exchange (s : ReplayState) (call : ℕ) (current : ReplayCall) (look : Look) :
    ReplayState :=
  { s.put call { current with phase := .succeeded s.now (extractClaims look.payload) } with
    caches := fun process =>
      if process = current.process then
        recordReplayEntry s.now (cfg.replayKey current.idToken) look.expiresAtMs
          (s.caches process)
      else s.caches process }

/-- Whether a value is there and has not expired. -/
def isLive (now : ℕ) (expiresAt : Option ℚ) : Bool := expiresAt.any fun e => (now : ℚ) < e

/-- Where the first part of a call leads to. -/
def lookPhase (s : ReplayState) (process : ℕ) (env : ProviderEnv) (idToken : String) :
    ReplayPhase :=
  match checkIdToken cfg.decode env idToken with
  | .error error => .refused error
  | .ok (exp, payload) =>
    let look : Look := ⟨exp, payload, s.now⟩
    if look.ttl ≤ 0 then .refused (.rejected "OIDC ID token is expired")
    else if isLive s.now ((s.caches process).lookup (cfg.replayKey idToken)) then
      .refused replayError
    else .looked look

def replayStep (s : ReplayState) : ReplayLabel → Option ReplayState
  | .tick ms => some { s with now := s.now + ms }
  | .sweep process =>
    some { s with
      caches := fun other =>
        if other = process then pruneExpiredReplayEntries s.now (s.caches other)
        else s.caches other }
  | .look process call env idToken =>
    match s.calls call with
    | some _ => none
    | none => some (s.put call ⟨process, idToken, lookPhase cfg s process env idToken⟩)
  | .claim call =>
    match s.calls call with
    | some ⟨process, idToken, .looked look⟩ =>
      if (look.ttl * 1000).den ≠ 1 then none
      else
        let key := cfg.replayKey idToken
        if isLive s.now (s.redis key) then
          some (s.put call ⟨process, idToken, .claimed look false⟩)
        else
          some { s.put call ⟨process, idToken, .claimed look true⟩ with
            redis := fun other =>
              if other = key then some (s.now + look.ttl * 1000) else s.redis other }
    | _ => none
  | .answer call =>
    match s.calls call with
    | some ⟨process, idToken, .claimed look true⟩ =>
      some (s.exchange cfg call ⟨process, idToken, .claimed look true⟩ look)
    | some ⟨process, idToken, .claimed _ false⟩ =>
      some (s.put call ⟨process, idToken, .refused replayError⟩)
    | _ => none
  | .fail call =>
    match s.calls call with
    | some ⟨process, idToken, .looked look⟩ =>
      some (s.exchange cfg call ⟨process, idToken, .looked look⟩ look)
    | some ⟨process, idToken, .claimed look added⟩ =>
      some (s.exchange cfg call ⟨process, idToken, .claimed look added⟩ look)
    | _ => none
  | .skip call =>
    match s.calls call with
    | some ⟨process, idToken, .looked look⟩ =>
      if (look.ttl * 1000).den ≠ 1 then
        some (s.exchange cfg call ⟨process, idToken, .looked look⟩ look)
      else none
    | _ => none

end

/-! ## What a step can do -/

/-- What a call in flight has looked up. -/
def ReplayPhase.inFlight : ReplayPhase → Option Look
  | .looked look => some look
  | .claimed look _ => some look
  | _ => none

/-- Redis has granted the claim, or the token has been exchanged. -/
def ReplayPhase.granted : ReplayPhase → Bool
  | .claimed _ added => added
  | .succeeded _ _ => true
  | _ => false

variable {cfg : ReplayConfig} {s s' : ReplayState} {label : ReplayLabel}

/-- The steps of the system. -/
inductive ReplayMove (cfg : ReplayConfig) (s : ReplayState) : ReplayLabel → ReplayState → Prop
  | tick (ms : ℕ) : ReplayMove cfg s (.tick ms) { s with now := s.now + ms }
  | sweep (process : ℕ) (caches : ℕ → ReplayCache)
      (pruned : ∀ other, caches other = s.caches other ∨
        caches other = pruneExpiredReplayEntries s.now (s.caches other)) :
      ReplayMove cfg s (.sweep process) { s with caches }
  | turnedAway (process call : ℕ) (env : ProviderEnv) (idToken : String) (error : IdTokenError)
      (fresh : s.calls call = none) :
      ReplayMove cfg s (.look process call env idToken)
        (s.put call ⟨process, idToken, .refused error⟩)
  | looked (process call : ℕ) (env : ProviderEnv) (idToken : String) (look : Look)
      (fresh : s.calls call = none) (time : look.nowMs = s.now)
      (checked : ∃ kid payload, decodeIdToken cfg.decode idToken = .ok (kid, look.exp, payload))
      (unknown : isLive s.now ((s.caches process).lookup (cfg.replayKey idToken)) = false) :
      ReplayMove cfg s (.look process call env idToken)
        (s.put call ⟨process, idToken, .looked look⟩)
  | granted (call : ℕ) (current : ReplayCall) (look : Look)
      (present : s.calls call = some current) (phase : current.phase = .looked look)
      (whole : (look.ttl * 1000).den = 1)
      (free : isLive s.now (s.redis (cfg.replayKey current.idToken)) = false) :
      ReplayMove cfg s (.claim call)
        { s.put call { current with phase := .claimed look true } with
          redis := fun other =>
            if other = cfg.replayKey current.idToken then some (s.now + look.ttl * 1000)
            else s.redis other }
  | denied (call : ℕ) (current : ReplayCall) (look : Look)
      (present : s.calls call = some current) (phase : current.phase = .looked look) :
      ReplayMove cfg s (.claim call) (s.put call { current with phase := .claimed look false })
  | refused (call : ℕ) (current : ReplayCall) (look : Look)
      (present : s.calls call = some current) (phase : current.phase = .claimed look false) :
      ReplayMove cfg s (.answer call) (s.put call { current with phase := .refused replayError })
  | answered (call : ℕ) (current : ReplayCall) (look : Look)
      (present : s.calls call = some current) (phase : current.phase = .claimed look true) :
      ReplayMove cfg s (.answer call) (s.exchange cfg call current look)
  | unanswered (call : ℕ) (current : ReplayCall) (look : Look)
      (present : s.calls call = some current) (phase : current.phase.inFlight = some look) :
      ReplayMove cfg s (.fail call) (s.exchange cfg call current look)
  | skipped (call : ℕ) (current : ReplayCall) (look : Look)
      (present : s.calls call = some current) (phase : current.phase = .looked look)
      (broken : (look.ttl * 1000).den ≠ 1) :
      ReplayMove cfg s (.skip call) (s.exchange cfg call current look)

theorem lookPhase_cases (cfg : ReplayConfig) (s : ReplayState) (process : ℕ) (env : ProviderEnv)
    (idToken : String) :
    (∃ error, lookPhase cfg s process env idToken = .refused error) ∨
      ∃ look : Look, lookPhase cfg s process env idToken = .looked look ∧ look.nowMs = s.now ∧
        (∃ kid payload, decodeIdToken cfg.decode idToken = .ok (kid, look.exp, payload)) ∧
        isLive s.now ((s.caches process).lookup (cfg.replayKey idToken)) = false := by
  unfold lookPhase
  split
  · exact Or.inl ⟨_, rfl⟩
  · rename_i exp payload hchecked
    obtain ⟨kid, hdecoded⟩ := checkIdToken_ok hchecked
    dsimp only
    split_ifs with hexpired hlive
    · exact Or.inl ⟨_, rfl⟩
    · exact Or.inl ⟨_, rfl⟩
    · exact Or.inr ⟨_, rfl, rfl, ⟨kid, payload, hdecoded⟩, Bool.eq_false_iff.mpr hlive⟩

theorem replayMove_of_step (h : replayStep cfg s label = some s') : ReplayMove cfg s label s' := by
  cases label with
  | tick ms =>
    cases h
    exact .tick ms
  | sweep process =>
    cases h
    refine .sweep process _ fun other => ?_
    split_ifs
    · exact Or.inr rfl
    · exact Or.inl rfl
  | look process call env idToken =>
    simp only [replayStep] at h
    split at h
    · cases h
    · rename_i hfresh
      cases h
      rcases lookPhase_cases cfg s process env idToken with
        ⟨error, hphase⟩ | ⟨look, hphase, htime, hchecked, hunknown⟩
      · rw [hphase]
        exact .turnedAway process call env idToken error hfresh
      · rw [hphase]
        exact .looked process call env idToken look hfresh htime hchecked hunknown
  | claim call =>
    simp only [replayStep] at h
    split at h
    · rename_i process idToken look hpresent
      split_ifs at h with hbroken hlive
      · cases h
        exact .denied call ⟨process, idToken, .looked look⟩ look hpresent rfl
      · cases h
        exact .granted call ⟨process, idToken, .looked look⟩ look hpresent rfl
          (not_not.mp hbroken) (Bool.eq_false_iff.mpr hlive)
    · cases h
  | answer call =>
    simp only [replayStep] at h
    split at h
    · rename_i process idToken look hpresent
      cases h
      exact .answered call _ look hpresent rfl
    · rename_i process idToken look hpresent
      cases h
      exact .refused call ⟨process, idToken, .claimed look false⟩ look hpresent rfl
    · cases h
  | fail call =>
    simp only [replayStep] at h
    split at h
    · rename_i process idToken look hpresent
      cases h
      exact .unanswered call _ look hpresent rfl
    · rename_i process idToken look added hpresent
      cases h
      exact .unanswered call _ look hpresent rfl
    · cases h
  | skip call =>
    simp only [replayStep] at h
    split at h
    · rename_i process idToken look hpresent
      split_ifs at h with hbroken
      cases h
      exact .skipped call _ look hpresent rfl hbroken
    · cases h

/-! ## Calls after a step -/

/-- The call is there and has the property. -/
def ReplayState.Has (P : ReplayCall → Prop) (s : ReplayState) (call : ℕ) : Prop :=
  ∃ current, s.calls call = some current ∧ P current

variable {P : ReplayCall → Prop} {next : ReplayCall}

theorem ReplayState.has_put {call other : ℕ} :
    (s.put call next).Has P other ↔ other = call ∧ P next ∨ other ≠ call ∧ s.Has P other := by
  unfold ReplayState.Has ReplayState.put
  by_cases hother : other = call
  · simp [hother]
  · simp [hother]

theorem ReplayState.has_of_calls {call other : ℕ} (hcalls : s'.calls = (s.put call next).calls) :
    s'.Has P other ↔ other = call ∧ P next ∨ other ≠ call ∧ s.Has P other := by
  rw [ReplayState.Has, hcalls]
  exact ReplayState.has_put

theorem ReplayMove.exists_call (move : ReplayMove cfg s label s') :
    ∃ call, ∀ P other, other ≠ call → (s'.Has P other ↔ s.Has P other) := by
  have hput : ∀ {call : ℕ} {next : ReplayCall}, s'.calls = (s.put call next).calls →
      ∃ call, ∀ P other, other ≠ call → (s'.Has P other ↔ s.Has P other) := by
    intro call next hcalls
    refine ⟨call, fun P other hother => ?_⟩
    exact (ReplayState.has_of_calls hcalls).trans (by simp [hother])
  cases move with
  | tick | sweep => exact ⟨0, fun P other _ => Iff.rfl⟩
  | turnedAway | looked | granted | denied | refused | answered | unanswered | skipped =>
    exact hput rfl

theorem ReplayMove.now_le (move : ReplayMove cfg s label s') : s.now ≤ s'.now := by
  cases move with
  | tick => exact Nat.le_add_right _ _
  | _ => exact le_rfl

theorem ReplayMove.now_lt (move : ReplayMove cfg s label s') {e : ℚ}
    (h : (s'.now : ℚ) < e) : (s.now : ℚ) < e :=
  lt_of_le_of_lt (by exact_mod_cast move.now_le) h

/-! ## A call on its own -/

/-- The check for replays as far as it does not ask Redis. -/
def checkReplayCache (cfg : ReplayConfig) (s : ReplayState) (process : ℕ) (idToken : String)
    (exp : ℚ) : Except String Unit :=
  if exp - (s.now / 1000 : ℕ) ≤ 0 then .error "OIDC ID token is expired"
  else if isLive s.now ((s.caches process).lookup (cfg.replayKey idToken)) then
    .error "Token replay detected: this token has already been exchanged"
  else .ok ()

/-- What comes of a call that Redis is not asked about. -/
def outcome : ReplayPhase → Except IdTokenError VerifiedIdToken
  | .looked look => .ok (extractClaims look.payload)
  | .claimed look true => .ok (extractClaims look.payload)
  | .claimed _ false => .error replayError
  | .succeeded _ verified => .ok verified
  | .refused error => .error error

theorem outcome_lookPhase (cfg : ReplayConfig) (s : ReplayState) (process : ℕ)
    (env : ProviderEnv) (idToken : String) :
    outcome (lookPhase cfg s process env idToken) =
      verifyIdToken cfg.decode ⟨env, checkReplayCache cfg s process⟩ idToken := by
  unfold lookPhase verifyIdToken
  cases checkIdToken cfg.decode env idToken with
  | error => rfl
  | ok checked =>
    obtain ⟨exp, payload⟩ := checked
    change _ = ((checkReplayCache cfg s process idToken exp).mapError IdTokenError.rejected >>=
      fun _ => pure (extractClaims payload))
    dsimp only
    by_cases hexpired : (⟨exp, payload, s.now⟩ : Look).ttl ≤ 0
    · have hnoTime : exp - (s.now / 1000 : ℕ) ≤ 0 := hexpired
      rw [if_pos hexpired, checkReplayCache, if_pos hnoTime]
      rfl
    · have htime : ¬ exp - (s.now / 1000 : ℕ) ≤ 0 := hexpired
      rw [if_neg hexpired, checkReplayCache, if_neg htime]
      split_ifs
      · rfl
      · rfl

end Fluxora.Auth
