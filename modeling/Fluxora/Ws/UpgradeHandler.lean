/-
# Upgrades and their reservations

An upgrade reserves a place under the key of its client, and then waits for the check of the bans.
Only after that is the closing of its socket listened to. An upgrade that is accepted becomes a
connection, and what it is to give back is worked out anew, from the token as it is then.

The count of every key is the number of its live reservations, and each is given back once and
under its own key, exactly as long as no socket closes before a check that lets it pass, and no
connection closes that has another key than its reservation.
-/

import Fluxora.Streams.ReadRoutes
import Fluxora.Ws.ConnectionLimiter

namespace Fluxora.Ws

open Lib Lib.JsText Lib.Tally Lib.Transition Streams

/-- The subject in a token, if the token is valid. -/
abbrev WsTokenResult := Except WsAuthFailureCode (Option String)

def WsTokenResult.subject : WsTokenResult → Option String
  | .ok (some sub) => if trim sub.toList = [] then none else some (String.ofList (trim sub.toList))
  | .ok none => none
  | .error _ => none

/-! ## Admission -/

structure UpgradeHandlerDeps where
  allowedOrigins : Option (List String)
  wsAuthRequired : Bool

/-- The token is as it is verified when the upgrade arrives. -/
structure UpgradeRequest where
  pathname : String
  origin : Option String
  ip : String
  token : WsTokenResult

inductive Admission
  | ignored
  | refused (status message : String)
  | admitted (clientIdentity : Option String)

def originIsAllowed (allowedOrigins : Option (List String)) (origin : Option String) : Bool :=
  allowedOrigins.all fun allowed => origin.any fun own => own ∈ allowed

/-- What is checked before a place is reserved. -/
def admission (deps : UpgradeHandlerDeps) (request : UpgradeRequest) : Admission :=
  if request.pathname ≠ "/ws/streams" then .ignored
  else if originIsAllowed deps.allowedOrigins request.origin = false then
    .refused "403 Forbidden" "Forbidden origin"
  else
    match request.token with
    | .error code =>
      if deps.wsAuthRequired then .refused "401 Unauthorized" ("Unauthorized: " ++ code.text)
      else .admitted none
    | .ok _ => .admitted request.token.subject

/-! ## Runs -/

/-- `closed` is whether the socket has closed meanwhile, and the identity of a connection is
the one that was found when it was accepted. -/
inductive UpgradePhase
  | checking (closed : Bool)
  | failing
  | connected (authenticatedSubject : Option String)
  | ended
  deriving DecidableEq

/-- An upgrade that has reserved a place, with the keys under which it was given back. -/
structure Upgrade where
  ip : String
  clientIdentity : Option String
  phase : UpgradePhase
  releases : List String

namespace Upgrade

variable (upgrade : Upgrade)

/-- The key of the reservation. -/
def key : String := resolveConnectionKey upgrade.ip upgrade.clientIdentity

def moveTo (phase : UpgradePhase) : Upgrade := { upgrade with phase }

/-- The place is given back. -/
def release (clientIdentity : Option String) : Upgrade :=
  { upgrade with
    phase := .ended
    releases := upgrade.releases ++ [resolveConnectionKey upgrade.ip clientIdentity] }

/-- The key under which a live reservation is to be counted. -/
def group : Option String := if upgrade.phase = .ended then none else some upgrade.key

end Upgrade

structure UpgradeRun where
  limiter : ConnectionLimiter
  upgrades : List Upgrade

/-- `handshake` is whether the handshake is accepted, and what the token is found to be
then. -/
inductive UpgradeLabel
  | upgrade (now : ℤ) (request : UpgradeRequest)
  | checked (i : ℕ) (outcome : BanCheck) (handshake : Option WsTokenResult)
  | close (i : ℕ)
  | disconnect (i : ℕ)
  | gracefulDrain

namespace UpgradeRun

variable (deps : UpgradeHandlerDeps) (settings : LimiterSettings)

def start : UpgradeRun := ⟨ConnectionLimiter.empty, []⟩

def reserve (s : UpgradeRun) (now : ℤ) (ip : String) (clientIdentity : Option String) :
    UpgradeRun :=
  let result := s.limiter.checkAndReserve settings now ip clientIdentity
  match result.1 with
  | .reserved => ⟨result.2, s.upgrades ++ [⟨ip, clientIdentity, .checking false, []⟩]⟩
  | .refused _ _ => ⟨result.2, s.upgrades⟩

/-- The upgrade goes on after the check. The listener of a socket that has closed is never
called, and the handshake of one is given up. -/
def goOn (s : UpgradeRun) (i : ℕ) (upgrade : Upgrade) (closed : Bool) (outcome : BanCheck)
    (handshake : Option WsTokenResult) : UpgradeRun :=
  let result := s.limiter.finishCheck upgrade.ip upgrade.clientIdentity outcome
  match result.1 with
  | some _ => ⟨result.2, s.upgrades.set i (upgrade.release upgrade.clientIdentity)⟩
  | none =>
    if closed then ⟨result.2, s.upgrades.set i (upgrade.moveTo .ended)⟩
    else
      match handshake with
      | some token => ⟨result.2, s.upgrades.set i (upgrade.moveTo (.connected token.subject))⟩
      | none => ⟨result.2, s.upgrades.set i (upgrade.moveTo .failing)⟩

/-- `untrackConnection` for an upgrade. -/
def untrack (s : UpgradeRun) (i : ℕ) (upgrade : Upgrade) (clientIdentity : Option String) :
    UpgradeRun :=
  ⟨s.limiter.untrackConnection upgrade.ip clientIdentity,
    s.upgrades.set i (upgrade.release clientIdentity)⟩

/-- The socket of an upgrade closes: nobody listens yet, or the listener gives the place back,
or the connection does. -/
def closeSocket (s : UpgradeRun) (i : ℕ) (upgrade : Upgrade) : UpgradeRun :=
  match upgrade.phase with
  | .checking _ => { s with upgrades := s.upgrades.set i (upgrade.moveTo (.checking true)) }
  | .failing => s.untrack i upgrade upgrade.clientIdentity
  | .connected authenticatedSubject => s.untrack i upgrade authenticatedSubject
  | .ended => s

def step (s : UpgradeRun) : UpgradeLabel → Option UpgradeRun
  | .upgrade now request =>
    match admission deps request with
    | .ignored | .refused _ _ => some s
    | .admitted clientIdentity => some (s.reserve settings now request.ip clientIdentity)
  | .checked i outcome handshake => do
      let upgrade ← s.upgrades[i]?
      match upgrade.phase with
      | .checking closed => some (s.goOn i upgrade closed outcome handshake)
      | .failing | .connected _ | .ended => none
  | .close i => s.upgrades[i]?.map (s.closeSocket i)
  | .disconnect i => do -- a slow connection is given up, before its socket closes
      let upgrade ← s.upgrades[i]?
      match upgrade.phase with
      | .connected authenticatedSubject => some (s.untrack i upgrade authenticatedSubject)
      | .checking _ | .failing | .ended => none
  | .gracefulDrain => some { s with limiter := s.limiter.gracefulDrain }

/-! ## Accounting -/

/-- The count of a key is the number of its live reservations and within the maximum, and what
is over was given back once, under the key of its reservation. -/
structure Accounted (s : UpgradeRun) : Prop where
  counts : Counts s.limiter.connectionCounts Upgrade.group s.upgrades
  within : ∀ key, count s.limiter.connectionCounts key ≤ settings.maxConnections
  released : ∀ upgrade ∈ s.upgrades,
    upgrade.releases = if upgrade.phase = .ended then [upgrade.key] else []

/-- A check that lets an upgrade pass finds its socket open, and a connection that is over has
the key of its reservation. -/
def Covered (s : UpgradeRun) : UpgradeLabel → Prop
  | .checked i outcome _ =>
    ∀ upgrade ∈ s.upgrades[i]?, upgrade.phase = .checking true → outcome = .banned
  | .close i | .disconnect i =>
    ∀ upgrade ∈ s.upgrades[i]?, ∀ subject, upgrade.phase = .connected subject →
      resolveConnectionKey upgrade.ip subject = upgrade.key
  | .upgrade .. | .gracefulDrain => True

variable {deps settings} {s s' : UpgradeRun} {label : UpgradeLabel} {i : ℕ} {upgrade : Upgrade}

theorem accounted_start : start.Accounted settings where
  counts := Counts.nil
  within _ := Nat.zero_le _
  released _ hupgrade := absurd hupgrade List.not_mem_nil

theorem Accounted.releases_eq_nil (h : s.Accounted settings) (hget : s.upgrades[i]? = some upgrade)
    (hlive : upgrade.phase ≠ .ended) : upgrade.releases = [] := by
  rw [h.released upgrade (List.mem_of_getElem? hget), if_neg hlive]

theorem Accounted.reserve (h : s.Accounted settings) (now : ℤ) (ip : String)
    (clientIdentity : Option String) : (s.reserve settings now ip clientIdentity).Accounted
      settings := by
  rw [UpgradeRun.reserve]
  rcases s.limiter.checkAndReserve_cases settings now ip clientIdentity with
    ⟨refusal, ban, hresult, hcounts⟩ | ⟨hresult, hroom, hcounts⟩
  · rw [hresult]
    refine ⟨?_, fun key => ?_, h.released⟩
    · rw [hcounts]
      exact h.counts
    · rw [hcounts]
      exact h.within key
  · rw [hresult]
    refine ⟨?_, fun key => ?_, fun upgrade hupgrade => ?_⟩
    · rw [hcounts]
      exact h.counts.add rfl
    · rw [hcounts]
      by_cases hkey : key = resolveConnectionKey ip clientIdentity
      · rw [hkey, count_incr_self]
        exact hroom
      · rw [count_incr_of_ne hkey]
        exact h.within key
    · rcases List.mem_append.mp hupgrade with hold | hnew
      · exact h.released upgrade hold
      · rw [List.mem_singleton.mp hnew]
        rfl

theorem Accounted.moveTo (h : s.Accounted settings) (hget : s.upgrades[i]? = some upgrade)
    (hlive : upgrade.phase ≠ .ended) {phase : UpgradePhase} (hphase : phase ≠ .ended) :
    Accounted settings ⟨s.limiter, s.upgrades.set i (upgrade.moveTo phase)⟩ where
  counts := by
    refine h.counts.stay hget ?_
    rw [Upgrade.group, Upgrade.group, if_neg hlive]
    exact if_neg hphase
  within := h.within
  released own hown := by
    rcases List.mem_or_eq_of_mem_set hown with hold | rfl
    · exact h.released own hold
    · exact (h.releases_eq_nil hget hlive).trans (if_neg hphase).symm

theorem Accounted.untrack (h : s.Accounted settings) (hget : s.upgrades[i]? = some upgrade)
    (hlive : upgrade.phase ≠ .ended) {clientIdentity : Option String}
    (hkey : resolveConnectionKey upgrade.ip clientIdentity = upgrade.key) :
    (s.untrack i upgrade clientIdentity).Accounted settings where
  counts := by
    have hgroup : upgrade.group = some (resolveConnectionKey upgrade.ip clientIdentity) := by
      rw [Upgrade.group, if_neg hlive, hkey]
    exact h.counts.leave hget hgroup rfl
  within key := by
    have hle : ∀ k, count (decr s.limiter.connectionCounts k) key ≤
        count s.limiter.connectionCounts key := by
      intro k
      by_cases hk : key = k
      · rw [hk, count_decr_self]
        exact Nat.sub_le _ _
      · rw [count_decr_of_ne hk]
    exact (hle _).trans (h.within key)
  released own hown := by
    rcases List.mem_or_eq_of_mem_set hown with hold | rfl
    · exact h.released own hold
    · have hnone := h.releases_eq_nil hget hlive
      simp [Upgrade.release, Upgrade.key, hnone, hkey]

theorem Accounted.releases_of_set {limiter : ConnectionLimiter} {next : Upgrade}
    (hget : s.upgrades[i]? = some upgrade)
    (h : Accounted settings ⟨limiter, s.upgrades.set i next⟩) (hended : next.phase = .ended) :
    next.releases = [next.key] := by
  obtain ⟨hlt, -⟩ := List.getElem?_eq_some_iff.mp hget
  rw [h.released next (List.mem_set hlt next), if_pos hended]

theorem accounted_untrack_iff (h : s.Accounted settings) (hget : s.upgrades[i]? = some upgrade)
    (hlive : upgrade.phase ≠ .ended) (clientIdentity : Option String) :
    (s.untrack i upgrade clientIdentity).Accounted settings ↔
      resolveConnectionKey upgrade.ip clientIdentity = upgrade.key := by
  apply Iff.intro
  · intro hafter
    have hreleases := hafter.releases_of_set hget rfl
    rw [Upgrade.release, h.releases_eq_nil hget hlive, List.nil_append] at hreleases
    exact List.singleton_inj.mp hreleases
  · exact h.untrack hget hlive

theorem accounted_goOn_iff (h : s.Accounted settings) (hget : s.upgrades[i]? = some upgrade)
    {closed : Bool} (hphase : upgrade.phase = .checking closed) (outcome : BanCheck)
    (handshake : Option WsTokenResult) :
    (s.goOn i upgrade closed outcome handshake).Accounted settings ↔
      (closed = true → outcome = .banned) := by
  have hlive : upgrade.phase ≠ .ended := by
    rw [hphase]
    exact nofun
  have hpassed : ∀ passed ≠ BanCheck.banned,
      s.limiter.finishCheck upgrade.ip upgrade.clientIdentity passed = (none, s.limiter) := by
    intro passed hne
    cases passed with
    | banned => exact absurd rfl hne
    | clear | failed => rfl
  by_cases hbanned : outcome = .banned
  · rw [hbanned]
    refine iff_of_true ?_ fun _ => rfl
    exact h.untrack hget hlive rfl
  · simp only [goOn, hpassed outcome hbanned]
    cases closed with
    | true =>
      refine iff_of_false (fun hafter => ?_) fun himp => hbanned (himp rfl)
      have hreleases := hafter.releases_of_set hget rfl
      rw [Upgrade.moveTo, h.releases_eq_nil hget hlive] at hreleases
      cases hreleases
    | false =>
      refine iff_of_true ?_ fun hclosed => by cases hclosed
      cases handshake with
      | some | none => exact h.moveTo hget hlive nofun

theorem accounted_closeSocket_iff (h : s.Accounted settings)
    (hget : s.upgrades[i]? = some upgrade) :
    (s.closeSocket i upgrade).Accounted settings ↔
      ∀ subject, upgrade.phase = .connected subject →
        resolveConnectionKey upgrade.ip subject = upgrade.key := by
  rw [closeSocket]
  cases hphase : upgrade.phase with
  | checking =>
    refine iff_of_true ?_ nofun
    exact h.moveTo hget (by rw [hphase]; exact nofun) nofun
  | failing =>
    refine iff_of_true ?_ nofun
    exact h.untrack hget (by rw [hphase]; exact nofun) rfl
  | connected =>
    have hlive : upgrade.phase ≠ .ended := by
      rw [hphase]
      exact nofun
    dsimp only
    rw [accounted_untrack_iff h hget hlive]
    simp only [UpgradePhase.connected.injEq, forall_eq']
  | ended => exact iff_of_true h nofun

theorem accounted_step_iff (h : s.Accounted settings)
    (hstep : s.step deps settings label = some s') :
    s'.Accounted settings ↔ s.Covered label := by
  cases label with
  | upgrade now request =>
    rw [step] at hstep
    refine iff_of_true ?_ trivial
    cases hadmitted : admission deps request with
    | ignored | refused =>
      rw [hadmitted] at hstep
      cases hstep
      exact h
    | admitted clientIdentity =>
      rw [hadmitted] at hstep
      cases hstep
      exact h.reserve now request.ip clientIdentity
  | checked =>
    obtain ⟨upgrade, hget, hrest⟩ := Option.bind_eq_some_iff.mp hstep
    rw [Covered, hget]
    simp only [Option.mem_def, Option.some.injEq, forall_eq']
    cases hphase : upgrade.phase with
    | checking =>
      rw [hphase] at hrest
      cases hrest
      rw [accounted_goOn_iff h hget hphase, UpgradePhase.checking.injEq]
    | failing | connected | ended => simp [hphase] at hrest
  | close =>
    obtain ⟨upgrade, hget, rfl⟩ := Option.map_eq_some_iff.mp hstep
    rw [Covered, hget]
    simp only [Option.mem_def, Option.some.injEq, forall_eq']
    exact accounted_closeSocket_iff h hget
  | disconnect =>
    obtain ⟨upgrade, hget, hrest⟩ := Option.bind_eq_some_iff.mp hstep
    rw [Covered, hget]
    simp only [Option.mem_def, Option.some.injEq, forall_eq']
    cases hphase : upgrade.phase with
    | connected =>
      have hlive : upgrade.phase ≠ .ended := by
        rw [hphase]
        exact nofun
      rw [hphase] at hrest
      cases hrest
      rw [accounted_untrack_iff h hget hlive]
      simp only [UpgradePhase.connected.injEq, forall_eq']
    | checking | failing | ended => simp [hphase] at hrest
  | gracefulDrain =>
    cases hstep
    exact iff_of_true ⟨h.counts, h.within, h.released⟩ trivial

/-- In a run the counts are those of the live reservations, and these are given back once and
under their own keys, exactly as long as every step is covered. -/
theorem accounted_runs (deps : UpgradeHandlerDeps) (settings : LimiterSettings)
    (labels : List UpgradeLabel) :
    EveryStep (step deps settings) (fun _ _ s' => s'.Accounted settings) start labels ↔
      EveryStep (step deps settings) (fun s label _ => s.Covered label) start labels :=
  everyStep_iff_of_step (fun _ => True)
    (fun _ _ _ _ h hstep => ⟨accounted_step_iff h hstep, trivial⟩) trivial accounted_start

def anyUpgrade (token : WsTokenResult) : UpgradeRequest :=
  ⟨"/ws/streams", none, "10.0.0.1", token⟩

/-- A socket that closes while the bans are looked up keeps its place for good. A token that
expires meanwhile has the place of an address given back. -/
theorem lateCheck_not_accounted :
    (¬ ∀ deps settings, EveryStep (step deps settings) (fun _ _ s' => s'.Accounted settings) start
      ([.upgrade 0 (anyUpgrade (.error .missingToken)), .close 0] ++ [.checked 0 .clear none])) ∧
    ¬ ∀ deps settings, EveryStep (step deps settings) (fun _ _ s' => s'.Accounted settings) start
      ([.upgrade 0 (anyUpgrade (.ok (some "G1"))),
        .checked 0 .clear (some (.error .invalidToken))] ++ [.close 0]) := by
  apply And.intro
  · intro h
    obtain ⟨_, hlast⟩ := EveryStep.last rfl (h ⟨none, false⟩ defaultLimiterSettings)
    have hreleased := hlast.released _ (List.mem_singleton_self _)
    revert hreleased
    decide
  · intro h
    obtain ⟨_, hlast⟩ := EveryStep.last rfl (h ⟨none, false⟩ defaultLimiterSettings)
    have hreleased := hlast.released _ (List.mem_singleton_self _)
    revert hreleased
    decide

end UpgradeRun

end Fluxora.Ws
