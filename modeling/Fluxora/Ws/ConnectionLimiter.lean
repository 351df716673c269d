/-
# The limiter of socket connections

A connection is counted under the identity of its client, or under its address if it has
none. A place is reserved before anything is awaited: first the attempts of the last while
are looked at, then the count. Whether the address is banned is only known later, and a banned
one gives its place back.
-/

import Fluxora.Lib.JsText
import Fluxora.Lib.Tally

namespace Fluxora.Ws

open Lib Lib.JsText Lib.Tally

structure LimiterSettings where
  maxConnections : ℕ
  reconnectLimit : ℕ
  reconnectWindowMs : ℕ
  abuseThreshold : ℕ
  banTtl : ℕ

def defaultLimiterSettings : LimiterSettings := ⟨10, 20, 60000, 5, 3600⟩

structure ConnectionLimiter where
  connectionCounts : CountTable String
  rejectionHistory : String → List ℤ
  reconnectHistory : String → List ℤ
  shuttingDown : Bool
  activeConnections : ℕ

structure LimitRefusal where
  code : ℕ
  reason : String
  deriving DecidableEq

/-- A ban that is handed to the store of the bans. -/
structure BanOrder where
  ip : String
  ttlSeconds : ℕ
  deriving DecidableEq

inductive ReserveResult
  | reserved
  | refused (refusal : LimitRefusal) (ban : Option BanOrder)
  deriving DecidableEq

/-- What the store of the bans answers. -/
inductive BanCheck
  | banned
  | clear
  | failed
  deriving DecidableEq

def resolveConnectionKey (ip : String) (clientIdentity : Option String) : String :=
  match clientIdentity with
  | none => "ip:" ++ ip
  | some identity =>
    if trim identity.toList = [] then "ip:" ++ ip
    else "identity:" ++ String.ofList (trim identity.toList)

namespace ConnectionLimiter

def empty : ConnectionLimiter := ⟨fun _ => none, fun _ => [], fun _ => [], false, 0⟩

variable (settings : LimiterSettings) (l : ConnectionLimiter)

/-- Note a rejection. Too many of them within a minute are forgotten and answered with a
ban. -/
def recordRejection (key ip : String) (now : ℤ) : Option BanOrder × ConnectionLimiter :=
  let rejections := (l.rejectionHistory key).filter (now - · < 60000) ++ [now]
  if settings.abuseThreshold < rejections.length then
    (some ⟨ip, settings.banTtl⟩,
      { l with rejectionHistory := Function.update l.rejectionHistory key [] })
  else (none, { l with rejectionHistory := Function.update l.rejectionHistory key rejections })

def reject (key ip : String) (now : ℤ) (reason : String) : ReserveResult × ConnectionLimiter :=
  let noted := l.recordRejection settings key ip now
  (.refused ⟨4029, reason⟩ noted.1, noted.2)

def setAttempts (key : String) (attempts : List ℤ) : ConnectionLimiter :=
  { l with reconnectHistory := Function.update l.reconnectHistory key attempts }

/-- `checkAndReserve` as far as it goes without waiting. -/
def checkAndReserve (now : ℤ) (ip : String) (clientIdentity : Option String) :
    ReserveResult × ConnectionLimiter :=
  if l.shuttingDown then (.refused ⟨4029, "Server shutting down"⟩ none, l)
  else
    let key := resolveConnectionKey ip clientIdentity
    let attempts := (l.reconnectHistory key).filter (now - · < settings.reconnectWindowMs)
    if settings.reconnectLimit ≤ attempts.length then
      (l.setAttempts key attempts).reject settings key ip now "Reconnect rate exceeded"
    else
      let l := l.setAttempts key (attempts ++ [now])
      if settings.maxConnections ≤ count l.connectionCounts key then
        l.reject settings key ip now "Too many connections"
      else
        (.reserved, { l with
          connectionCounts := incr l.connectionCounts key
          activeConnections := l.activeConnections + 1 })

def untrackConnection (ip : String) (clientIdentity : Option String) : ConnectionLimiter :=
  { l with
    connectionCounts := decr l.connectionCounts (resolveConnectionKey ip clientIdentity)
    activeConnections := l.activeConnections - 1 } -- never below zero

/-- The end of `checkAndReserve`. A check that fails lets the connection pass. -/
def finishCheck (ip : String) (clientIdentity : Option String) :
    BanCheck → Option LimitRefusal × ConnectionLimiter
  | .banned => (some ⟨4029, "IP banned due to abuse"⟩, l.untrackConnection ip clientIdentity)
  | .clear | .failed => (none, l)

def gracefulDrain : ConnectionLimiter := { l with shuttingDown := true }

/-! ## What is counted -/

theorem connectionCounts_reject (key ip : String) (now : ℤ) (reason : String) :
    (l.reject settings key ip now reason).2.connectionCounts = l.connectionCounts := by
  rw [reject, recordRejection]
  dsimp only
  split_ifs <;> rfl

theorem checkAndReserve_cases (now : ℤ) (ip : String) (clientIdentity : Option String) :
    (∃ refusal ban, (l.checkAndReserve settings now ip clientIdentity).1 = .refused refusal ban ∧
        (l.checkAndReserve settings now ip clientIdentity).2.connectionCounts =
          l.connectionCounts) ∨
      (l.checkAndReserve settings now ip clientIdentity).1 = .reserved ∧
        count l.connectionCounts (resolveConnectionKey ip clientIdentity) <
          settings.maxConnections ∧
        (l.checkAndReserve settings now ip clientIdentity).2.connectionCounts =
          incr l.connectionCounts (resolveConnectionKey ip clientIdentity) := by
  rw [checkAndReserve]
  dsimp only
  split_ifs with hdown hoften hfull
  · exact Or.inl ⟨_, _, rfl, rfl⟩
  · exact Or.inl ⟨_, _, rfl, connectionCounts_reject settings _ _ _ _ _⟩
  · exact Or.inl ⟨_, _, rfl, connectionCounts_reject settings _ _ _ _ _⟩
  · exact Or.inr ⟨rfl, not_le.mp hfull, rfl⟩

end ConnectionLimiter

end Fluxora.Ws
