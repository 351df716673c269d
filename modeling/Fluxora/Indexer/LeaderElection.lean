/-
# Leader election for indexer replay

Instances compete for a lease in Redis and draw a fencing token from a counter there. An
operation sends one command after another; Redis carries a command out at one time, and the
instance goes on with the reply at a later one. A reply may be lost, and so may a command that is
carried out all the same.

Each lease that is taken starts a term. Terms are numbered in the order in which they start; the
numbers are not in Redis, they are recorded to say which term a token is of.
-/

import Fluxora.Lib.Numbering
import Fluxora.Lib.Transition
import Fluxora.Lib.TtlTable

namespace Fluxora.Indexer

open Lib Lib.TtlTable

/-! ## Redis -/

/-- The lease of the leader key: the instance id it holds, and its term. -/
structure LeaderLease where
  holder : ℕ
  term : ℕ

structure ElectionStore where
  clock : ℤ := 0
  leaderKey : Table Unit LeaderLease := fun _ => none
  fenceKey : FencingCounter ℕ := {}
  /-- The instance of each term. -/
  holders : List ℕ := []

inductive ElectionCommand
  /-- `SET … NX PX` of the leader key. -/
  | setNx
  | getLeader
  /-- `INCR` of the fence key, for a term. -/
  | incr (term : ℕ)
  | getFence (term : ℕ)
  | peexpire
  | del

inductive ElectionReply
  /-- The term that starts, when the key was set. -/
  | setNx (started : Option ℕ)
  | leader (current : Option LeaderLease)
  | incr (term token : ℕ)
  | fence (term token : ℕ)
  | peexpire (renewed : Bool)
  | del

namespace ElectionStore

variable (s : ElectionStore)

/-- The lease that has time left. -/
def current : Option LeaderLease := get s.leaderKey s.clock ()

def perform (caller leaseMs : ℕ) : ElectionCommand → ElectionReply × ElectionStore
  | .setNx =>
    match s.current with
    | some _ => (.setNx none, s)
    | none =>
      (.setNx (some s.holders.length), { s with
        leaderKey := set s.leaderKey s.clock () ⟨caller, s.holders.length⟩ leaseMs
        holders := s.holders ++ [caller] })
  | .getLeader => (.leader s.current, s)
  | .incr term =>
    (.incr term (s.fenceKey.value + 1), { s with fenceKey := s.fenceKey.draw term })
  | .getFence term =>
    (.fence term s.fenceKey.value, { s with fenceKey := s.fenceKey.reread term })
  | .peexpire =>
    match s.current with
    | some lease =>
      (.peexpire true, { s with leaderKey := set s.leaderKey s.clock () lease leaseMs })
    | none => (.peexpire false, s)
  | .del => (.del, { s with leaderKey := del s.leaderKey () })

end ElectionStore

/-! ## An instance -/

structure RedisIndexerLeaderElection where
  isLeader : Bool := false
  fencingToken : ℕ := 0
  lastRenewAttemptMs : ℤ := 0
  heartbeat : Bool := false
  /-- The term the token was given for. -/
  term : ℕ := 0

inductive ElectionMethod
  | tryAcquire
  | renew
  | release
  deriving DecidableEq

namespace RedisIndexerLeaderElection

variable (e : RedisIndexerLeaderElection)

/-- The key was set and the token drawn. -/
def acquired (term token : ℕ) (now : ℤ) : RedisIndexerLeaderElection :=
  { isLeader := true, fencingToken := token, lastRenewAttemptMs := now, heartbeat := true,
    term := term }

/-- The lease was found to be the instance's own, and the token read again. -/
def confirmed (term token : ℕ) (now : ℤ) : RedisIndexerLeaderElection :=
  { isLeader := true, fencingToken := token,
    lastRenewAttemptMs := if e.heartbeat then e.lastRenewAttemptMs else now,
    heartbeat := true, term := term }

def notLeader : RedisIndexerLeaderElection := { e with isLeader := false }

/-- Leadership is dropped and the heartbeat stopped. -/
def revoked : RedisIndexerLeaderElection := { e with isLeader := false, heartbeat := false }

/-- A heartbeat that comes more than a lease after the one before drops leadership, a clock that
went back counts as no time. -/
def renew (leaseMs : ℕ) (now : ℤ) : RedisIndexerLeaderElection × Option ElectionCommand :=
  let elapsed := if e.lastRenewAttemptMs ≤ now then now - e.lastRenewAttemptMs else 0
  if leaseMs < elapsed then (e.revoked, none)
  else ({ e with lastRenewAttemptMs := now }, some .getLeader)

def release : RedisIndexerLeaderElection × Option ElectionCommand := (e.revoked, some .getLeader)

/-- The leader key was read: what follows when it holds the instance id, and when not. -/
def checked : ElectionMethod → Option LeaderLease →
    RedisIndexerLeaderElection × Option ElectionCommand
  | .tryAcquire, some own => (e, some (.getFence own.term))
  | .tryAcquire, none => (e.notLeader, none)
  | .renew, some _ => (e, some .peexpire)
  | .renew, none => (e.revoked, none)
  | .release, some _ => (e, some .del)
  | .release, none => (e, none)

/-- The code between a reply and the next command. -/
def resume (instanceId : ℕ) (method : ElectionMethod) (now : ℤ) :
    ElectionReply → RedisIndexerLeaderElection × Option ElectionCommand
  | .setNx (some term) => (e, some (.incr term))
  | .setNx none => (e, some .getLeader)
  | .incr term token => (acquired term token now, none)
  | .fence term token => (e.confirmed term token now, none)
  | .leader current => e.checked method (current.filter (·.holder = instanceId))
  | .peexpire true => (e, none)
  | .peexpire false => (e.revoked, none)
  | .del => (e, none)

/-- A command that fails: only `tryAcquire` gives leadership up. -/
def failed : ElectionMethod → RedisIndexerLeaderElection
  | .tryAcquire => e.notLeader
  | .renew => e
  | .release => e

end RedisIndexerLeaderElection

/-! ## Instances over one Redis -/

inductive ElectionProgress
  | sent (command : ElectionCommand)
  | answered (reply : ElectionReply)
  /-- Nobody waits for the reply, the command may be carried out. -/
  | abandoned (command : ElectionCommand)
  | done

structure ElectionCall where
  caller : ℕ
  method : ElectionMethod
  progress : ElectionProgress

structure ElectionWorld where
  redis : ElectionStore := {}
  instances : ℕ → RedisIndexerLeaderElection := fun _ => {}
  calls : List ElectionCall := []
  /-- The terms for which a token was taken as leader, with the token. -/
  held : List (ℕ × ℕ) := []

/-- A call or a heartbeat of an instance, a command that Redis carries out, a reply that an
instance goes on with, a failure, or time that passes. Instances read clocks of their own. -/
inductive ElectionStep
  | tryAcquire (caller : ℕ)
  | renew (caller : ℕ) (now : ℤ)
  | release (caller : ℕ)
  | execute (i : ℕ)
  | resume (i : ℕ) (now : ℤ)
  | fail (i : ℕ)
  | tick (ms : ℕ)

/-- The term and the token that a reply gives. -/
def ElectionReply.token : ElectionReply → Option (ℕ × ℕ)
  | .incr term token => some (term, token)
  | .fence term token => some (term, token)
  | _ => none

/-- An operation waits for its next command, or has ended. -/
def ElectionProgress.next : Option ElectionCommand → ElectionProgress
  | some command => .sent command
  | none => .done

namespace ElectionWorld

variable (leaseMs : ℕ → ℕ) (w : ElectionWorld)

/-- The world when an instance starts an operation. -/
def start (caller : ℕ) (method : ElectionMethod)
    (begun : RedisIndexerLeaderElection × Option ElectionCommand) : ElectionWorld :=
  { w with
    instances := Function.update w.instances caller begun.1
    calls := w.calls ++ [⟨caller, method, .next begun.2⟩] }

def put (i : ℕ) (call : ElectionCall) (progress : ElectionProgress) : ElectionWorld :=
  { w with calls := w.calls.set i { call with progress := progress } }

/-- Redis carries out the command that an operation has sent. -/
def execute (i : ℕ) (call : ElectionCall) : Option ElectionWorld :=
  match call.progress with
  | .sent command =>
    let carriedOut := w.redis.perform call.caller (leaseMs call.caller) command
    some { w.put i call (.answered carriedOut.1) with redis := carriedOut.2 }
  | .abandoned command =>
    let carriedOut := w.redis.perform call.caller (leaseMs call.caller) command
    some { w.put i call .done with redis := carriedOut.2 }
  | .answered _ => none
  | .done => none

/-- An operation goes on with its reply. -/
def resume (i : ℕ) (now : ℤ) (call : ElectionCall) : Option ElectionWorld :=
  match call.progress with
  | .answered reply =>
    let next := (w.instances call.caller).resume call.caller call.method now reply
    some { w.put i call (.next next.2) with
      instances := Function.update w.instances call.caller next.1
      held := reply.token.toList ++ w.held }
  | _ => none

/-- An operation gets an error, before its command is carried out or after it. -/
def fail (i : ℕ) (call : ElectionCall) : Option ElectionWorld :=
  let instances := Function.update w.instances call.caller
    ((w.instances call.caller).failed call.method)
  match call.progress with
  | .sent command => some { w.put i call (.abandoned command) with instances := instances }
  | .answered _ => some { w.put i call .done with instances := instances }
  | .abandoned _ => none
  | .done => none

def step (w : ElectionWorld) : ElectionStep → Option ElectionWorld
  | .tryAcquire caller =>
    some (w.start caller .tryAcquire (w.instances caller, some .setNx))
  | .renew caller now =>
    if (w.instances caller).heartbeat then
      some (w.start caller .renew ((w.instances caller).renew (leaseMs caller) now))
    else none
  | .release caller => some (w.start caller .release (w.instances caller).release)
  | .execute i => w.calls[i]?.bind (w.execute leaseMs i)
  | .resume i now => w.calls[i]?.bind (w.resume i now)
  | .fail i => w.calls[i]?.bind (w.fail i)
  | .tick ms => some { w with redis := { w.redis with clock := w.redis.clock + ms } }

/-- Nobody has taken part so far. -/
def init (clock : ℤ) (fence : ℕ) : ElectionWorld :=
  { redis := { clock := clock, fenceKey := ⟨fence, []⟩ } }

end ElectionWorld

/-! ## What a step does -/

namespace ElectionWorld

variable {leaseMs : ℕ → ℕ} {w w' : ElectionWorld} {i : ℕ} {now : ℤ} {call : ElectionCall}

theorem eq_of_execute (h : w.execute leaseMs i call = some w') :
    (∃ command, call.progress = .sent command ∧
      w' = { w.put i call (.answered (w.redis.perform call.caller (leaseMs call.caller) command).1)
        with redis := (w.redis.perform call.caller (leaseMs call.caller) command).2 }) ∨
    ∃ command, call.progress = .abandoned command ∧
      w' = { w.put i call .done with
        redis := (w.redis.perform call.caller (leaseMs call.caller) command).2 } := by
  rw [execute] at h
  cases hprogress : call.progress with
  | sent command =>
    rw [hprogress] at h
    exact .inl ⟨command, rfl, (Option.some.inj h).symm⟩
  | abandoned command =>
    rw [hprogress] at h
    exact .inr ⟨command, rfl, (Option.some.inj h).symm⟩
  | answered | done =>
    rw [hprogress] at h
    cases h

theorem eq_of_resume (h : w.resume i now call = some w') :
    ∃ reply next, call.progress = .answered reply ∧
      next = (w.instances call.caller).resume call.caller call.method now reply ∧
        w' = { w.put i call (.next next.2) with
          instances := Function.update w.instances call.caller next.1
          held := reply.token.toList ++ w.held } := by
  rw [resume] at h
  cases hprogress : call.progress with
  | answered reply =>
    rw [hprogress] at h
    exact ⟨reply, _, rfl, rfl, (Option.some.inj h).symm⟩
  | sent | abandoned | done =>
    rw [hprogress] at h
    cases h

theorem eq_of_fail (h : w.fail i call = some w') :
    ∃ progress, (progress = .done ∨ ∃ command, progress = .abandoned command) ∧
      w' = { w.put i call progress with
        instances := Function.update w.instances call.caller
          ((w.instances call.caller).failed call.method) } := by
  rw [fail] at h
  cases hprogress : call.progress with
  | sent command =>
    rw [hprogress] at h
    exact ⟨_, .inr ⟨command, rfl⟩, (Option.some.inj h).symm⟩
  | answered =>
    rw [hprogress] at h
    exact ⟨_, .inl rfl, (Option.some.inj h).symm⟩
  | abandoned | done =>
    rw [hprogress] at h
    cases h

end ElectionWorld

end Fluxora.Indexer
