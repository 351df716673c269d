/-
# How long bans last

The rule of the ban store speaks of the answers that checks get. It is kept as long as some things
hold of every state: a process that has ordered a ban finds it in its cache or in Redis, nothing
is cached longer than it was ordered for, and no check is on its way back with an answer that has
become wrong.
-/

import Fluxora.Lib.Split
import Fluxora.Redis.BanStore

namespace Fluxora.Redis.Bans

open Lib.Transition Lib.Split

variable {digest : Digest} {s s' : BanState} {label : BanLabel} {p : Process} {ip : String}
  {now : ℤ}

/-! ## The rule -/

/-- A check answers "not banned" only when the last ban that its process has ordered and not
undone is over; and, unless Redis has failed it, "banned" only while some ban that was recorded
lasts and the process has not lifted the last one. -/
structure BanRule (label : BanLabel) (s' : BanState) : Prop where
  lasts : ∀ answer, s'.answer = some answer → answer.result.banned = false →
    ∀ expiry, s'.ledger.ordered answer.process answer.ip = some expiry → expiry ≤ label.now
  ends : ∀ answer, s'.answer = some answer → answer.result.banned = true →
    (∀ i now, label ≠ .fail i now) →
      ∃ expiry ∈ s'.ledger.recorded answer.ip, label.now < expiry
  lifts : ∀ answer, s'.answer = some answer → answer.result.banned = true →
    (∀ i now, label ≠ .fail i now) → ¬ s'.ledger.Lifted answer.process answer.ip

theorem BanRule.of_silent (hsilent : s'.answer = none) : BanRule label s' := by
  refine ⟨fun answer h => ?_, fun answer h => ?_, fun answer h => ?_⟩
  all_goals
    rw [hsilent] at h
    cases h

variable {result : BanCheckResult}

theorem BanRule.of_banned (hanswer : s'.answer = some ⟨p, ip, result⟩)
    (hbanned : result.banned = true) (hends : ∃ expiry ∈ s'.ledger.recorded ip, label.now < expiry)
    (hlifts : ¬ s'.ledger.Lifted p ip) : BanRule label s' := by
  refine ⟨fun answer h hfree => ?_, fun answer h _ _ => ?_, fun answer h _ _ => ?_⟩
  all_goals cases Option.some.inj (hanswer.symm.trans h)
  · exact absurd (hbanned.symm.trans hfree) nofun
  · exact hends
  · exact hlifts

theorem BanRule.of_free (hanswer : s'.answer = some ⟨p, ip, result⟩) (hfree : result.banned = false)
    (hlasts : ∀ expiry, s'.ledger.ordered p ip = some expiry → expiry ≤ label.now) :
    BanRule label s' := by
  refine ⟨fun answer h _ => ?_, fun answer h hbanned => ?_, fun answer h hbanned => ?_⟩
  all_goals cases Option.some.inj (hanswer.symm.trans h)
  · exact hlasts
  · exact absurd (hfree.symm.trans hbanned) nofun
  · exact absurd (hfree.symm.trans hbanned) nofun

/-! ## The condition -/

namespace BanCall

variable (call : BanCall)

/-- Redis has answered that there is no ban, or has deleted the one that was over. -/
def ToldNothing : Prop :=
  call.op = .check ∧ call.reply = some none ∨ call.op = .cleanUp ∧ call.reply ≠ none

/-- Redis has answered with the end of a ban. -/
def Found (time : ℤ) : Prop := call.op = .check ∧ call.reply = some (some time)

end BanCall

namespace BanState

section

variable (digest : Digest) (s : BanState) (now : ℤ) (p : Process) (ip : String) (expiry : ℤ)

def cached : Option ℤ := (s.stores p).localCache.bans ip

/-- The process has ordered a ban that is not over. -/
def Owes : Prop := s.ledger.ordered p ip = some expiry ∧ now < expiry

def CachedUntil : Prop := ∃ time, s.cached p ip = some time ∧ expiry ≤ time

def StoredUntil : Prop :=
  ∃ entry, s.redis (buildKey digest ip) = some entry ∧ expiry ≤ entry.value

end

/-- When the copy of a ban to the local cache ends: the time left is rounded up to seconds. -/
def copied (now time : ℤ) : ℤ := now + ⌈((time - now : ℤ) : ℚ) / 1000⌉ * 1000

/-- The condition on a command that Redis carries out. Nothing is found by a process that has
ordered a ban which is not over, and what is deleted or replaced has been cached as long as it
was ordered for. -/
def ExecutesWell (digest : Digest) (s : BanState) (now : ℤ) (call : BanCall) : Prop :=
  match call.op with
  | .check => Lib.TtlTable.get s.redis now (buildKey digest call.ip) = none →
      ∀ expiry, ¬ s.Owes now call.process call.ip expiry
  | .cleanUp => (∀ expiry, ¬ s.Owes now call.process call.ip expiry) ∧
      ∀ q expiry, s.Owes now q call.ip expiry → s.CachedUntil q call.ip expiry
  | .ban _ time => ∀ q expiry, s.Owes now q call.ip expiry →
      s.CachedUntil q call.ip expiry ∨ expiry ≤ time
  | .unban _ => ∀ q expiry, s.Owes now q call.ip expiry → s.CachedUntil q call.ip expiry

/-- The condition on an answer of Redis. A ban is copied for no longer than some ban was
recorded for, and not in the place of a longer one; and when an unban of the last ban has
succeeded, its process has no copy of the ban, nor one on the way. -/
def RepliesWell (digest : Digest) (s : BanState) (now : ℤ) (call : BanCall) (result : Option ℤ) :
    Prop :=
  match call.op, result with
  | .check, some time => now < time →
      (∃ expiry ∈ s.ledger.recorded call.ip, copied now time ≤ expiry) ∧
        ∀ expiry, s.Owes now call.process call.ip expiry →
          expiry ≤ copied now time ∨ s.StoredUntil digest call.ip expiry
  | .unban (some bans), _ => bans = (s.ledger.recorded call.ip).length →
      (∀ time, s.cached call.process call.ip = some time → time ≤ now) ∧
        ∀ other ∈ s.calls, other.process = call.process → other.ip = call.ip →
          ∀ time, other.Found time → time ≤ now
  | _, _ => True

/-- The condition on a step. A ban starts only when the process has no check of the address
that has been told there is none. -/
def KeepsBans (digest : Digest) (s : BanState) : BanLabel → Prop
  | .ban p ip ttlSeconds _ => 0 < ttlSeconds →
      ∀ call ∈ s.calls, call.process = p → call.ip = ip → ¬ call.ToldNothing
  | .execute i now => ∀ call, s.calls[i]? = some call → call.reply = none →
      s.ExecutesWell digest now call
  | .reply i now => ∀ call result, s.calls[i]? = some call → call.reply = some result →
      s.RepliesWell digest now call result
  | _ => True

/-! ## What holds in every state -/

/-- No ban of the address is going on. -/
def NotBanning (s : BanState) (ip : String) : Prop :=
  ∀ call ∈ s.calls, call.ip = ip → call.op.isBan = false

/-- What Redis has and answers was recorded, and is there until it ends. An unban that was
started after the last ban finds no ban going on, and has deleted what there was. -/
structure Kept (digest : Digest) (s : BanState) : Prop where
  clock : 0 ≤ s.clock
  stored : ∀ ip entry, s.redis (buildKey digest ip) = some entry →
    entry.value ∈ s.ledger.recorded ip ∧ entry.value ≤ entry.expireAt
  found : ∀ call ∈ s.calls, ∀ time, call.Found time → time ∈ s.ledger.recorded call.ip
  bans : ∀ call ∈ s.calls, ∀ ttlSeconds expiry, call.op = .ban ttlSeconds expiry →
    expiry ∈ s.ledger.recorded call.ip ∧ expiry ≤ s.clock + ttlSeconds * 1000
  unbans : ∀ call ∈ s.calls, ∀ bans, call.op = .unban (some bans) →
    bans ≤ (s.ledger.recorded call.ip).length ∧
      (bans = (s.ledger.recorded call.ip).length → s.NotBanning call.ip ∧
        (call.reply ≠ none → s.redis (buildKey digest call.ip) = none))
  lifted : ∀ p ip bans, s.ledger.lifted p ip = some bans →
    bans ≤ (s.ledger.recorded ip).length ∧
      (bans = (s.ledger.recorded ip).length → s.NotBanning ip ∧
        s.redis (buildKey digest ip) = none)

/-- What holds as long as the condition is met. -/
structure Sound (digest : Digest) (s : BanState) : Prop where
  guarded : ∀ p ip expiry, s.Owes s.clock p ip expiry →
    s.CachedUntil p ip expiry ∨ s.StoredUntil digest ip expiry
  told : ∀ call ∈ s.calls, call.ToldNothing →
    ∀ expiry, ¬ s.Owes s.clock call.process call.ip expiry
  cached : ∀ p ip time, s.cached p ip = some time → s.clock < time →
    (∃ expiry ∈ s.ledger.recorded ip, time ≤ expiry) ∧ ¬ s.ledger.Lifted p ip
  found : ∀ call ∈ s.calls, ∀ time, call.Found time → s.clock < time →
    ¬ s.ledger.Lifted call.process call.ip

theorem kept_start : Kept digest {} := ⟨le_rfl, nofun, nofun, nofun, nofun, nofun⟩

theorem sound_start : Sound digest {} :=
  ⟨fun _ _ _ h => absurd h.1 nofun, nofun, nofun, nofun⟩

/-! ## Steps that change nothing of it -/

/-- Time passes, and calls end or wait for Redis anew. -/
structure Still (s s' : BanState) : Prop where
  clock : s.clock ≤ s'.clock
  redis : s'.redis = s.redis
  ledger : s'.ledger = s.ledger
  calls : ∀ call ∈ s'.calls,
    call ∈ s.calls ∨ call.reply = none ∧ (call.op = .check ∨ call.op = .cleanUp)

/-- Beside that, entries of the cache that are over may go. -/
structure Quiet (s s' : BanState) : Prop extends Still s s' where
  cached : ∀ p ip time, s'.clock < time → (s'.cached p ip = some time ↔ s.cached p ip = some time)

theorem Still.notBanning (hstill : Still s s') (hnot : s.NotBanning ip) : s'.NotBanning ip := by
  intro call hcall hip
  rcases hstill.calls call hcall with hold | ⟨-, hop | hop⟩
  · exact hnot call hold hip
  · rw [hop]
    rfl
  · rw [hop]
    rfl

theorem Still.mem (hstill : Still s s') {call : BanCall} (hcall : call ∈ s'.calls)
    (hother : call.reply ≠ none ∨ call.op ≠ .check ∧ call.op ≠ .cleanUp) : call ∈ s.calls := by
  rcases hstill.calls call hcall with hold | ⟨hreply, hop⟩
  · exact hold
  · rcases hother with hanswered | ⟨hcheck, hclean⟩
    · exact absurd hreply hanswered
    · exact absurd hop (not_or.mpr ⟨hcheck, hclean⟩)

theorem Kept.still (hkept : Kept digest s) (hstill : Still s s') : Kept digest s' := by
  refine ⟨le_trans hkept.clock hstill.clock, ?_, ?_, ?_, ?_, ?_⟩
  · rw [hstill.redis, hstill.ledger]
    exact hkept.stored
  · intro call hcall time hfound
    rw [hstill.ledger]
    exact hkept.found call (hstill.mem hcall (Or.inl (by rw [hfound.2]; exact nofun))) time hfound
  · intro call hcall ttlSeconds expiry hop
    have hmem := hstill.mem hcall (Or.inr (by rw [hop]; exact ⟨nofun, nofun⟩))
    obtain ⟨hrecorded, hbefore⟩ := hkept.bans call hmem ttlSeconds expiry hop
    rw [hstill.ledger]
    exact ⟨hrecorded, le_trans hbefore (Int.add_le_add_right hstill.clock _)⟩
  · intro call hcall bans hop
    have hmem := hstill.mem hcall (Or.inr (by rw [hop]; exact ⟨nofun, nofun⟩))
    obtain ⟨hle, hlast⟩ := hkept.unbans call hmem bans hop
    rw [hstill.ledger, hstill.redis]
    exact ⟨hle, fun h => ⟨hstill.notBanning (hlast h).1, (hlast h).2⟩⟩
  · intro p ip bans hlifted
    rw [hstill.ledger] at hlifted ⊢
    rw [hstill.redis]
    obtain ⟨hle, hlast⟩ := hkept.lifted p ip bans hlifted
    exact ⟨hle, fun h => ⟨hstill.notBanning (hlast h).1, (hlast h).2⟩⟩

theorem Sound.quiet (hsound : Sound digest s) (hquiet : Quiet s s') : Sound digest s' := by
  have howed : ∀ p ip expiry, s'.Owes s'.clock p ip expiry → s.Owes s.clock p ip expiry := by
    intro p ip expiry howes
    rw [Owes, hquiet.ledger] at howes
    exact ⟨howes.1, lt_of_le_of_lt hquiet.clock howes.2⟩
  refine ⟨?_, ?_, ?_, ?_⟩
  · intro p ip expiry howes
    refine (hsound.guarded p ip expiry (howed p ip expiry howes)).imp ?_ ?_
    · rintro ⟨time, hcached, hlong⟩
      exact ⟨time, (hquiet.cached p ip time (lt_of_lt_of_le howes.2 hlong)).mpr hcached, hlong⟩
    · rw [StoredUntil, StoredUntil, hquiet.redis]
      exact id
  · intro call hcall htold expiry howes
    have hmem := hquiet.mem hcall (Or.inl (by
      rcases htold with ⟨-, hreply⟩ | ⟨-, hreply⟩
      · rw [hreply]
        exact nofun
      · exact hreply))
    exact hsound.told call hmem htold expiry (howed _ _ _ howes)
  · intro p ip time hcached htime
    rw [hquiet.ledger]
    exact hsound.cached p ip time ((hquiet.cached p ip time htime).mp hcached)
      (lt_of_le_of_lt hquiet.clock htime)
  · intro call hcall time hfound htime
    rw [hquiet.ledger]
    exact hsound.found call (hquiet.mem hcall (Or.inl (by rw [hfound.2]; exact nofun))) time hfound
      (lt_of_le_of_lt hquiet.clock htime)

end BanState

end Fluxora.Redis.Bans
