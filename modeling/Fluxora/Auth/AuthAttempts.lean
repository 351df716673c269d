/-
# Lockouts after failed logins

A failed login is added to a sorted set and counted in one pipeline, and a second command writes
the lockout that the count earns over the one that is there. Between the two other failures go on,
so a lockout may be overwritten by one that ends earlier.
-/

import Fluxora.Lib.SlidingWindow
import Fluxora.Lib.Transition

namespace Fluxora.Auth.Lockout

open Lib.SlidingWindow Lib.Transition

def windowMs : ℕ := 600000

def threshold : ℕ := 5

def maxLockoutSeconds : ℕ := 3600

/-- It is asked for counts that reach the threshold. -/
def computeLockoutDuration (attemptCount : ℕ) : ℕ :=
  min (2 ^ (attemptCount - threshold) * 60) maxLockoutSeconds

theorem computeLockoutDuration_pos (attemptCount : ℕ) :
    0 < computeLockoutDuration attemptCount :=
  lt_min (Nat.mul_pos (Nat.two_pow_pos _) (by decide)) (by decide)

/-- A failure with what the pipeline counted, and how many failures there were in the window. -/
structure LoginFailure where
  now : ℤ
  count : ℕ
  within : ℕ

namespace LoginFailure

variable (f : LoginFailure)

def expiryTimestamp : ℤ := f.now + computeLockoutDuration f.count * 1000

/-- The end of the lockout that the failures in the window earn. -/
def earned : ℤ := f.now + computeLockoutDuration f.within * 1000

end LoginFailure

/-- The keys of one identifier, and the calls of `recordFailure` that have counted and not yet
written. The key of the attempts also expires, when all of them have left the window. -/
structure AuthAttemptStore where
  clock : ℤ
  attempts : List (ℤ × String) := []
  /-- The failure whose expiry is the value, and the time until which the key lives. -/
  lockout : Option (LoginFailure × ℤ) := none
  pending : List LoginFailure := []
  failures : List ℤ := []
  /-- The ends of the lockouts that were written and of those that were earned. -/
  promised : List ℤ := []

inductive AttemptLabel
  /-- The pipeline of a failure. -/
  | count (now : ℤ) (hex : String)
  | write (i : ℕ) (time : ℤ)

namespace AuthAttemptStore

variable (s : AuthAttemptStore)

/-- `ZADD NX`, with the time as the score. -/
def zadd (member : ℤ × String) : List (ℤ × String) :=
  if member ∈ s.attempts then s.attempts else s.attempts ++ [member]

/-- The attempts that the pipeline leaves. -/
def attemptsAfter (now : ℤ) (hex : String) : List (ℤ × String) :=
  (s.zadd (now, hex)).filter fun member => now - windowMs < member.1

def failureAt (now : ℤ) (hex : String) : LoginFailure :=
  ⟨now, (s.attemptsAfter now hex).length, (live windowMs now (s.failures ++ [now])).length⟩

/-- A call is over, and the failures in the window may have earned a lockout. -/
def finish (f : LoginFailure) : AuthAttemptStore :=
  if threshold ≤ f.within then { s with promised := f.earned :: s.promised } else s

def recordFailure (now : ℤ) (hex : String) : AuthAttemptStore :=
  let f := s.failureAt now hex
  let next := { s with
    clock := now, attempts := s.attemptsAfter now hex, failures := s.failures ++ [now] }
  if threshold ≤ f.count then { next with pending := s.pending ++ [f] } else next.finish f

def setLockout (i : ℕ) (time : ℤ) (f : LoginFailure) : AuthAttemptStore :=
  { s with
    clock := time
    pending := s.pending.eraseIdx i
    lockout := some (f, time + computeLockoutDuration f.count * 1000)
    promised := f.expiryTimestamp :: s.promised }.finish f

def step : AttemptLabel → Option AuthAttemptStore
  | .count now hex => if s.clock ≤ now then some (s.recordFailure now hex) else none
  | .write i time => if s.clock ≤ time then s.pending[i]?.map (s.setLockout i time) else none

/-- The value that `isLockedOut` reads. -/
def lockoutExpiry (time : ℤ) : Option ℤ :=
  (s.lockout.filter fun own => time < own.2).map fun own => own.1.expiryTimestamp

def isLockedOut (time : ℤ) : ℤ :=
  match s.lockoutExpiry time with
  | none => 0
  | some expiry => max 0 ((expiry - time + 999) / 1000)

/-- No lockout that was written or earned is cut short. -/
structure Kept : Prop where
  expiry : ∀ promised ∈ s.promised, ∀ time, s.clock ≤ time → time < promised →
    ∃ expiry ∈ s.lockoutExpiry time, promised ≤ expiry
  remaining : ∀ promised ∈ s.promised, ∀ time, s.clock ≤ time →
    (promised - time + 999) / 1000 ≤ s.isLockedOut time

/-- A failure whose member was there already is not counted, so the lockout that is there has to
last as long as the one that it earns. A lockout that is running ends no later than the one that is
written over it, which no later failure has then overtaken. -/
def InTurn : AttemptLabel → Prop
  | .count now hex => (s.failureAt now hex).count < threshold →
      threshold ≤ (s.failureAt now hex).within →
      ∃ own ∈ s.lockout, (s.failureAt now hex).earned ≤ own.1.expiryTimestamp
  | .write i time => ∀ f ∈ s.pending[i]?, (time < f.earned → f.earned ≤ f.expiryTimestamp) ∧
      ∀ own ∈ s.lockout, time < own.1.expiryTimestamp →
        own.1.expiryTimestamp ≤ f.expiryTimestamp

structure Inv : Prop where
  recorded : (s.attempts.map Prod.fst).Sublist s.failures
  pending : ∀ f ∈ s.pending, threshold ≤ f.within ∧ f.now ≤ s.clock
  lockout : ∀ own ∈ s.lockout, own.1.expiryTimestamp ≤ own.2 ∧ own.1.expiryTimestamp ∈ s.promised

variable {s} {s' : AuthAttemptStore} {now time : ℤ} {hex : String} {f : LoginFailure} {i : ℕ}

theorem mem_lockoutExpiry {expiry : ℤ} : expiry ∈ s.lockoutExpiry time ↔
    ∃ own ∈ s.lockout, time < own.2 ∧ own.1.expiryTimestamp = expiry := by
  simp only [lockoutExpiry, Option.mem_def, Option.map_eq_some_iff, Option.filter_eq_some_iff,
    decide_eq_true_eq, and_assoc]

theorem kept_iff : s.Kept ↔ ∀ promised ∈ s.promised, ∀ time, s.clock ≤ time → time < promised →
    ∃ expiry ∈ s.lockoutExpiry time, promised ≤ expiry := by
  refine ⟨Kept.expiry, fun h => ⟨h, fun promised hmem time hclock => ?_⟩⟩
  rw [isLockedOut]
  by_cases hlives : time < promised
  · obtain ⟨expiry, hread, hle⟩ := h promised hmem time hclock hlives
    rw [Option.mem_def.mp hread]
    dsimp only
    omega
  · cases s.lockoutExpiry time with
    | none | some => dsimp only; omega

theorem Inv.recorded_attemptsAfter (h : s.Inv) (now : ℤ) (hex : String) :
    ((s.attemptsAfter now hex).map Prod.fst).Sublist (s.failures ++ [now]) := by
  refine (List.filter_sublist.map Prod.fst).trans ?_
  rw [zadd]
  split_ifs
  · exact h.recorded.trans (List.sublist_append_left _ _)
  · rw [List.map_append]
    exact h.recorded.append (List.Sublist.refl _)

/-- A failure is never counted with more than were in the window. -/
theorem Inv.count_le_within (h : s.Inv) (now : ℤ) (hex : String) :
    (s.failureAt now hex).count ≤ (s.failureAt now hex).within := by
  have hlive : live windowMs now ((s.attemptsAfter now hex).map Prod.fst) =
      (s.attemptsAfter now hex).map Prod.fst := by
    refine List.filter_eq_self.mpr fun t hmem => ?_
    obtain ⟨member, hleft, rfl⟩ := List.mem_map.mp hmem
    exact (List.mem_filter.mp hleft).2
  have hsublist : ((s.attemptsAfter now hex).map Prod.fst).Sublist
      (live windowMs now (s.failures ++ [now])) :=
    hlive ▸ (h.recorded_attemptsAfter now hex).filter _
  have hle := hsublist.length_le
  rwa [List.length_map] at hle

theorem Inv.recordFailure (h : s.Inv) (hclock : s.clock ≤ now) (hex : String) :
    (s.recordFailure now hex).Inv := by
  have hrecorded := h.recorded_attemptsAfter now hex
  have hlater : ∀ f ∈ s.pending, threshold ≤ f.within ∧ f.now ≤ now :=
    fun f hmem => ⟨(h.pending f hmem).1, (h.pending f hmem).2.trans hclock⟩
  rw [AuthAttemptStore.recordFailure]
  dsimp only
  split_ifs with hcounted
  · refine ⟨hrecorded, fun f hmem => ?_, h.lockout⟩
    rcases List.mem_append.mp hmem with hold | hnew
    · exact hlater f hold
    · rw [List.mem_singleton.mp hnew]
      exact ⟨hcounted.trans (h.count_le_within now hex), le_refl now⟩
  · rw [finish]
    split_ifs
    · exact ⟨hrecorded, hlater, fun own hmem =>
        ⟨(h.lockout own hmem).1, List.mem_cons_of_mem _ (h.lockout own hmem).2⟩⟩
    · exact ⟨hrecorded, hlater, h.lockout⟩

theorem Inv.kept_recordFailure_iff (h : s.Inv) (hkept : s.Kept) (hclock : s.clock ≤ now)
    (hex : String) : (s.recordFailure now hex).Kept ↔ s.InTurn (.count now hex) := by
  have hold := fun promised hmem time (htime : now ≤ time) =>
    hkept.expiry promised hmem time (hclock.trans htime)
  rw [kept_iff, AuthAttemptStore.recordFailure]
  dsimp only
  split_ifs with hcounted
  · exact iff_of_true hold fun hfew => absurd hcounted (Nat.not_le.mpr hfew)
  · rw [finish]
    split_ifs with hearned
    · have hrunning : now < (s.failureAt now hex).earned := by
        exact Int.lt_add_of_pos_right _ (Int.mul_pos (Int.natCast_pos.mpr
          (computeLockoutDuration_pos _)) (by decide))
      constructor
      · intro hnext _ _
        obtain ⟨expiry, hread, hle⟩ := hnext _ List.mem_cons_self now (le_refl now) hrunning
        obtain ⟨own, hmem, _, rfl⟩ := mem_lockoutExpiry.mp hread
        exact ⟨own, hmem, hle⟩
      · intro hcovered promised hmem time htime hlives
        rcases List.mem_cons.mp hmem with rfl | hmem
        · obtain ⟨own, hmem, hle⟩ := hcovered (Nat.not_le.mp hcounted) hearned
          have hlives' : time < own.2 := by
            have := (h.lockout own hmem).1
            omega
          exact ⟨_, mem_lockoutExpiry.mpr ⟨own, hmem, hlives', rfl⟩, hle⟩
        · exact hold promised hmem time htime hlives
    · exact iff_of_true hold fun _ hmany => absurd hmany hearned

theorem Inv.setLockout (h : s.Inv) (hclock : s.clock ≤ time) (hpending : f ∈ s.pending[i]?) :
    (s.setLockout i time f).Inv := by
  obtain ⟨hwithin, hnow⟩ := h.pending f (List.mem_of_getElem? hpending)
  rw [AuthAttemptStore.setLockout, finish, if_pos hwithin]
  refine ⟨h.recorded, fun g hmem => ?_, fun own hmem => ?_⟩
  · obtain ⟨hwithin', hnow'⟩ := h.pending g (List.mem_of_mem_eraseIdx hmem)
    exact ⟨hwithin', hnow'.trans hclock⟩
  · cases hmem
    refine ⟨?_, List.mem_cons_of_mem _ List.mem_cons_self⟩
    have hlate := hnow.trans hclock
    rw [LoginFailure.expiryTimestamp]
    dsimp only
    omega

theorem setLockout_reads (s : AuthAttemptStore) (i : ℕ) (time : ℤ)
    (hwithin : threshold ≤ f.within) :
    (s.setLockout i time f).clock = time ∧
      (s.setLockout i time f).lockout = some (f, time + computeLockoutDuration f.count * 1000) ∧
      (s.setLockout i time f).promised = f.earned :: f.expiryTimestamp :: s.promised := by
  rw [setLockout, finish, if_pos hwithin]
  exact ⟨rfl, rfl, rfl⟩

theorem Inv.kept_setLockout_iff (h : s.Inv) (hkept : s.Kept) (hclock : s.clock ≤ time)
    (hpending : f ∈ s.pending[i]?) :
    (s.setLockout i time f).Kept ↔ s.InTurn (.write i time) := by
  obtain ⟨hnow, hlockout, hpromised⟩ := setLockout_reads s i time
    (h.pending f (List.mem_of_getElem? hpending)).1
  have hwritten := ((h.setLockout hclock hpending).lockout _ hlockout).1
  have hread : ∀ expiry later, expiry ∈ (s.setLockout i time f).lockoutExpiry later ↔
      later < time + computeLockoutDuration f.count * 1000 ∧ f.expiryTimestamp = expiry := by
    intro expiry later
    rw [mem_lockoutExpiry, hlockout]
    simp only [Option.mem_some_iff, exists_eq_left']
  have hin : s.InTurn (.write i time) ↔ (time < f.earned → f.earned ≤ f.expiryTimestamp) ∧
      ∀ own ∈ s.lockout, time < own.1.expiryTimestamp →
        own.1.expiryTimestamp ≤ f.expiryTimestamp := by
    rw [InTurn, Option.mem_def.mp hpending]
    exact ⟨fun hall => hall f rfl, fun hone g hg => Option.some.inj hg ▸ hone⟩
  rw [hin, kept_iff, hnow, hpromised]
  constructor
  · intro hkept'
    refine ⟨fun hlives => ?_, fun own hmem hlives => ?_⟩
    · obtain ⟨expiry, hmem, hle⟩ := hkept' f.earned List.mem_cons_self time (le_refl time) hlives
      exact ((hread _ _).mp hmem).2 ▸ hle
    · have hold := List.mem_cons_of_mem f.earned
        (List.mem_cons_of_mem f.expiryTimestamp (h.lockout own hmem).2)
      obtain ⟨expiry, hmem', hle⟩ := hkept' _ hold time (le_refl time) hlives
      exact ((hread _ _).mp hmem').2 ▸ hle
  · rintro ⟨hearned, hrunning⟩ promised hmem later htime hlives
    have hle : promised ≤ f.expiryTimestamp := by
      rcases List.mem_cons.mp hmem with rfl | hmem
      · exact hearned (htime.trans_lt hlives)
      · rcases List.mem_cons.mp hmem with rfl | hmem
        · exact le_refl _
        · obtain ⟨expiry, hread', hle⟩ :=
            hkept.expiry promised hmem later (hclock.trans htime) hlives
          obtain ⟨own, hmem', _, rfl⟩ := mem_lockoutExpiry.mp hread'
          exact hle.trans (hrunning own hmem' ((htime.trans_lt hlives).trans_le hle))
    exact ⟨_, (hread _ _).mpr ⟨(hlives.trans_le hle).trans_le hwritten, rfl⟩, hle⟩

/-- When the failure came there were enough of them in the window. -/
def Warranted (failures : List ℤ) (f : LoginFailure) : Prop :=
  ∃ earlier, earlier <+: failures ∧ threshold ≤ (live windowMs f.now earlier).length

/-- What counts for a lockout, written or to be written. -/
structure Deserved (s : AuthAttemptStore) : Prop extends s.Inv where
  calls : ∀ f ∈ s.pending, Warranted s.failures f
  written : ∀ own ∈ s.lockout, own.1.now ≤ s.clock ∧ Warranted s.failures own.1

theorem Deserved.recordFailure (h : s.Deserved) (hclock : s.clock ≤ now) (hex : String) :
    (s.recordFailure now hex).Deserved := by
  have hinv := h.toInv.recordFailure hclock hex
  have hlater : ∀ {f}, Warranted s.failures f → Warranted (s.failures ++ [now]) f :=
    fun ⟨earlier, hbefore, hmany⟩ => ⟨earlier, hbefore.trans (List.prefix_append _ _), hmany⟩
  have hwritten : ∀ own ∈ s.lockout, own.1.now ≤ now ∧ Warranted (s.failures ++ [now]) own.1 :=
    fun own hmem => ⟨(h.written own hmem).1.trans hclock, hlater (h.written own hmem).2⟩
  rw [AuthAttemptStore.recordFailure] at hinv ⊢
  dsimp only at hinv ⊢
  split_ifs at hinv ⊢ with hcounted
  · refine ⟨hinv, fun f hmem => ?_, hwritten⟩
    rcases List.mem_append.mp hmem with hold | hnew
    · exact hlater (h.calls f hold)
    · rw [List.mem_singleton.mp hnew]
      exact ⟨_, List.prefix_rfl, hcounted.trans (h.count_le_within now hex)⟩
  · rw [finish] at hinv ⊢
    split_ifs at hinv ⊢
    · exact ⟨hinv, fun f hmem => hlater (h.calls f hmem), hwritten⟩
    · exact ⟨hinv, fun f hmem => hlater (h.calls f hmem), hwritten⟩

theorem Deserved.setLockout (h : s.Deserved) (hclock : s.clock ≤ time)
    (hpending : f ∈ s.pending[i]?) :
    (s.setLockout i time f).Deserved := by
  have hinv := h.toInv.setLockout hclock hpending
  obtain ⟨hmany, hnow⟩ := h.pending f (List.mem_of_getElem? hpending)
  rw [AuthAttemptStore.setLockout, finish, if_pos hmany] at hinv ⊢
  refine ⟨hinv, fun g hmem => h.calls g (List.mem_of_mem_eraseIdx hmem), fun own hmem => ?_⟩
  cases hmem
  exact ⟨hnow.trans hclock, h.calls f (List.mem_of_getElem? hpending)⟩

theorem Deserved.step {label : AttemptLabel} (h : s.Deserved)
    (hstep : s.step label = some s') : s'.Deserved := by
  cases label with
  | count now hex =>
    obtain ⟨hclock, hnext⟩ := Option.ite_none_right_eq_some.mp hstep
    cases hnext
    exact h.recordFailure hclock hex
  | write i time =>
    obtain ⟨hclock, hnext⟩ := Option.ite_none_right_eq_some.mp hstep
    obtain ⟨f, hpending, rfl⟩ := Option.map_eq_some_iff.mp hnext
    exact h.setLockout hclock hpending

end AuthAttemptStore

end Fluxora.Auth.Lockout
