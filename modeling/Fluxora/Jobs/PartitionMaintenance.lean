/-
# The resources of a partition maintenance run

A run checks a client out of the pool, takes the advisory lock on its session, sets a timeout
for the statements of the session and maintains the tables. The lock and the client are given
back in `finally` blocks. A run that finds the lock taken gives the client back twice, and an
error between the lock and the inner block leaves the lock where it is; the timeout stays in
any case.
-/

import Fluxora.Lib.Statements
import Mathlib.Data.Int.Order.Basic
import Mathlib.Tactic.MkIffOfInductiveProp

namespace Fluxora.Jobs

open Lib.Statements

/-! ## The run -/

structure PartitionMaintenanceOptions where
  leadTimeMonths : Option ℤ := none
  monthsAhead : Option ℤ := none
  lockTimeoutMs : Option ℤ := none

structure TablePartitionResult where
  table : String
  managed : Bool
  partitionsChecked : ℕ
  partitionsCreated : List String
  behindSchedule : Bool

structure PartitionMaintenanceResult where
  lockAcquired : Bool
  leadTimeMonths : ℤ
  tables : List TablePartitionResult

/-- The session of a client. The lock is counted, as one session may take it several times. -/
structure ClientSession where
  checkouts : ℕ := 0
  releases : ℕ := 0
  locks : ℕ
  statementTimeout : ℤ

/-- What the statements of a run come to, and whether another session has the lock. Those for the
tables touch neither the lock nor the timeout. -/
structure RunOutcomes where
  connect : Except String Unit
  heldElsewhere : Bool
  lock : Outcome
  setTimeout : Outcome
  tables : Except String (List TablePartitionResult)
  unlock : Outcome

abbrev Run (α : Type) : Type := ExceptT String (StateM ClientSession) α

variable {α : Type}

def statement (outcome : Outcome) (effect : ClientSession → α × ClientSession) : Run α :=
  fun s =>
    match outcome with
    | .answered => (.ok (effect s).1, (effect s).2)
    | .failed message => (.error message, s)
    | .lost message => (.error message, (effect s).2)

/-- A block and its `finally`, whose error takes the place of the result. -/
def tryFinally (body : Run α) (last : Run Unit) : Run α := fun s =>
  match last (body s).2 with
  | (.ok (), s') => ((body s).1, s')
  | (.error message, s') => (.error message, s')

def connect (outcome : Except String Unit) : Run Unit := fun s =>
  match outcome with
  | .ok () => (.ok (), { s with checkouts := s.checkouts + 1 })
  | .error message => (.error message, s)

/-- `client.release()`, which throws for a client that is back in the pool. -/
def release : Run Unit := fun s =>
  let released := { s with releases := s.releases + 1 }
  if s.releases < s.checkouts then (.ok (), released)
  else (.error "Release called on client which has already been released to the pool.", released)

def tryAdvisoryLock (heldElsewhere : Bool) (s : ClientSession) : Bool × ClientSession :=
  if heldElsewhere then (false, s) else (true, { s with locks := s.locks + 1 })

def advisoryUnlock (s : ClientSession) : Unit × ClientSession :=
  ((), { s with locks := s.locks - 1 })

def setStatementTimeout (lockTimeoutMs : ℤ) (s : ClientSession) : Unit × ClientSession :=
  ((), { s with statementTimeout := lockTimeoutMs })

def defaultLeadTimeMonths : ℤ := 3

def defaultLockTimeoutMs : ℤ := 30000

def resolveLeadTimeMonths (options : PartitionMaintenanceOptions) (configured : Option ℤ) : ℤ :=
  (options.leadTimeMonths <|> options.monthsAhead).getD
    ((configured.filter (0 ≤ ·)).getD defaultLeadTimeMonths)

/-- The part of a run that has the client. -/
def guardedSection (leadTimeMonths lockTimeoutMs : ℤ) (o : RunOutcomes) :
    Run PartitionMaintenanceResult := do
  let acquired ← statement o.lock (tryAdvisoryLock o.heldElsewhere)
  if acquired then
    statement o.setTimeout (setStatementTimeout lockTimeoutMs)
    let tables ← tryFinally (liftExcept o.tables) (statement o.unlock advisoryUnlock)
    return { lockAcquired := true, leadTimeMonths, tables }
  else
    release
    return { lockAcquired := false, leadTimeMonths, tables := [] }

def runPartitionMaintenance (options : PartitionMaintenanceOptions) (configured : Option ℤ)
    (o : RunOutcomes) : Run PartitionMaintenanceResult := do
  let leadTimeMonths := resolveLeadTimeMonths options configured
  if leadTimeMonths < 0 then
    throw ("runPartitionMaintenance: leadTimeMonths must be a non-negative integer, got " ++
      toString leadTimeMonths)
  else
    connect o.connect
    tryFinally (guardedSection leadTimeMonths (options.lockTimeoutMs.getD defaultLockTimeoutMs) o)
      release

/-! ## The discipline -/

/-- What a run promises of a session with so many locks and such a timeout. -/
structure Disciplined (options : PartitionMaintenanceOptions) (configured : Option ℤ)
    (o : RunOutcomes) (locks : ℕ) (timeout : ℤ) : Prop where
  released : (runPartitionMaintenance options configured o ⟨0, 0, locks, timeout⟩).2.releases =
    (runPartitionMaintenance options configured o ⟨0, 0, locks, timeout⟩).2.checkouts
  unlocked : 0 < (runPartitionMaintenance options configured o ⟨0, 0, locks, timeout⟩).2.checkouts →
    (runPartitionMaintenance options configured o ⟨0, 0, locks, timeout⟩).2.locks = 0
  restored :
    (runPartitionMaintenance options configured o ⟨0, 0, locks, timeout⟩).2.statementTimeout =
      timeout
  skipped : 0 ≤ resolveLeadTimeMonths options configured → o.connect = .ok () →
    o.lock = .answered → o.heldElsewhere = true →
      ∃ result,
        (runPartitionMaintenance options configured o ⟨0, 0, locks, timeout⟩).1 = .ok result ∧
          result.lockAcquired = false ∧ result.tables = []

/-- What becomes of the lock and the timeout while the client is out. -/
@[mk_iff]
inductive LeavesNoTrace (lockTimeoutMs timeout : ℤ) (o : RunOutcomes) : Prop
  | notAsked (message : String) (hlock : o.lock = .failed message)
  | unanswered (message : String) (hlock : o.lock = .lost message) (hheld : o.heldElsewhere = true)
  | finished (hlock : o.lock = .answered) (hfree : o.heldElsewhere = false)
    (hset : o.setTimeout = .answered) (hsame : lockTimeoutMs = timeout)
    (hunlock : ∀ message, o.unlock ≠ .failed message)

variable {options : PartitionMaintenanceOptions} {configured : Option ℤ} {o : RunOutcomes}
  {locks : ℕ} {timeout : ℤ}

theorem disciplined_of_run {result : Except String PartitionMaintenanceResult} (s : ClientSession)
    (hrun : runPartitionMaintenance options configured o ⟨0, 0, locks, timeout⟩ = (result, s)) :
    Disciplined options configured o locks timeout ↔
      s.releases = s.checkouts ∧ (0 < s.checkouts → s.locks = 0) ∧ s.statementTimeout = timeout ∧
        (0 ≤ resolveLeadTimeMonths options configured → o.connect = .ok () →
          o.lock = .answered → o.heldElsewhere = true →
            ∃ answer, result = .ok answer ∧ answer.lockAcquired = false ∧ answer.tables = []) := by
  apply Iff.intro
  · rintro ⟨hreleased, hunlocked, hrestored, hskipped⟩
    rw [hrun] at hreleased hunlocked hrestored hskipped
    exact ⟨hreleased, hunlocked, hrestored, hskipped⟩
  · rintro ⟨hreleased, hunlocked, hrestored, hskipped⟩
    constructor <;> rw [hrun] <;> assumption

theorem run_of_connected (hlead : 0 ≤ resolveLeadTimeMonths options configured)
    (hconnect : o.connect = .ok ()) (s : ClientSession) :
    runPartitionMaintenance options configured o s =
      tryFinally (guardedSection (resolveLeadTimeMonths options configured)
        (options.lockTimeoutMs.getD defaultLockTimeoutMs) o) release
        { s with checkouts := s.checkouts + 1 } := by
  simp only [runPartitionMaintenance, if_neg (not_lt.mpr hlead), hconnect]
  rfl

theorem disciplined_iff_left {result : Except String PartitionMaintenanceResult} (left : ℕ)
    (timeoutLeft : ℤ) (hanswered : ¬(o.lock = .answered ∧ o.heldElsewhere = true))
    (hrun : runPartitionMaintenance options configured o ⟨0, 0, locks, timeout⟩ =
      (result, ⟨1, 1, left, timeoutLeft⟩)) :
    Disciplined options configured o locks timeout ↔ left = 0 ∧ timeoutLeft = timeout := by
  rw [disciplined_of_run _ hrun]
  apply Iff.intro
  · rintro ⟨-, hunlocked, hrestored, -⟩
    exact ⟨hunlocked Nat.one_pos, hrestored⟩
  · rintro ⟨hunlocked, hrestored⟩
    refine ⟨rfl, fun _ => hunlocked, hrestored, fun _ _ hlock hheld => ?_⟩
    exact absurd ⟨hlock, hheld⟩ hanswered

theorem disciplined_iff_of_connected (hlead : 0 ≤ resolveLeadTimeMonths options configured)
    (hconnect : o.connect = .ok ()) :
    Disciplined options configured o locks timeout ↔
      locks = 0 ∧ LeavesNoTrace (options.lockTimeoutMs.getD defaultLockTimeoutMs) timeout o := by
  have hrun := run_of_connected hlead hconnect ⟨0, 0, locks, timeout⟩
  generalize options.lockTimeoutMs.getD defaultLockTimeoutMs = lockTimeoutMs at hrun ⊢
  generalize resolveLeadTimeMonths options configured = leadTimeMonths at hrun
  rw [guardedSection] at hrun
  rw [leavesNoTrace_iff]
  cases hlock : o.lock with
  | failed message =>
    rw [hlock] at hrun
    rw [disciplined_iff_left locks timeout (by simp [hlock]) hrun]
    simp
  | lost message =>
    cases hheld : o.heldElsewhere with
    | true =>
      rw [hlock, hheld] at hrun
      rw [disciplined_iff_left locks timeout (by simp [hlock]) hrun]
      simp
    | false =>
      rw [hlock, hheld] at hrun
      rw [disciplined_iff_left (locks + 1) timeout (by simp [hlock]) hrun]
      simp
  | answered =>
    cases hheld : o.heldElsewhere with
    | true =>
      -- The client goes back in the early return and again in the outer `finally`.
      rw [hlock, hheld] at hrun
      rw [disciplined_of_run ⟨1, 2, locks, timeout⟩ hrun]
      simp
    | false =>
      rw [hlock, hheld] at hrun
      cases hset : o.setTimeout with
      | failed message =>
        rw [hset] at hrun
        rw [disciplined_iff_left (locks + 1) timeout (by simp [hheld]) hrun]
        simp
      | lost message =>
        rw [hset] at hrun
        rw [disciplined_iff_left (locks + 1) lockTimeoutMs
          (by simp [hheld]) hrun]
        simp
      | answered =>
        rw [hset] at hrun
        generalize o.tables = tables at hrun
        cases hunlock : o.unlock with
        | failed message =>
          rw [hunlock] at hrun
          cases tables <;>
            rw [disciplined_iff_left (locks + 1) lockTimeoutMs (by simp [hheld]) hrun] <;> simp
        | answered =>
          rw [hunlock] at hrun
          cases tables <;> rw [disciplined_iff_left locks lockTimeoutMs (by simp [hheld]) hrun] <;>
            simp
        | lost message =>
          rw [hunlock] at hrun
          cases tables <;> rw [disciplined_iff_left locks lockTimeoutMs (by simp [hheld]) hrun] <;>
            simp

/-- A run keeps its promises exactly when it never gets a client, or gets one whose session has
no lock and leaves neither lock nor timeout there. -/
theorem disciplined_iff (options : PartitionMaintenanceOptions) (configured : Option ℤ)
    (o : RunOutcomes) (locks : ℕ) (timeout : ℤ) :
    Disciplined options configured o locks timeout ↔
      resolveLeadTimeMonths options configured < 0 ∨ (∃ message, o.connect = .error message) ∨
        locks = 0 ∧
          LeavesNoTrace (options.lockTimeoutMs.getD defaultLockTimeoutMs) timeout o := by
  by_cases hlead : resolveLeadTimeMonths options configured < 0
  · obtain ⟨result, hrun⟩ : ∃ result,
        runPartitionMaintenance options configured o ⟨0, 0, locks, timeout⟩ =
          (result, ⟨0, 0, locks, timeout⟩) := by
      simp only [runPartitionMaintenance, if_pos hlead]
      exact ⟨_, rfl⟩
    rw [disciplined_of_run _ hrun]
    simp [hlead, not_le.mpr hlead]
  · cases hconnect : o.connect with
    | ok =>
      rw [disciplined_iff_of_connected (not_lt.mp hlead) hconnect]
      simp [hlead]
    | error message =>
      obtain ⟨result, hrun⟩ : ∃ result,
          runPartitionMaintenance options configured o ⟨0, 0, locks, timeout⟩ =
            (result, ⟨0, 0, locks, timeout⟩) := by
        simp only [runPartitionMaintenance, if_neg hlead, hconnect]
        exact ⟨_, rfl⟩
      rw [disciplined_of_run _ hrun]
      simp [hconnect]

/-- Another session has the lock and every statement is answered: the client goes back twice, and
the run ends with the error of the second time. -/
theorem disciplined_fails_held :
    ¬ ∀ (options : PartitionMaintenanceOptions) (configured : Option ℤ) (o : RunOutcomes)
      (timeout : ℤ), Disciplined options configured o 0 timeout := by
  intro hdisciplined
  have hreleased := (hdisciplined {} none
    { connect := .ok (), heldElsewhere := true, lock := .answered, setTimeout := .answered,
      tables := .ok [], unlock := .answered } 0).released
  exact absurd hreleased (by decide)

end Fluxora.Jobs
