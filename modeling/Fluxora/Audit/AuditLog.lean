/-
# The audit log

An audit entry gets its number when it is built. It is then inserted into the table, on the
client of a transaction or on the pool, and when the insert has returned the entry is
appended to the log in memory. The insert and its return are two steps, and other writes
come in between; the transaction of the caller ends after that, by a commit or not.

Rows of the table are kept with the entry they were written from and with the transaction
that has not ended yet, if there is one.
-/

import Mathlib.Data.List.Nodup
import Fluxora.Lib.Json
import Fluxora.Lib.Transition

namespace Fluxora.Audit

open Lib Lib.Transition

/-! ## Entries -/

/-- The arguments of an audit write. -/
structure AuditFields where
  action : String
  resourceType : String
  resourceId : String
  correlationId : Option String
  metadata : Option Json

/-- The write paths: in memory only, or through the table. -/
inductive AuditPath
  | memory
  | database
  deriving DecidableEq

structure AuditEntry where
  seq : ℕ
  timestamp : ℤ
  fields : AuditFields
  path : AuditPath

/-- The redaction of texts and of metadata. -/
structure Sanitizer where
  redactKeysInString : String → String
  sanitize : Json → Json

/-- `buildAuditEntry`, with the number after the last one. -/
def buildAuditEntry (sanitizer : Sanitizer) (seq : ℕ) (now : ℤ) (fields : AuditFields)
    (path : AuditPath) : AuditEntry where
  seq := seq + 1
  timestamp := now
  fields :=
    { fields with
      resourceType := sanitizer.redactKeysInString fields.resourceType
      resourceId := sanitizer.redactKeysInString fields.resourceId
      metadata := fields.metadata.map sanitizer.sanitize }
  path := path

/-! ## The table and the writes -/

/-- A row of `audit_logs`. It is committed unless it belongs to a transaction. -/
structure AuditRow where
  entry : AuditEntry
  transaction : Option ℕ

/-- A write that has not returned yet: on the client of a transaction, or on the pool. -/
structure AuditWrite where
  entry : AuditEntry
  transaction : Option ℕ
  inserted : Bool

inductive TransactionStatus
  | active
  /-- A statement has failed, and the transaction can only be rolled back. -/
  | aborted
  deriving DecidableEq

structure AuditState where
  seq : ℕ
  auditLog : List AuditEntry
  rows : List AuditRow
  writes : List AuditWrite
  transactions : ℕ → Option TransactionStatus

inductive AuditLabel
  /-- `recordAuditEvent` -/
  | record (now : ℤ) (fields : AuditFields)
  | begin (transaction : ℕ)
  /-- `writeAuditEntryToClient`, or `recordAuditEventToDb` without a transaction. -/
  | write (transaction : Option ℕ) (now : ℤ) (fields : AuditFields)
  | insert (seq : ℕ)
  | insertFails (seq : ℕ)
  /-- The insert has returned. -/
  | resume (seq : ℕ)
  /-- Another statement of a transaction fails. -/
  | statementFails (transaction : ℕ)
  | commit (transaction : ℕ)
  | commitFails (transaction : ℕ)
  | rollback (transaction : ℕ)

namespace AuditState

variable (s : AuditState)

def setTransaction (transaction : ℕ) (status : Option TransactionStatus) : AuditState :=
  { s with transactions := Function.update s.transactions transaction status }

/-- A statement fails on the client of a transaction. -/
def abort : Option ℕ → AuditState
  | none => s
  | some transaction => s.setTransaction transaction (some .aborted)

/-- A transaction ends and its rows are dropped. -/
def discard (transaction : ℕ) : AuditState :=
  { s with
    rows := s.rows.filter fun row : AuditRow => row.transaction ≠ some transaction }.setTransaction
    transaction none

/-- A transaction ends and its rows are committed. -/
def publish (transaction : ℕ) : AuditState :=
  { s with rows := s.rows.map fun row : AuditRow =>
      if row.transaction = some transaction then { row with transaction := none }
      else row }.setTransaction transaction none

/-- The caller waits for its audit writes before it ends a transaction. -/
def isIdle (transaction : ℕ) : Bool := s.writes.all fun w => w.transaction ≠ some transaction

def step (sanitizer : Sanitizer) : AuditLabel → Option AuditState
  | .record now fields =>
    let entry := buildAuditEntry sanitizer s.seq now fields .memory
    some { s with seq := entry.seq, auditLog := s.auditLog ++ [entry] }
  | .begin transaction =>
    if s.transactions transaction = none then
      some (s.setTransaction transaction (some .active))
    else none
  | .write transaction now fields =>
    if transaction.all fun t => (s.transactions t).isSome then
      let entry := buildAuditEntry sanitizer s.seq now fields .database
      some { s with seq := entry.seq, writes := s.writes ++ [⟨entry, transaction, false⟩] }
    else none
  | .insert seq =>
    (s.writes.find? fun w => w.entry.seq = seq && w.inserted == false).bind fun w =>
      if w.transaction.all fun t => s.transactions t = some .active then
        some { s with
          rows := s.rows ++ [⟨w.entry, w.transaction⟩]
          writes := s.writes.map fun other =>
            if other.entry.seq = seq then { other with inserted := true } else other }
      else none
  | .insertFails seq =>
    (s.writes.find? fun w => w.entry.seq = seq && w.inserted == false).map fun w =>
      { s with writes := s.writes.filter fun other => other.entry.seq ≠ seq }.abort
        w.transaction
  | .resume seq =>
    (s.writes.find? fun w => w.entry.seq = seq && w.inserted == true).map fun w =>
      { s with
        auditLog := s.auditLog ++ [w.entry]
        writes := s.writes.filter fun other => other.entry.seq ≠ seq }
  | .statementFails transaction =>
    if (s.transactions transaction).isSome then
      some (s.setTransaction transaction (some .aborted))
    else none
  | .commit transaction =>
    if s.isIdle transaction then
      (s.transactions transaction).map fun status =>
        match status with
        | .active => s.publish transaction
        | .aborted => s.discard transaction
    else none
  | .commitFails transaction =>
    if s.isIdle transaction && (s.transactions transaction).isSome then
      some (s.discard transaction)
    else none
  | .rollback transaction =>
    if s.isIdle transaction && (s.transactions transaction).isSome then
      some (s.discard transaction)
    else none

/-- The state of a process that has just started. -/
def initial : AuditState := ⟨0, [], [], [], fun _ => none⟩

/-! ## The invariant -/

/-- Numbers are given once, and a write that has been inserted has its row. -/
structure Numbered : Prop where
  log : ∀ e ∈ s.auditLog, e.seq ≤ s.seq
  rows : ∀ row ∈ s.rows, row.entry.seq ≤ s.seq
  writes : ∀ w ∈ s.writes, w.entry.seq ≤ s.seq
  rowsNodup : (s.rows.map (·.entry.seq)).Nodup
  writesNodup : (s.writes.map (·.entry.seq)).Nodup
  paths : ∀ w ∈ s.writes, w.entry.path = .database
  mirrored : ∀ w ∈ s.writes, ∀ e ∈ s.auditLog, e.seq ≠ w.entry.seq
  waiting : ∀ w ∈ s.writes, w.inserted = false → ∀ row ∈ s.rows, row.entry.seq ≠ w.entry.seq
  inserted : ∀ w ∈ s.writes, w.inserted = true → (⟨w.entry, w.transaction⟩ : AuditRow) ∈ s.rows

variable {s}

theorem numbered_initial : initial.Numbered where
  log := fun _ h => absurd h List.not_mem_nil
  rows := fun _ h => absurd h List.not_mem_nil
  writes := fun _ h => absurd h List.not_mem_nil
  rowsNodup := List.nodup_nil
  writesNodup := List.nodup_nil
  paths := fun _ h => absurd h List.not_mem_nil
  mirrored := fun _ h => absurd h List.not_mem_nil
  waiting := fun _ h => absurd h List.not_mem_nil
  inserted := fun _ h => absurd h List.not_mem_nil

theorem Numbered.setTransaction (h : s.Numbered) (transaction : ℕ)
    (status : Option TransactionStatus) : (s.setTransaction transaction status).Numbered :=
  ⟨h.log, h.rows, h.writes, h.rowsNodup, h.writesNodup, h.paths, h.mirrored, h.waiting, h.inserted⟩

theorem Numbered.abort (h : s.Numbered) (transaction : Option ℕ) :
    (s.abort transaction).Numbered := by
  cases transaction with
  | none => exact h
  | some transaction => exact h.setTransaction transaction _

theorem Numbered.discard (h : s.Numbered) {transaction : ℕ}
    (hidle : s.isIdle transaction = true) : (s.discard transaction).Numbered := by
  apply Numbered.setTransaction
  refine ⟨h.log, ?_, h.writes, ?_, h.writesNodup, h.paths, h.mirrored, ?_, ?_⟩
  · intro row hrow
    exact h.rows row (List.mem_of_mem_filter hrow)
  · exact h.rowsNodup.sublist (List.filter_sublist.map _)
  · intro w hw hwaiting row hrow
    exact h.waiting w hw hwaiting row (List.mem_of_mem_filter hrow)
  · intro w hw hinserted
    refine List.mem_filter.mpr ⟨h.inserted w hw hinserted, ?_⟩
    exact List.all_eq_true.mp hidle w hw

theorem Numbered.publish (h : s.Numbered) {transaction : ℕ}
    (hidle : s.isIdle transaction = true) : (s.publish transaction).Numbered := by
  apply Numbered.setTransaction
  have hentry : ∀ row : AuditRow, (if row.transaction = some transaction then
      { row with transaction := none } else row).entry = row.entry := by
    intro row
    split_ifs <;> rfl
  refine ⟨h.log, ?_, h.writes, ?_, h.writesNodup, h.paths, h.mirrored, ?_, ?_⟩
  · intro row hrow
    obtain ⟨old, hold, rfl⟩ := List.mem_map.mp hrow
    rw [hentry]
    exact h.rows old hold
  · rw [List.map_map]
    have hsame : (fun row : AuditRow => row.entry.seq) ∘ (fun row =>
        if row.transaction = some transaction then { row with transaction := none } else row) =
          fun row => row.entry.seq := by
      funext row
      exact congrArg AuditEntry.seq (hentry row)
    rw [hsame]
    exact h.rowsNodup
  · intro w hw hwaiting row hrow
    obtain ⟨old, hold, rfl⟩ := List.mem_map.mp hrow
    rw [hentry]
    exact h.waiting w hw hwaiting old hold
  · intro w hw hinserted
    refine List.mem_map.mpr ⟨_, h.inserted w hw hinserted, ?_⟩
    have hother := List.all_eq_true.mp hidle w hw
    rw [if_neg (by simpa using hother)]

theorem Numbered.insert (h : s.Numbered) {w : AuditWrite} (hw : w ∈ s.writes)
    (hwaiting : w.inserted = false) :
    Numbered { s with
      rows := s.rows ++ [⟨w.entry, w.transaction⟩]
      writes := s.writes.map fun other =>
        if other.entry.seq = w.entry.seq then { other with inserted := true } else other } := by
  have hentry : ∀ other : AuditWrite, (if other.entry.seq = w.entry.seq then
      { other with inserted := true } else other).entry = other.entry := by
    intro other
    split_ifs <;> rfl
  have hunique : ∀ other ∈ s.writes, other.entry.seq = w.entry.seq → other = w :=
    fun other hother hseq => List.inj_on_of_nodup_map h.writesNodup hother hw hseq
  refine ⟨h.log, ?_, ?_, ?_, ?_, ?_, ?_, ?_, ?_⟩
  · intro row hrow
    rcases List.mem_append.mp hrow with hold | hnew
    · exact h.rows row hold
    · rw [List.mem_singleton.mp hnew]
      exact h.writes w hw
  · intro written hwritten
    obtain ⟨other, hother, rfl⟩ := List.mem_map.mp hwritten
    rw [hentry]
    exact h.writes other hother
  · rw [List.map_append, List.nodup_append]
    refine ⟨h.rowsNodup, List.nodup_singleton _, ?_⟩
    intro seq hseq seq' hseq' hsame
    obtain ⟨row, hrow, rfl⟩ := List.mem_map.mp hseq
    rw [List.map_singleton, List.mem_singleton] at hseq'
    exact h.waiting w hw hwaiting row hrow (hsame.trans hseq')
  · rw [List.map_map]
    have hsame : (fun other : AuditWrite => other.entry.seq) ∘ (fun other =>
        if other.entry.seq = w.entry.seq then { other with inserted := true } else other) =
          fun other => other.entry.seq := by
      funext other
      exact congrArg AuditEntry.seq (hentry other)
    rw [hsame]
    exact h.writesNodup
  · intro written hwritten
    obtain ⟨other, hother, rfl⟩ := List.mem_map.mp hwritten
    rw [hentry]
    exact h.paths other hother
  · intro written hwritten e he
    obtain ⟨other, hother, rfl⟩ := List.mem_map.mp hwritten
    rw [hentry]
    exact h.mirrored other hother e he
  · intro written hwritten hstill row hrow
    obtain ⟨other, hother, rfl⟩ := List.mem_map.mp hwritten
    split_ifs at hstill with hseq
    rw [if_neg hseq]
    rcases List.mem_append.mp hrow with hold | hnew
    · exact h.waiting other hother hstill row hold
    · rw [List.mem_singleton.mp hnew]
      exact fun hsame => hseq hsame.symm
  · intro written hwritten hdone
    obtain ⟨other, hother, rfl⟩ := List.mem_map.mp hwritten
    split_ifs at hdone ⊢ with hseq
    · rw [hunique other hother hseq]
      exact List.mem_append_right _ (List.mem_singleton_self _)
    · exact List.mem_append_left _ (h.inserted other hother hdone)

theorem Numbered.drop (h : s.Numbered) (chosen : AuditWrite → Bool) :
    Numbered { s with writes := s.writes.filter chosen } where
  log := h.log
  rows := h.rows
  writes := fun w hw => h.writes w (List.mem_of_mem_filter hw)
  rowsNodup := h.rowsNodup
  writesNodup := h.writesNodup.sublist (List.filter_sublist.map _)
  paths := fun w hw => h.paths w (List.mem_of_mem_filter hw)
  mirrored := fun w hw => h.mirrored w (List.mem_of_mem_filter hw)
  waiting := fun w hw => h.waiting w (List.mem_of_mem_filter hw)
  inserted := fun w hw => h.inserted w (List.mem_of_mem_filter hw)

theorem Numbered.append (h : s.Numbered) {e : AuditEntry} (hbound : e.seq ≤ s.seq)
    (hfree : ∀ w ∈ s.writes, e.seq ≠ w.entry.seq) :
    Numbered { s with auditLog := s.auditLog ++ [e] } := by
  refine ⟨?_, h.rows, h.writes, h.rowsNodup, h.writesNodup, h.paths, ?_, h.waiting, h.inserted⟩
  · intro e' he'
    rcases List.mem_append.mp he' with hold | hnew
    · exact h.log e' hold
    · rw [List.mem_singleton.mp hnew]
      exact hbound
  · intro w hw e' he'
    rcases List.mem_append.mp he' with hold | hnew
    · exact h.mirrored w hw e' hold
    · rw [List.mem_singleton.mp hnew]
      exact hfree w hw

theorem Numbered.count (h : s.Numbered) : Numbered { s with seq := s.seq + 1 } :=
  ⟨fun e he => (h.log e he).trans (Nat.le_succ _),
    fun row hrow => (h.rows row hrow).trans (Nat.le_succ _),
    fun w hw => (h.writes w hw).trans (Nat.le_succ _),
    h.rowsNodup, h.writesNodup, h.paths, h.mirrored, h.waiting, h.inserted⟩

theorem Numbered.begin (h : s.Numbered) (w : AuditWrite) (hseq : w.entry.seq = s.seq + 1)
    (hpath : w.entry.path = .database) (hwaiting : w.inserted = false) :
    Numbered { s with seq := s.seq + 1, writes := s.writes ++ [w] } := by
  refine ⟨h.count.log, h.count.rows, ?_, h.rowsNodup, ?_, ?_, ?_, ?_, ?_⟩
  · intro other hother
    rcases List.mem_append.mp hother with hold | hnew
    · exact h.count.writes other hold
    · rw [List.mem_singleton.mp hnew, hseq]
  · rw [List.map_append, List.nodup_append]
    refine ⟨h.writesNodup, List.nodup_singleton _, ?_⟩
    intro seq hold seq' hnew hsame
    obtain ⟨other, hother, rfl⟩ := List.mem_map.mp hold
    rw [List.map_singleton, List.mem_singleton] at hnew
    have := h.writes other hother
    omega
  · intro other hother
    rcases List.mem_append.mp hother with hold | hnew
    · exact h.paths other hold
    · rw [List.mem_singleton.mp hnew]
      exact hpath
  · intro other hother e he
    rcases List.mem_append.mp hother with hold | hnew
    · exact h.mirrored other hold e he
    · rw [List.mem_singleton.mp hnew, hseq]
      have := h.log e he
      omega
  · intro other hother hstill row hrow
    rcases List.mem_append.mp hother with hold | hnew
    · exact h.waiting other hold hstill row hrow
    · rw [List.mem_singleton.mp hnew, hseq]
      have := h.rows row hrow
      omega
  · intro other hother hdone
    rcases List.mem_append.mp hother with hold | hnew
    · exact h.inserted other hold hdone
    · rw [List.mem_singleton.mp hnew, hwaiting] at hdone
      cases hdone

theorem mem_of_find?_write {seq : ℕ} {done : Bool} {w : AuditWrite}
    (h : (s.writes.find? fun w => w.entry.seq = seq && w.inserted == done) = some w) :
    w ∈ s.writes ∧ w.entry.seq = seq ∧ w.inserted = done := by
  have hchosen := List.find?_some h
  rw [Bool.and_eq_true, decide_eq_true_eq, beq_iff_eq] at hchosen
  exact ⟨List.mem_of_find?_eq_some h, hchosen⟩

theorem Numbered.step {sanitizer : Sanitizer} {label : AuditLabel} {s' : AuditState}
    (h : s.Numbered) (hstep : s.step sanitizer label = some s') : s'.Numbered := by
  cases label with
  | record =>
    cases hstep
    refine h.count.append le_rfl ?_
    intro w hw
    have := h.writes w hw
    change s.seq + 1 ≠ w.entry.seq
    omega
  | begin transaction =>
    rw [AuditState.step] at hstep
    split_ifs at hstep
    cases hstep
    exact h.setTransaction transaction _
  | write =>
    rw [AuditState.step] at hstep
    split_ifs at hstep
    cases hstep
    exact h.begin _ rfl rfl rfl
  | insert =>
    rw [AuditState.step, Option.bind_eq_some_iff] at hstep
    obtain ⟨w, hfound, hinsert⟩ := hstep
    obtain ⟨hw, rfl, hwaiting⟩ := mem_of_find?_write hfound
    split_ifs at hinsert
    cases hinsert
    exact h.insert hw hwaiting
  | insertFails =>
    rw [AuditState.step, Option.map_eq_some_iff] at hstep
    obtain ⟨w, -, rfl⟩ := hstep
    exact (h.drop _).abort _
  | resume =>
    rw [AuditState.step, Option.map_eq_some_iff] at hstep
    obtain ⟨w, hfound, rfl⟩ := hstep
    obtain ⟨hw, rfl, -⟩ := mem_of_find?_write hfound
    refine (h.drop _).append (h.writes w hw) ?_
    intro other hother hsame
    have hne := (List.mem_filter.mp hother).2
    rw [decide_eq_true_eq] at hne
    exact hne hsame.symm
  | statementFails transaction =>
    rw [AuditState.step] at hstep
    split_ifs at hstep
    cases hstep
    exact h.setTransaction transaction _
  | commit =>
    rw [AuditState.step] at hstep
    split_ifs at hstep with hidle
    rw [Option.map_eq_some_iff] at hstep
    obtain ⟨status, -, rfl⟩ := hstep
    cases status with
    | active => exact h.publish hidle
    | aborted => exact h.discard hidle
  | commitFails | rollback =>
    rw [AuditState.step] at hstep
    split_ifs at hstep with hidle
    rw [Bool.and_eq_true] at hidle
    cases hstep
    exact h.discard hidle.1

end AuditState

end Fluxora.Audit
