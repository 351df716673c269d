/-
# The retention purge

The job goes through the rules of the retention schedule. For each rule it takes the rows that are
older than the cut-off in batches, oldest first, deletes or redacts those that are not under legal
hold and counts the others as skipped. A batch that is not full is the last one; a cap on the
purged rows ends the rule early.
-/

import Mathlib.Data.List.Sort
import Fluxora.Lib.DigitText
import Fluxora.Lib.Json
import Fluxora.Lib.Loop

namespace Fluxora.Retention

open Lib Lib.Loop

/-! ## The schedule -/

inductive PurgeAction
  | delete
  | redact
  deriving DecidableEq

structure PurgeableRetentionRule where
  category : String
  retentionDays : ℕ
  table : String
  ageColumn : String
  purgeAction : PurgeAction
  deriving DecidableEq

/-- The entries of the retention manifest that the job enforces. -/
def purgeableRetentionSchedule : List PurgeableRetentionRule :=
  [⟨"Stream address PII", 365, "streams", "created_at", .redact⟩,
    ⟨"Audit log", 365, "audit_logs", "timestamp", .delete⟩,
    ⟨"Webhook outbox (stream-event fanout)", 90, "webhook_outbox", "created_at", .delete⟩,
    ⟨"Webhook delivery dead-letter queue", 90, "webhook_dlq", "created_at", .delete⟩,
    ⟨"Job dead-letter table", 90, "job_dead_letter", "failed_at", .delete⟩,
    ⟨"Tenant rate-limit overrides", 0, "tenant_rate_limit_overrides", "expires_at", .delete⟩]

/-! ## Tables -/

/-- The value of a column. -/
inductive ColumnValue
  | null
  | bool (b : Bool)
  | text (text : String)
  | time (ms : ℤ)
  | json (value : Json)

structure TableRow where
  id : String
  columns : List (String × ColumnValue)

/-- The names of the columns, and of those that take no null. -/
structure TableSchema where
  columnNames : List String
  notNull : List String

/-- A table. The id is the primary key. -/
structure Table where
  schema : TableSchema
  rows : List TableRow
  ids : (rows.map TableRow.id).Nodup

/-- A statement that changes or removes rows and leaves their ids alone. -/
def Table.change (table : Table) (f : TableRow → Option TableRow)
    (hid : ∀ row next, f row = some next → next.id = row.id) : Table where
  schema := table.schema
  rows := table.rows.filterMap f
  ids := by
    have hsublist : ((table.rows.filterMap f).map TableRow.id).Sublist
        (table.rows.map TableRow.id) := by
      induction table.rows with
      | nil => exact .slnil
      | cons row _ ih =>
        cases hnext : f row with
        | none =>
          rw [List.filterMap_cons_none hnext]
          exact ih.cons _
        | some next =>
          rw [List.filterMap_cons_some hnext, List.map_cons, List.map_cons, hid row next hnext]
          exact ih.cons_cons _
    exact table.ids.sublist hsublist

/-- The tables, and the sequence that the ids of the audit log come from. -/
structure Database where
  tables : String → Table
  nextAuditId : ℕ
  auditIds : ∀ row ∈ (tables "audit_logs").rows, ∀ n, nextAuditId ≤ n → row.id ≠ toString n

namespace Database

variable (db : Database)

/-- Change the rows of one table. -/
def change (name : String) (f : TableRow → Option TableRow)
    (hid : ∀ row next, f row = some next → next.id = row.id) : Database where
  tables other := if other = name then (db.tables name).change f hid else db.tables other
  nextAuditId := db.nextAuditId
  auditIds := by
    intro row hrow n hn
    split_ifs at hrow with hname
    · obtain ⟨before, hbefore, hnext⟩ := List.mem_filterMap.mp hrow
      rw [hid before row hnext]
      rw [← hname] at hbefore
      exact db.auditIds before hbefore n hn
    · exact db.auditIds row hrow n hn

/-- `INSERT INTO audit_logs …`. -/
def insertAudit (columns : List (String × ColumnValue)) : Database where
  tables other :=
    if other = "audit_logs" then
      { schema := (db.tables "audit_logs").schema
        rows := (db.tables "audit_logs").rows ++ [⟨toString db.nextAuditId, columns⟩]
        ids := by
          rw [List.map_append, List.map_singleton]
          apply (db.tables "audit_logs").ids.append (List.nodup_singleton _)
          intro id hold hnew
          obtain ⟨row, hrow, rfl⟩ := List.mem_map.mp hold
          exact db.auditIds row hrow db.nextAuditId le_rfl (List.mem_singleton.mp hnew) }
    else db.tables other
  nextAuditId := db.nextAuditId + 1
  auditIds := by
    intro row hrow n hn
    rw [if_pos rfl] at hrow
    rcases List.mem_append.mp hrow with hold | hnew
    · exact db.auditIds row hold n (by omega)
    · rw [List.mem_singleton.mp hnew]
      intro hsame
      have := DigitText.toString_nat_inj hsame
      omega

end Database

/-! ## Candidates -/

def TableRow.timeOf (row : TableRow) (column : String) : Option ℤ :=
  match row.columns.lookup column with
  | some (.time ms) => some ms
  | _ => none

def tableHasColumn (table : Table) (column : String) : Bool :=
  table.schema.columnNames.contains column

/-- `<ageColumn> < cutoff`. A row without a time is not older than anything. -/
def isOlder (rule : PurgeableRetentionRule) (cutoff : ℤ) (row : TableRow) : Bool :=
  (row.timeOf rule.ageColumn).any (· < cutoff)

/-- `legal_hold`, or `FALSE` for a table without the column. -/
def isHeld (hasLegalHold : Bool) (row : TableRow) : Bool :=
  hasLegalHold &&
    match row.columns.lookup "legal_hold" with
    | some (.bool held) => held
    | _ => false

/-- `ORDER BY <ageColumn> ASC`. -/
def isBefore (rule : PurgeableRetentionRule) (first second : TableRow) : Prop :=
  (first.timeOf rule.ageColumn).getD 0 ≤ (second.timeOf rule.ageColumn).getD 0

instance (rule : PurgeableRetentionRule) : DecidableRel (isBefore rule) := fun first second =>
  inferInstanceAs
    (Decidable ((first.timeOf rule.ageColumn).getD 0 ≤ (second.timeOf rule.ageColumn).getD 0))

/-- All rows that the rule is about. -/
def candidates (rule : PurgeableRetentionRule) (cutoff : ℤ) (rows : List TableRow) :
    List TableRow :=
  (rows.filter (isOlder rule cutoff)).insertionSort (isBefore rule)

/-- Locks are released with each transaction, and nobody else purges: no row is
skipped. -/
def fetchCandidateRows (rule : PurgeableRetentionRule) (cutoff : ℤ) (batchSize : ℕ)
    (rows : List TableRow) : List TableRow :=
  (candidates rule cutoff rows).take batchSize

/-! ## Rows -/

def streamRedactionTombstone : String := "[REDACTED:DATA_RETENTION]"

/-- The columns that a redaction of a stream sets. -/
def redactRow (clock : ℤ) (row : TableRow) : TableRow :=
  { row with
    columns :=
      [("sender_address", ColumnValue.text streamRedactionTombstone),
        ("recipient_address", .text streamRedactionTombstone),
        ("sender_address_hash", .null), ("recipient_address_hash", .null),
        ("encryption_state", .text "redacted"), ("updated_at", .time clock)].foldl
        (fun columns (column, value) => Properties.set column value columns) row.columns }

/-- The columns that a redaction sets to null. A table that refuses nulls there refuses to
have any row redacted. -/
def redactedToNull : List String := ["sender_address_hash", "recipient_address_hash"]

def TableSchema.refusesRedaction (schema : TableSchema) : Bool :=
  redactedToNull.any schema.notNull.contains

/-- What becomes of a row that is purged. -/
def PurgeAction.apply (action : PurgeAction) (clock : ℤ) (row : TableRow) : Option TableRow :=
  match action with
  | .delete => none
  | .redact => some (redactRow clock row)

/-- Statements `… WHERE id = …` for the ids given. -/
def purgeIds (action : PurgeAction) (clock : ℤ) (ids : List String) (row : TableRow) :
    Option TableRow :=
  if row.id ∈ ids then action.apply clock row else some row

theorem purgeIds_id {action : PurgeAction} {clock : ℤ} {ids : List String} (row next : TableRow)
    (h : purgeIds action clock ids row = some next) : next.id = row.id := by
  unfold purgeIds at h
  split_ifs at h with hmem
  · cases action with
    | delete => cases h
    | redact =>
      cases h
      rfl
  · cases h
    rfl

/-- Delete or redact a single row. -/
def purgeRow (rule : PurgeableRetentionRule) (clock : ℤ) (db : Database) (primaryKey : String) :
    Except String Database :=
  if rule.purgeAction = .redact ∧ rule.table = "streams" ∧
      (db.tables rule.table).schema.refusesRedaction = true then
    .error "null value in a column violates not-null constraint"
  else if rule.purgeAction = .delete ∨ rule.table = "streams" then
    .ok (db.change rule.table (purgeIds rule.purgeAction clock [primaryKey]) purgeIds_id)
  else
    let table := rule.table
    .error (s!"No redact implementation for table '{table}'. " ++
      "Add a dedicated branch in purgeRow or change purgeAction to 'delete'.")

/-! ## Batches -/

/-- The options of a run. Audit rows are written at the time of the clock, and the run is
not for a time that the clock has not reached. -/
structure PurgeJobOptions where
  batchSize : ℕ := 500
  now : ℤ
  clock : ℤ
  notAhead : now ≤ clock
  correlationId : String := ""
  dryRun : Bool := false
  maxRowsPerRun : ℕ := 50000

def PurgeJobOptions.cutoff (options : PurgeJobOptions) (rule : PurgeableRetentionRule) : ℤ :=
  options.now - rule.retentionDays * 24 * 60 * 60 * 1000

def PurgeAction.text : PurgeAction → String
  | .delete => "delete"
  | .redact => "redact"

section

variable (options : PurgeJobOptions) (rule : PurgeableRetentionRule)

def writePurgeAuditEvent (rowsPurged batchIndex : ℕ) (db : Database) : Database :=
  db.insertAudit
    [("timestamp", .time options.clock), ("action", .text "PURGE_INITIATED"),
      ("resource_type", .text rule.table),
      ("resource_id", .text ("batch-" ++ toString batchIndex)),
      ("correlation_id", .text options.correlationId),
      ("meta", .json (.object
        [("rowsPurged", .number rowsPurged), ("cutoffDate", .number (options.cutoff rule)),
          ("table", .string rule.table), ("batchIndex", .number batchIndex),
          ("purgeAction", .string rule.purgeAction.text)]))]

def writeSkippedAuditEvent (db : Database) (primaryKey : String) : Database :=
  db.insertAudit
    [("timestamp", .time options.clock), ("action", .text "PURGE_SKIPPED_LEGAL_HOLD"),
      ("resource_type", .text rule.table), ("resource_id", .text primaryKey),
      ("correlation_id", .text options.correlationId),
      ("meta", .json (.object
        [("table", .string rule.table), ("reason", .string "legal_hold = TRUE")]))]

structure BatchResult where
  db : Database
  purged : ℕ
  skipped : ℕ

/-- One transaction. The statements for the rows do not depend on each other: those that
purge come first here, then those that write to the audit log. -/
def processBatch (hasLegalHold : Bool) (batchIndex : ℕ) (db : Database) :
    Except String BatchResult :=
  let fetched := fetchCandidateRows rule (options.cutoff rule) options.batchSize
    (db.tables rule.table).rows
  let held := fetched.filter (isHeld hasLegalHold)
  let unheld := fetched.filter (!isHeld hasLegalHold ·)
  if options.dryRun then .ok ⟨db, unheld.length, held.length⟩
  else do
    let purged ← (unheld.map TableRow.id).foldlM (purgeRow rule options.clock) db
    let noted := (held.map TableRow.id).foldl (writeSkippedAuditEvent options rule) purged
    .ok ⟨if unheld.length = 0 then noted
        else writePurgeAuditEvent options rule unheld.length batchIndex noted,
      unheld.length, held.length⟩

/-! ## Rules -/

structure PurgeRuleResult where
  category : String
  table : String
  rowsPurged : ℕ
  rowsSkipped : ℕ
  cutoffDate : ℤ
  dryRun : Bool
  volumeCapReached : Bool

/-- The variables of the loop over the batches. -/
structure PurgeProgress where
  db : Database
  rowsPurged : ℕ
  rowsSkipped : ℕ
  batchIndex : ℕ

def PurgeProgress.result (progress : PurgeProgress) (volumeCapReached : Bool) :
    PurgeRuleResult where
  category := rule.category
  table := rule.table
  rowsPurged := progress.rowsPurged
  rowsSkipped := progress.rowsSkipped
  cutoffDate := options.cutoff rule
  dryRun := options.dryRun
  volumeCapReached

/-- A round of the loop. -/
def purgeRound (hasLegalHold : Bool) (progress : PurgeProgress) :
    PurgeProgress ⊕ Except String (PurgeRuleResult × Database) :=
  if options.maxRowsPerRun ≤ progress.rowsPurged then
    .inr (.ok (progress.result options rule true, progress.db))
  else
    match processBatch options rule hasLegalHold progress.batchIndex progress.db with
    | .error message => .inr (.error message)
    | .ok batch =>
      let next : PurgeProgress :=
        { db := batch.db
          rowsPurged := progress.rowsPurged + batch.purged
          rowsSkipped := progress.rowsSkipped + batch.skipped
          batchIndex := progress.batchIndex + 1 }
      if batch.purged + batch.skipped < options.batchSize then
        .inr (.ok (next.result options rule false, next.db))
      else .inl next

/-- `purgeRule`: the loop, entered with the database, is left with a result. -/
def PurgeRule (db : Database) (result : Except String (PurgeRuleResult × Database)) : Prop :=
  Ends (purgeRound options rule (tableHasColumn (db.tables rule.table) "legal_hold"))
    ⟨db, 0, 0, 0⟩ result

end

/-- `runRetentionPurge`: the rules one after the other, on what the ones before have
left. -/
inductive RunRetentionPurge (options : PurgeJobOptions) :
    List PurgeableRetentionRule → Database → List PurgeRuleResult → Database → Prop
  | nil (db : Database) : RunRetentionPurge options [] db [] db
  | cons {rule : PurgeableRetentionRule} {rules : List PurgeableRetentionRule}
      {db next last : Database} {result : PurgeRuleResult} {results : List PurgeRuleResult}
      (first : PurgeRule options rule db (.ok (result, next)))
      (rest : RunRetentionPurge options rules next results last) :
      RunRetentionPurge options (rule :: rules) db (result :: results) last

end Fluxora.Retention
