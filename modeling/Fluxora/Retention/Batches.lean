/-
# What a batch does

A batch changes the table of its rule by the ids it has fetched and adds rows to the
audit log, which are too young for any rule. So the candidates that it leaves are known,
and the loop over the batches is the one over held flags.
-/

import Fluxora.Lib.StableSort
import Fluxora.Retention.BatchLoop
import Fluxora.Retention.Purge

namespace Fluxora.Retention

open Lib Lib.Loop Lib.StableSort

/-! ## Rules -/

/-- Redaction is for streams. It leaves the column alone that their age is taken from. -/
def PurgeableRetentionRule.Sound (rule : PurgeableRetentionRule) : Prop :=
  rule.purgeAction = .redact → rule.table = "streams" ∧ rule.ageColumn = "created_at"

theorem sound_of_mem_schedule {rule : PurgeableRetentionRule}
    (hrule : rule ∈ purgeableRetentionSchedule) : rule.Sound := by
  simp only [purgeableRetentionSchedule, List.mem_cons, List.not_mem_nil, or_false] at hrule
  rcases hrule with rfl | rfl | rfl | rfl | rfl | rfl
  · exact fun _ => ⟨rfl, rfl⟩
  all_goals
    intro hredact
    cases hredact

theorem cutoff_le_clock (options : PurgeJobOptions) (rule : PurgeableRetentionRule) :
    options.cutoff rule ≤ options.clock := by
  have hahead := options.notAhead
  unfold PurgeJobOptions.cutoff
  omega

/-! ## Statements -/

/-- A row that the purge has written to the audit log. -/
def IsAuditRow (clock : ℤ) (row : TableRow) : Prop :=
  ∀ column, row.timeOf column = if column = "timestamp" then some clock else none

theorem not_isOlder_of_isAuditRow {rule : PurgeableRetentionRule} {clock cutoff : ℤ}
    {row : TableRow} (hrow : IsAuditRow clock row) (hcutoff : cutoff ≤ clock) :
    isOlder rule cutoff row = false := by
  rw [isOlder, hrow]
  by_cases hcolumn : rule.ageColumn = "timestamp"
  · rw [if_pos hcolumn]
    exact decide_eq_false (not_lt.mpr hcutoff)
  · rw [if_neg hcolumn]
    rfl

/-- One table is changed row by row, and rows are added to the audit log. -/
structure Database.Becomes (clock : ℤ) (name : String) (f : TableRow → Option TableRow)
    (db db' : Database) : Prop where
  schema : ∀ other, (db'.tables other).schema = (db.tables other).schema
  rows : ∀ other, ∃ added,
    (db'.tables other).rows =
      (if other = name then (db.tables other).rows.filterMap f else (db.tables other).rows) ++
        added ∧
    ∀ row ∈ added, other = "audit_logs" ∧ IsAuditRow clock row

namespace Database

variable {clock : ℤ} {name : String} {f : TableRow → Option TableRow} {db db' db'' : Database}

theorem eq_of_tables (htables : db.tables = db'.tables)
    (hnext : db.nextAuditId = db'.nextAuditId) : db = db' := by
  cases db
  cases db'
  cases htables
  cases hnext
  rfl

theorem change_eq_self {hid : ∀ row next, f row = some next → next.id = row.id}
    (hf : ∀ row, f row = some row) : db.change name f hid = db := by
  obtain rfl : f = some := funext hf
  refine eq_of_tables ?_ rfl
  funext other
  by_cases hname : other = name
  · subst hname
    simp only [change, if_true, Table.change, List.filterMap_some]
  · simp only [change, if_neg hname]

theorem change_change {g h : TableRow → Option TableRow}
    {hf : ∀ row next, f row = some next → next.id = row.id}
    {hg : ∀ row next, g row = some next → next.id = row.id}
    {hh : ∀ row next, h row = some next → next.id = row.id}
    (hbind : ∀ row, (f row).bind g = h row) :
    (db.change name f hf).change name g hg = db.change name h hh := by
  obtain rfl : (fun row => (f row).bind g) = h := funext hbind
  refine eq_of_tables ?_ rfl
  funext other
  by_cases hname : other = name
  · subst hname
    simp only [change, if_true, Table.change, List.filterMap_filterMap]
  · simp only [change, if_neg hname]

theorem schema_change (hid : ∀ row next, f row = some next → next.id = row.id) (other : String) :
    ((db.change name f hid).tables other).schema = (db.tables other).schema := by
  by_cases hname : other = name
  · subst hname
    simp only [change, if_true, Table.change]
  · simp only [change, if_neg hname]

theorem becomes_change (hid : ∀ row next, f row = some next → next.id = row.id) :
    Becomes clock name f db (db.change name f hid) := by
  constructor
  · exact schema_change hid
  · intro other
    refine ⟨[], ?_, fun _ hrow => absurd hrow List.not_mem_nil⟩
    by_cases hname : other = name
    · subst hname
      simp only [change, if_true, Table.change, List.append_nil]
    · simp only [change, if_neg hname, List.append_nil]

theorem becomes_self (clock : ℤ) (name : String) (db : Database) :
    Becomes clock name some db db := by
  refine ⟨fun _ => rfl, fun other => ⟨[], ?_, fun _ hrow => absurd hrow List.not_mem_nil⟩⟩
  rw [List.filterMap_some, ite_self, List.append_nil]

theorem becomes_insertAudit {columns : List (String × ColumnValue)}
    (hrow : ∀ id, IsAuditRow clock ⟨id, columns⟩) :
    Becomes clock name some db (db.insertAudit columns) := by
  constructor
  · intro other
    by_cases hlog : other = "audit_logs"
    · subst hlog
      rfl
    · simp only [insertAudit, if_neg hlog]
  · intro other
    rw [List.filterMap_some, ite_self]
    by_cases hlog : other = "audit_logs"
    · subst hlog
      refine ⟨[⟨toString db.nextAuditId, columns⟩], rfl, ?_⟩
      intro row hmem
      rw [List.mem_singleton.mp hmem]
      exact ⟨rfl, hrow _⟩
    · refine ⟨[], ?_, fun _ hrow => absurd hrow List.not_mem_nil⟩
      simp only [insertAudit, if_neg hlog, List.append_nil]

theorem Becomes.append (h : Becomes clock name f db db') (h' : Becomes clock name some db' db'') :
    Becomes clock name f db db'' := by
  constructor
  · intro other
    rw [h'.schema, h.schema]
  · intro other
    obtain ⟨added, hrows, hadded⟩ := h.rows other
    obtain ⟨more, hrows', hmore⟩ := h'.rows other
    rw [List.filterMap_some, ite_self] at hrows'
    refine ⟨added ++ more, ?_, ?_⟩
    · rw [hrows', hrows, List.append_assoc]
    · intro row hmem
      rcases List.mem_append.mp hmem with hold | hnew
      · exact hadded row hold
      · exact hmore row hnew

end Database

theorem isAuditRow_cons {clock : ℤ} {rest : List (String × ColumnValue)}
    (hrest : ∀ entry ∈ rest, ∀ ms, entry.2 ≠ .time ms) (id : String) :
    IsAuditRow clock ⟨id, ("timestamp", .time clock) :: rest⟩ := by
  intro column
  by_cases hcolumn : column = "timestamp"
  · subst hcolumn
    rfl
  · have hother : (column == "timestamp") = false := beq_false_of_ne hcolumn
    rw [if_neg hcolumn, TableRow.timeOf, List.lookup_cons, hother]
    cases hvalue : rest.lookup column with
    | none => rfl
    | some value =>
      obtain ⟨before, after, hsplit, _⟩ := List.lookup_eq_some_iff.mp hvalue
      have hmem : (column, value) ∈ rest := by
        rw [hsplit]
        exact List.mem_append_right _ List.mem_cons_self
      cases value with
      | time ms => exact absurd rfl (hrest _ hmem ms)
      | _ => rfl

section

variable {options : PurgeJobOptions} {rule : PurgeableRetentionRule} {ids : List String}
  {db : Database}

theorem becomes_writePurgeAuditEvent (options : PurgeJobOptions) (rule : PurgeableRetentionRule)
    (rowsPurged batchIndex : ℕ) (db : Database) :
    Database.Becomes options.clock rule.table some db
      (writePurgeAuditEvent options rule rowsPurged batchIndex db) := by
  apply Database.becomes_insertAudit
  apply isAuditRow_cons
  simp

theorem becomes_writeSkippedAuditEvent (options : PurgeJobOptions)
    (rule : PurgeableRetentionRule) (ids : List String) (db : Database) :
    Database.Becomes options.clock rule.table some db
      (ids.foldl (writeSkippedAuditEvent options rule) db) := by
  induction ids generalizing db with
  | nil => exact Database.becomes_self _ _ _
  | cons id _ ih =>
    have hfirst : Database.Becomes options.clock rule.table some db
        (writeSkippedAuditEvent options rule db id) := by
      apply Database.becomes_insertAudit
      apply isAuditRow_cons
      simp
    exact hfirst.append (ih _)

theorem purgeIds_bind {action : PurgeAction} {clock : ℤ} {id : String} (hfresh : id ∉ ids)
    (row : TableRow) :
    (purgeIds action clock [id] row).bind (purgeIds action clock ids) =
      purgeIds action clock (id :: ids) row := by
  by_cases hid : row.id = id
  · rw [purgeIds, if_pos (List.mem_singleton.mpr hid), purgeIds,
      if_pos (List.mem_cons.mpr (.inl hid))]
    cases action with
    | delete => rfl
    | redact =>
      rw [PurgeAction.apply, Option.bind_some, purgeIds]
      exact if_neg (hid ▸ hfresh)
  · rw [purgeIds, if_neg (List.mem_singleton.not.mpr hid), Option.bind_some, purgeIds, purgeIds]
    by_cases hmem : row.id ∈ ids
    · rw [if_pos hmem, if_pos (List.mem_cons_of_mem _ hmem)]
    · rw [if_neg hmem, if_neg (List.not_mem_cons_of_ne_of_not_mem hid hmem)]

/-- The table refuses to have rows redacted as the rule wants it. -/
def Refuses (rule : PurgeableRetentionRule) (db : Database) : Prop :=
  rule.purgeAction = .redact ∧ (db.tables rule.table).schema.refusesRedaction = true

theorem purgeRow_eq (hrule : rule.Sound) (hallowed : ¬ Refuses rule db) (clock : ℤ) (id : String) :
    purgeRow rule clock db id =
      .ok (db.change rule.table (purgeIds rule.purgeAction clock [id]) purgeIds_id) := by
  have haction : rule.purgeAction = .delete ∨ rule.table = "streams" := by
    cases haction : rule.purgeAction with
    | delete => exact .inl rfl
    | redact => exact .inr (hrule haction).1
  rw [purgeRow, if_neg fun hrefused => hallowed ⟨hrefused.1, hrefused.2.2⟩, if_pos haction]

theorem foldlM_purgeRow (hrule : rule.Sound) (clock : ℤ) (hids : ids.Nodup)
    (hallowed : ids = [] ∨ ¬ Refuses rule db) :
    ids.foldlM (purgeRow rule clock) db =
      .ok (db.change rule.table (purgeIds rule.purgeAction clock ids) purgeIds_id) := by
  induction ids generalizing db with
  | nil =>
    have hnone : ∀ row, purgeIds rule.purgeAction clock [] row = some row := fun row =>
      if_neg List.not_mem_nil
    rw [Database.change_eq_self hnone]
    rfl
  | cons id rest ih =>
    have hallowed := hallowed.resolve_left (List.cons_ne_nil id rest)
    have hnext : ¬ Refuses rule (db.change rule.table
        (purgeIds rule.purgeAction clock [id]) purgeIds_id) := by
      rw [Refuses, Database.schema_change]
      exact hallowed
    rw [List.nodup_cons] at hids
    rw [List.foldlM_cons, purgeRow_eq hrule hallowed]
    show rest.foldlM (purgeRow rule clock) _ = _
    rw [ih hids.2 (.inr hnext), Database.change_change (purgeIds_bind hids.1)]

theorem foldlM_purgeRow_refused (hrule : rule.Sound) (clock : ℤ) (hids : ids ≠ [])
    (hrefused : Refuses rule db) :
    ∃ message, ids.foldlM (purgeRow rule clock) db = .error message := by
  obtain ⟨id, rest, rfl⟩ := List.exists_cons_of_ne_nil hids
  refine ⟨"null value in a column violates not-null constraint", ?_⟩
  have hfirst : purgeRow rule clock db id =
      .error "null value in a column violates not-null constraint" :=
    if_pos ⟨hrefused.1, (hrule hrefused.1).1, hrefused.2⟩
  rw [List.foldlM_cons, hfirst]
  rfl

/-! ## Candidates that are left -/

instance : IsTrans TableRow (isBefore rule) := ⟨fun _ _ _ h h' => le_trans h h'⟩

instance : Std.Total (isBefore rule) := ⟨fun _ _ => le_total _ _⟩

variable {cutoff clock : ℤ} {rows : List TableRow}

theorem candidates_append {added : List TableRow}
    (hyoung : ∀ row ∈ added, isOlder rule cutoff row = false) :
    candidates rule cutoff (rows ++ added) = candidates rule cutoff rows := by
  have hnone : added.filter (isOlder rule cutoff) = [] := by
    rw [List.filter_eq_nil_iff]
    intro row hrow
    rw [hyoung row hrow]
    exact Bool.false_ne_true
  rw [candidates, candidates, List.filter_append, hnone, List.append_nil]

theorem candidates_filter (p : TableRow → Bool) :
    candidates rule cutoff (rows.filter p) = (candidates rule cutoff rows).filter p := by
  rw [candidates, candidates, filter_insertionSort, List.filter_filter, List.filter_filter]
  simp only [Bool.and_comm]

theorem candidates_map {f : TableRow → TableRow}
    (hage : ∀ row, (f row).timeOf rule.ageColumn = row.timeOf rule.ageColumn) :
    candidates rule cutoff (rows.map f) = (candidates rule cutoff rows).map f := by
  have holder : isOlder rule cutoff ∘ f = isOlder rule cutoff := by
    funext row
    show isOlder rule cutoff (f row) = isOlder rule cutoff row
    rw [isOlder, isOlder, hage]
  rw [candidates, candidates, List.filter_map, holder]
  refine (List.map_insertionSort _ _ f _ fun a _ b _ => ?_).symm
  rw [isBefore, isBefore, hage, hage]

theorem nodup_ids_candidates (rule : PurgeableRetentionRule) (cutoff : ℤ) (table : Table) :
    ((candidates rule cutoff table.rows).map TableRow.id).Nodup := by
  have hfilter : ((table.rows.filter (isOlder rule cutoff)).map TableRow.id).Nodup :=
    table.ids.sublist (List.filter_sublist.map _)
  exact ((List.perm_insertionSort (isBefore rule) _).map _).nodup_iff.mpr hfilter

theorem filterMap_purgeIds_delete (ids : List String) :
    rows.filterMap (purgeIds .delete clock ids) =
      rows.filter (fun row => decide (row.id ∉ ids)) := by
  have hguard : purgeIds .delete clock ids =
      Option.guard (fun row => decide (row.id ∉ ids)) := by
    funext row
    by_cases hmem : row.id ∈ ids
    · simp [purgeIds, PurgeAction.apply, Option.guard, hmem]
    · simp [purgeIds, Option.guard, hmem]
  rw [hguard, List.filterMap_eq_filter]

def redactIds (clock : ℤ) (ids : List String) (row : TableRow) : TableRow :=
  if row.id ∈ ids then redactRow clock row else row

theorem filterMap_purgeIds_redact (ids : List String) :
    rows.filterMap (purgeIds .redact clock ids) = rows.map (redactIds clock ids) := by
  have hsome : purgeIds .redact clock ids = some ∘ redactIds clock ids := by
    funext row
    exact (apply_ite some _ _ _).symm
  rw [hsome, List.filterMap_eq_map]

theorem lookup_redactIds {column : String}
    (hcolumn : column ∉ ["sender_address", "recipient_address", "sender_address_hash",
      "recipient_address_hash", "encryption_state", "updated_at"]) (row : TableRow) :
    (redactIds clock ids row).columns.lookup column = row.columns.lookup column := by
  simp only [List.mem_cons, List.not_mem_nil, not_or, or_false] at hcolumn
  obtain ⟨hsender, hrecipient, hsenderHash, hrecipientHash, hstate, hupdated⟩ := hcolumn
  rw [redactIds]
  split_ifs
  · simp only [redactRow, List.foldl]
    rw [Properties.lookup_set_of_ne hupdated, Properties.lookup_set_of_ne hstate,
      Properties.lookup_set_of_ne hrecipientHash, Properties.lookup_set_of_ne hsenderHash,
      Properties.lookup_set_of_ne hrecipient, Properties.lookup_set_of_ne hsender]
  · rfl

/-- The rows of the batch that are not held, by their ids. -/
def purgedIds (hasLegalHold : Bool) (fetched : List TableRow) : List String :=
  (fetched.filter (!isHeld hasLegalHold ·)).map TableRow.id

theorem filter_not_mem_purgedIds (hasLegalHold : Bool) {front back : List TableRow}
    (hids : ((front ++ back).map TableRow.id).Nodup) :
    (front ++ back).filter (fun row => decide (row.id ∉ purgedIds hasLegalHold front)) =
      front.filter (isHeld hasLegalHold) ++ back := by
  rw [List.map_append, List.nodup_append'] at hids
  obtain ⟨hfront, _, hdisjoint⟩ := hids
  rw [List.filter_append]
  congr 1
  · apply List.filter_congr
    intro row hrow
    rw [purgedIds]
    cases hheld : isHeld hasLegalHold row with
    | true =>
      -- another row of the batch would have the same id
      rw [decide_eq_true_eq]
      intro hmem
      obtain ⟨other, hother, hid⟩ := List.mem_map.mp hmem
      rw [List.mem_filter] at hother
      obtain rfl := List.inj_on_of_nodup_map hfront hother.1 hrow hid
      rw [hheld] at hother
      cases hother.2
    | false =>
      rw [decide_eq_false_iff_not, not_not]
      exact List.mem_map_of_mem (List.mem_filter.mpr ⟨hrow, by rw [hheld]; rfl⟩)
  · rw [List.filter_eq_self]
    intro row hrow
    rw [decide_eq_true_eq]
    intro hmem
    obtain ⟨other, hother, hid⟩ := List.mem_map.mp hmem
    exact hdisjoint (List.mem_map_of_mem (List.mem_of_mem_filter hother))
      (hid ▸ List.mem_map_of_mem hrow)

end

end Fluxora.Retention
