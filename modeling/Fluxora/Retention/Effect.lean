/-
# What a purge has done

A run that no cap has stopped should have purged the old rows that are not held, once each, so
that a second run finds nothing and a dry run foresees the first. That is what happens when one
batch is enough for every rule.
-/

import Fluxora.Retention.Termination

namespace Fluxora.Retention

open Lib Lib.Loop

/-! ## The effect -/

section

variable (options : PurgeJobOptions) (rule : PurgeableRetentionRule) (db : Database)

/-- `legal_hold` is a column of the table. -/
def hasLegalHold : Bool := tableHasColumn (db.tables rule.table) "legal_hold"

/-- Rows that are older than the cut-off and not under legal hold are purged. -/
def purgedRow (row : TableRow) : Option TableRow :=
  if isOlder rule (options.cutoff rule) row && !isHeld (hasLegalHold rule db) row then
    rule.purgeAction.apply options.clock row
  else some row

/-- The numbers of distinct rows to be purged and of held ones. -/
def distinctCounts : ℕ × ℕ :=
  (((candidatesIn options rule db).filter (!isHeld (hasLegalHold rule db) ·)).length,
    ((candidatesIn options rule db).filter (isHeld (hasLegalHold rule db))).length)

end

def PurgeRuleResult.counts (result : PurgeRuleResult) : ℕ × ℕ :=
  (result.rowsPurged, result.rowsSkipped)

/-- What the rules do to the rows of a table. -/
def purgedBy (options : PurgeJobOptions) (rules : List PurgeableRetentionRule) (db : Database)
    (name : String) : TableRow → Option TableRow :=
  match rules.find? (·.table = name) with
  | some rule => purgedRow options rule db
  | none => some

/-- All tables have been changed as given, and the audit log has got more rows. -/
def BecomesAll (clock : ℤ) (f : String → TableRow → Option TableRow) (db db' : Database) : Prop :=
  ∀ name, ∃ added,
    (db'.tables name).rows = (db.tables name).rows.filterMap (f name) ++ added ∧
    ∀ row ∈ added, name = "audit_logs" ∧ IsAuditRow clock row

structure PurgeEffect (options : PurgeJobOptions) (db : Database)
    (results : List PurgeRuleResult) (db' : Database) : Prop where
  /-- The rows to be purged have been purged, and no others. -/
  rows : BecomesAll options.clock (purgedBy options purgeableRetentionSchedule db) db db'
  /-- The numbers are those of distinct rows. -/
  counts : results.map PurgeRuleResult.counts =
    purgeableRetentionSchedule.map (distinctCounts options · db)
  /-- A second run purges nothing. -/
  again : ∃ results' db'',
    RunRetentionPurge options purgeableRetentionSchedule db' results' db'' ∧
      (∀ result ∈ results', result.rowsPurged = 0) ∧
      BecomesAll options.clock (fun _ => some) db' db''
  /-- A dry run instead of the run would have reported the same and changed nothing. -/
  dry : ∃ results',
    RunRetentionPurge { options with dryRun := true } purgeableRetentionSchedule db results' db ∧
      results'.map PurgeRuleResult.counts = results.map PurgeRuleResult.counts

/-- One batch is enough for the rule, and a redaction finds nothing to redact. -/
def OneBatch (options : PurgeJobOptions) (rule : PurgeableRetentionRule) (db : Database) : Prop :=
  (candidatesIn options rule db).length < options.batchSize ∧
    (rule.purgeAction = .redact →
      ∀ row ∈ candidatesIn options rule db, isHeld (hasLegalHold rule db) row)

instance (options : PurgeJobOptions) (rule : PurgeableRetentionRule) (db : Database) :
    Decidable (OneBatch options rule db) :=
  inferInstanceAs (Decidable (_ ∧ (_ → _)))

/-! ## Runs -/

section

variable {options : PurgeJobOptions} {rule : PurgeableRetentionRule}
  {rules : List PurgeableRetentionRule} {db db' : Database} {results : List PurgeRuleResult}
  {last : Database}

theorem RunRetentionPurge.unique {results' : List PurgeRuleResult} {last' : Database}
    (h : RunRetentionPurge options rules db results last)
    (h' : RunRetentionPurge options rules db results' last') :
    results = results' ∧ last = last' := by
  induction h generalizing results' with
  | nil =>
    cases h'
    exact ⟨rfl, rfl⟩
  | cons first _ ih =>
    cases h' with
    | cons first' rest' =>
      cases first.unique first'
      obtain ⟨rfl, rfl⟩ := ih rest'
      exact ⟨rfl, rfl⟩

/-- Tables other than the one of the rule keep their rows. -/
structure Spares (clock : ℤ) (name : String) (db db' : Database) : Prop where
  schema : ∀ other, (db'.tables other).schema = (db.tables other).schema
  rows : ∀ other ≠ name, ∃ added,
    (db'.tables other).rows = (db.tables other).rows ++ added ∧
    ∀ row ∈ added, other = "audit_logs" ∧ IsAuditRow clock row

variable {clock : ℤ}

theorem Database.Becomes.spares {name : String} {f : TableRow → Option TableRow}
    (h : Database.Becomes clock name f db db') : Spares clock name db db' := by
  refine ⟨h.schema, fun other hother => ?_⟩
  obtain ⟨added, hrows, hadded⟩ := h.rows other
  rw [if_neg hother] at hrows
  exact ⟨added, hrows, hadded⟩

theorem Spares.refl (clock : ℤ) (name : String) (db : Database) : Spares clock name db db :=
  (Database.becomes_self clock name db).spares

theorem Spares.trans {name : String} {db'' : Database} (h : Spares clock name db db')
    (h' : Spares clock name db' db'') : Spares clock name db db'' := by
  constructor
  · intro other
    rw [h'.schema, h.schema]
  · intro other hother
    obtain ⟨added, hrows, hadded⟩ := h.rows other hother
    obtain ⟨more, hrows', hmore⟩ := h'.rows other hother
    refine ⟨added ++ more, ?_, ?_⟩
    · rw [hrows', hrows, List.append_assoc]
    · intro row hmem
      rcases List.mem_append.mp hmem with hold | hnew
      · exact hadded row hold
      · exact hmore row hnew

theorem Spares.candidatesIn_eq {name : String} (h : Spares options.clock name db db')
    (hother : rule.table ≠ name) :
    candidatesIn options rule db' = candidatesIn options rule db := by
  obtain ⟨added, hrows, hadded⟩ := h.rows rule.table hother
  exact candidatesIn_of_rows hrows hadded

theorem Spares.hasLegalHold_eq {name : String} (h : Spares clock name db db') :
    hasLegalHold rule db' = hasLegalHold rule db := by
  rw [hasLegalHold, tableHasColumn, h.schema, hasLegalHold, tableHasColumn]

theorem spares_of_processBatch (hrule : rule.Sound) {held : Bool} {batchIndex : ℕ}
    {batch : BatchResult} (hbatch : processBatch options rule held batchIndex db = .ok batch) :
    Spares options.clock rule.table db batch.db := by
  cases hdry : options.dryRun with
  | true =>
    rw [processBatch_dry hdry] at hbatch
    cases hbatch
    exact .refl _ _ _
  | false =>
    by_cases hfails : Fails options rule held db
    · obtain ⟨message, hmessage⟩ := processBatch_fails hrule hfails batchIndex
      cases hmessage.symm.trans hbatch
    · obtain ⟨next, hnext, hbecomes⟩ := exists_processBatch_real hrule hdry batchIndex hfails
      cases hnext.symm.trans hbatch
      exact hbecomes.spares

theorem purgeRound_cases {held : Bool} {progress : PurgeProgress}
    {next : PurgeProgress ⊕ Except String (PurgeRuleResult × Database)}
    (hround : purgeRound options rule held progress = next) :
    (∃ message, next = .inr (.error message)) ∨
      (∃ result, next = .inr (.ok (result, progress.db))) ∨
      ∃ batch, processBatch options rule held progress.batchIndex progress.db = .ok batch ∧
        ((∃ later : PurgeProgress, next = .inl later ∧ later.db = batch.db) ∨
          ∃ result, next = .inr (.ok (result, batch.db))) := by
  by_cases hcap : progress.rowsPurged < options.maxRowsPerRun
  · cases hbatch : processBatch options rule held progress.batchIndex progress.db with
    | error message =>
      rw [purgeRound, if_neg (not_le.mpr hcap), hbatch] at hround
      exact .inl ⟨message, hround.symm⟩
    | ok batch =>
      rw [purgeRound_of_ok hcap hbatch] at hround
      split_ifs at hround
      · exact .inr (.inr ⟨batch, rfl, .inr ⟨_, hround.symm⟩⟩)
      · exact .inr (.inr ⟨batch, rfl, .inl ⟨_, hround.symm, rfl⟩⟩)
  · rw [purgeRound, if_pos (not_lt.mp hcap)] at hround
    exact .inr (.inl ⟨_, hround.symm⟩)

variable {result : PurgeRuleResult}

theorem purgeRule_spares (hrule : rule.Sound)
    (hends : PurgeRule options rule db (.ok (result, db'))) :
    Spares options.clock rule.table db db' := by
  have hround : ∀ progress next : PurgeProgress, Spares options.clock rule.table db progress.db →
      purgeRound options rule (hasLegalHold rule db) progress = .inl next →
      Spares options.clock rule.table db next.db := by
    intro progress next hspares hnext
    rcases purgeRound_cases hnext with ⟨_, h⟩ | ⟨_, h⟩ | ⟨batch, hbatch, ⟨later, h, hdb⟩ | ⟨_, h⟩⟩
    · cases h
    · cases h
    · cases h
      rw [hdb]
      exact hspares.trans (spares_of_processBatch hrule hbatch)
    · cases h
  have hleft : ∀ progress (left : Except String (PurgeRuleResult × Database)),
      Spares options.clock rule.table db (PurgeProgress.db progress) →
      purgeRound options rule (hasLegalHold rule db) progress = .inr left →
      ∀ result last, left = .ok (result, last) → Spares options.clock rule.table db last := by
    rintro progress _ hspares hleft result last rfl
    rcases purgeRound_cases hleft with ⟨_, h⟩ | ⟨_, h⟩ | ⟨batch, hbatch, ⟨_, h, _⟩ | ⟨_, h⟩⟩
    · cases h
    · cases h
      exact hspares
    · cases h
    · cases h
      exact hspares.trans (spares_of_processBatch hrule hbatch)
  exact Ends.of_invariant hround hleft (Spares.refl _ _ _) hends result db' rfl

theorem works_of_purgeRule (hrule : rule.Sound)
    (hends : PurgeRule options rule db (.ok (result, db'))) :
    options.maxRowsPerRun = 0 ∨ ¬ Fails options rule (hasLegalHold rule db) db := by
  by_contra hstuck
  rw [not_or, not_not] at hstuck
  obtain ⟨message, hfails⟩ := exists_purgeRule_fails hrule (by omega) hstuck.2
  cases hends.unique hfails

theorem Spares.heldFlags_eq {name : String} (h : Spares options.clock name db db')
    (hother : rule.table ≠ name) :
    heldFlags options rule (hasLegalHold rule db') db' =
      heldFlags options rule (hasLegalHold rule db) db := by
  rw [heldFlags, h.candidatesIn_eq hother, h.hasLegalHold_eq, heldFlags]

theorem RunRetentionPurge.ends_flags (h : RunRetentionPurge options rules db results last)
    (hsound : ∀ rule ∈ rules, rule.Sound) (htables : (rules.map PurgeableRetentionRule.table).Nodup)
    {i : ℕ} (hrule : rules[i]? = some rule) :
    ∃ result, results[i]? = some result ∧
      Ends (flagRound (staysPut options rule) options.batchSize options.maxRowsPerRun)
        ⟨heldFlags options rule (hasLegalHold rule db) db, 0, 0⟩
        ⟨result.rowsPurged, result.rowsSkipped, result.volumeCapReached⟩ := by
  induction h generalizing i with
  | nil => cases hrule
  | @cons first rules _ _ _ result _ hfirst _ ih =>
    have hsoundFirst := hsound first List.mem_cons_self
    rw [List.map_cons, List.nodup_cons] at htables
    cases i with
    | zero =>
      cases hrule
      exact ⟨result, rfl, (purgeRule_iff_flags hsoundFirst
        (works_of_purgeRule hsoundFirst hfirst) _).mp ⟨_, hfirst, rfl⟩⟩
    | succ =>
      have hmem : rule ∈ rules := List.mem_of_getElem? hrule
      have hother : rule.table ≠ first.table := fun hsame =>
        htables.1 (hsame ▸ List.mem_map_of_mem hmem)
      rw [← (purgeRule_spares hsoundFirst hfirst).heldFlags_eq hother]
      exact ih (fun rule hrule => hsound rule (List.mem_cons_of_mem _ hrule)) htables.2 hrule

/-! ## One batch is enough -/

theorem mem_candidatesIn {row : TableRow} :
    row ∈ candidatesIn options rule db ↔
      row ∈ (db.tables rule.table).rows ∧ isOlder rule (options.cutoff rule) row := by
  rw [candidatesIn, candidates, List.mem_insertionSort, List.mem_filter]

theorem purgeIds_eq_purgedRow {row : TableRow} (hrow : row ∈ (db.tables rule.table).rows) :
    purgeIds rule.purgeAction options.clock
        (purgedIds (hasLegalHold rule db) (candidatesIn options rule db)) row =
      purgedRow options rule db row := by
  have hmem : row.id ∈ purgedIds (hasLegalHold rule db) (candidatesIn options rule db) ↔
      (isOlder rule (options.cutoff rule) row && !isHeld (hasLegalHold rule db) row) = true := by
    rw [purgedIds, List.mem_map, Bool.and_eq_true]
    apply Iff.intro
    · rintro ⟨other, hother, hid⟩
      obtain ⟨hother, hunheld⟩ := List.mem_filter.mp hother
      obtain ⟨hother, holder⟩ := mem_candidatesIn.mp hother
      obtain rfl := List.inj_on_of_nodup_map (db.tables rule.table).ids hother hrow hid
      exact ⟨holder, hunheld⟩
    · rintro ⟨holder, hunheld⟩
      exact ⟨row, List.mem_filter.mpr ⟨mem_candidatesIn.mpr ⟨hrow, holder⟩, hunheld⟩, rfl⟩
  rw [purgeIds, purgedRow, if_congr hmem rfl rfl]

theorem exists_purgeRule_short (hrule : rule.Sound)
    (hshort : (candidatesIn options rule db).length < options.batchSize)
    (hworks : ¬ Fails options rule (hasLegalHold rule db) db) (hcap : 0 < options.maxRowsPerRun) :
    ∃ result next, PurgeRule options rule db (.ok (result, next)) ∧
      result.counts = distinctCounts options rule db ∧ result.volumeCapReached = false ∧
      (options.dryRun = true → next = db) ∧
      (options.dryRun = false →
        Database.Becomes options.clock rule.table (purgedRow options rule db) db next) := by
  have htake : (candidatesIn options rule db).take options.batchSize =
      candidatesIn options rule db := List.take_of_length_le hshort.le
  have hflags : (heldFlags options rule (hasLegalHold rule db) db).take options.batchSize =
      heldFlags options rule (hasLegalHold rule db) db := by
    rw [heldFlags, ← List.map_take, htake]
  have hbatch : ∃ next,
      processBatch options rule (hasLegalHold rule db) 0 db =
        .ok ⟨next, (heldFlags options rule (hasLegalHold rule db) db).count false,
          (heldFlags options rule (hasLegalHold rule db) db).count true⟩ ∧
      (options.dryRun = true → next = db) ∧
      (options.dryRun = false →
        Database.Becomes options.clock rule.table (purgedRow options rule db) db next) := by
    cases hdry : options.dryRun with
    | true =>
      refine ⟨db, ?_, fun _ => rfl, fun hreal => by cases hreal⟩
      rw [processBatch_dry hdry, hflags]
    | false =>
      obtain ⟨next, hnext, hbecomes⟩ := exists_processBatch_real hrule hdry 0 hworks
      rw [hflags] at hnext
      rw [htake] at hbecomes
      refine ⟨next, hnext, fun hdryRun => (by cases hdryRun), fun _ => ⟨hbecomes.schema, ?_⟩⟩
      intro other
      obtain ⟨added, hrows, hadded⟩ := hbecomes.rows other
      refine ⟨added, ?_, hadded⟩
      rw [hrows]
      by_cases hother : other = rule.table
      · subst hother
        rw [if_pos rfl, if_pos rfl]
        congr 1
        exact List.filterMap_congr fun row hrow => purgeIds_eq_purgedRow hrow
      · rw [if_neg hother, if_neg hother]
  obtain ⟨next, hnext, hdry, hreal⟩ := hbatch
  have hsum := count_true_add_count_false (heldFlags options rule (hasLegalHold rule db) db)
  rw [heldFlags, List.length_map, ← heldFlags] at hsum
  have hround : purgeRound options rule (hasLegalHold rule db) ⟨db, 0, 0, 0⟩ = _ :=
    purgeRound_of_ok hcap hnext
  rw [if_pos (show _ + _ < options.batchSize by dsimp only; omega)] at hround
  refine ⟨_, next, .stop hround, ?_, rfl, hdry, hreal⟩
  rw [distinctCounts, length_filter_isHeld, length_filter_not_isHeld]
  simp only [PurgeRuleResult.counts, PurgeProgress.result, Nat.zero_add, heldFlags]

theorem Spares.fails_iff {name : String} (h : Spares options.clock name db db')
    (hother : rule.table ≠ name) :
    Fails options rule (hasLegalHold rule db') db' ↔
      Fails options rule (hasLegalHold rule db) db := by
  rw [Fails, Refuses, h.heldFlags_eq hother, h.schema, Fails, Refuses]

theorem not_fails_of_held (hheld : rule.purgeAction = .redact →
    ∀ row ∈ candidatesIn options rule db, isHeld (hasLegalHold rule db) row) :
    ¬ Fails options rule (hasLegalHold rule db) db := by
  rintro ⟨_, ⟨haction, _⟩, hunheld⟩
  obtain ⟨row, hrow, hfalse⟩ := List.mem_map.mp (List.mem_of_mem_take hunheld)
  rw [hheld haction row hrow] at hfalse
  cases hfalse

theorem Spares.distinctCounts_eq {name : String} (h : Spares options.clock name db db')
    (hother : rule.table ≠ name) :
    distinctCounts options rule db' = distinctCounts options rule db := by
  rw [distinctCounts, h.candidatesIn_eq hother, h.hasLegalHold_eq, distinctCounts]

theorem Spares.purgedBy_eq {name : String} (h : Spares clock name db db') :
    purgedBy options rules db' = purgedBy options rules db := by
  funext other row
  rw [purgedBy, purgedBy]
  cases rules.find? (·.table = other) with
  | none => rfl
  | some =>
    dsimp only
    rw [purgedRow, h.hasLegalHold_eq, purgedRow]

theorem purgedBy_cons_self : purgedBy options (rule :: rules) db rule.table =
    purgedRow options rule db := by
  have hfirst : (rule :: rules).find? (·.table = rule.table) = some rule :=
    List.find?_cons_of_pos (by simp)
  rw [purgedBy, hfirst]

theorem purgedBy_cons_of_ne {name : String} (hother : rule.table ≠ name) :
    purgedBy options (rule :: rules) db name = purgedBy options rules db name := by
  rw [purgedBy, List.find?_cons_of_neg (by simpa using hother), purgedBy]

theorem purgedBy_of_not_mem {name : String}
    (hname : name ∉ rules.map PurgeableRetentionRule.table) :
    purgedBy options rules db name = some := by
  have hnone : rules.find? (·.table = name) = none := by
    rw [List.find?_eq_none]
    intro rule hrule hsame
    exact hname (of_decide_eq_true hsame ▸ List.mem_map_of_mem hrule)
  rw [purgedBy, hnone]

theorem filterMap_purgedBy_audit {name : String} {added : List TableRow}
    (hadded : ∀ row ∈ added, name = "audit_logs" ∧ IsAuditRow options.clock row) :
    added.filterMap (purgedBy options rules db name) = added := by
  have hkept : ∀ row ∈ added, purgedBy options rules db name row = some row := by
    intro row hrow
    rw [purgedBy]
    cases rules.find? (·.table = name) with
    | none => rfl
    | some rule =>
      dsimp only
      rw [purgedRow, not_isOlder_of_isAuditRow (hadded row hrow).2 (cutoff_le_clock options rule)]
      rfl
  rw [List.filterMap_congr hkept, List.filterMap_some]

theorem exists_run_short (db : Database) (hreal : options.dryRun = false)
    (hcap : 0 < options.maxRowsPerRun)
    (hsound : ∀ rule ∈ rules, rule.Sound)
    (htables : (rules.map PurgeableRetentionRule.table).Nodup)
    (hshort : ∀ rule ∈ rules, (candidatesIn options rule db).length < options.batchSize)
    (hworks : ∀ rule ∈ rules, ¬ Fails options rule (hasLegalHold rule db) db) :
    ∃ results last, RunRetentionPurge options rules db results last ∧
      results.map PurgeRuleResult.counts = rules.map (distinctCounts options · db) ∧
      (∀ result ∈ results, result.volumeCapReached = false) ∧
      BecomesAll options.clock (purgedBy options rules db) db last := by
  induction rules generalizing db with
  | nil =>
    refine ⟨[], db, .nil db, rfl, fun _ hresult => absurd hresult List.not_mem_nil,
      fun name => ⟨[], ?_, fun _ hrow => absurd hrow List.not_mem_nil⟩⟩
    rw [purgedBy_of_not_mem List.not_mem_nil, List.filterMap_some, List.append_nil]
  | cons first rules ih =>
    rw [List.map_cons, List.nodup_cons] at htables
    obtain ⟨result, next, hfirst, hcounts, hcapped, _, hbecomes⟩ := exists_purgeRule_short
      (hsound first List.mem_cons_self) (hshort first List.mem_cons_self)
      (hworks first List.mem_cons_self) hcap
    have hspares := (hbecomes hreal).spares
    have hother : ∀ rule ∈ rules, rule.table ≠ first.table := fun rule hrule hsame =>
      htables.1 (hsame ▸ List.mem_map_of_mem hrule)
    obtain ⟨results, last, hrest, hcountsRest, hcappedRest, hrowsRest⟩ := ih next
      (fun rule hrule => hsound rule (List.mem_cons_of_mem _ hrule)) htables.2 (by
        intro rule hrule
        rw [hspares.candidatesIn_eq (hother rule hrule)]
        exact hshort rule (List.mem_cons_of_mem _ hrule)) (by
        intro rule hrule
        rw [hspares.fails_iff (hother rule hrule)]
        exact hworks rule (List.mem_cons_of_mem _ hrule))
    refine ⟨result :: results, last, .cons hfirst hrest, ?_,
      List.forall_mem_cons.mpr ⟨hcapped, hcappedRest⟩, ?_⟩
    · rw [List.map_cons, hcounts, hcountsRest, List.map_cons]
      congr 1
      exact List.map_congr_left fun rule hrule => hspares.distinctCounts_eq (hother rule hrule)
    · intro name
      obtain ⟨added, hrows, hadded⟩ := (hbecomes hreal).rows name
      obtain ⟨more, hrows', hmore⟩ := hrowsRest name
      refine ⟨added ++ more, ?_, ?_⟩
      · by_cases hname : first.table = name
        · subst hname
          rw [hrows', hrows, purgedBy_of_not_mem htables.1, List.filterMap_some, if_pos rfl,
            purgedBy_cons_self, List.append_assoc]
        · rw [hrows', hrows, if_neg (Ne.symm hname), hspares.purgedBy_eq,
            purgedBy_cons_of_ne hname, List.filterMap_append, filterMap_purgedBy_audit hadded,
            List.append_assoc]
      · intro row hmem
        rcases List.mem_append.mp hmem with hold | hnew
        · exact hadded row hold
        · exact hmore row hnew

theorem exists_run_dry (options : PurgeJobOptions) (db : Database)
    (hdry : options.dryRun = true) (hcap : 0 < options.maxRowsPerRun)
    (hsound : ∀ rule ∈ rules, rule.Sound)
    (hshort : ∀ rule ∈ rules, (candidatesIn options rule db).length < options.batchSize) :
    ∃ results, RunRetentionPurge options rules db results db ∧
      results.map PurgeRuleResult.counts = rules.map (distinctCounts options · db) := by
  induction rules with
  | nil => exact ⟨[], .nil db, rfl⟩
  | cons first _ ih =>
    have hworks : ¬ Fails options first (hasLegalHold first db) db := by
      rintro ⟨hreal, _⟩
      rw [hdry] at hreal
      cases hreal
    obtain ⟨result, next, hfirst, hcounts, _, hsame, _⟩ := exists_purgeRule_short
      (hsound first List.mem_cons_self) (hshort first List.mem_cons_self) hworks hcap
    rw [hsame hdry] at hfirst
    obtain ⟨results, hrest, hcountsRest⟩ :=
      ih (fun rule hrule => hsound rule (List.mem_cons_of_mem _ hrule))
        fun rule hrule => hshort rule (List.mem_cons_of_mem _ hrule)
    refine ⟨result :: results, .cons hfirst hrest, ?_⟩
    rw [List.map_cons, hcounts, hcountsRest, List.map_cons]

theorem purgedBy_of_mem (htables : (rules.map PurgeableRetentionRule.table).Nodup)
    (hrule : rule ∈ rules) : purgedBy options rules db rule.table = purgedRow options rule db := by
  induction rules with
  | nil => cases hrule
  | cons first _ ih =>
    rw [List.map_cons, List.nodup_cons] at htables
    rcases List.mem_cons.mp hrule with rfl | hmem
    · exact purgedBy_cons_self
    · have hother : first.table ≠ rule.table := fun hsame =>
        htables.1 (hsame ▸ List.mem_map_of_mem hmem)
      rw [purgedBy_cons_of_ne hother, ih htables.2 hmem]

theorem RunRetentionPurge.hasLegalHold_eq (h : RunRetentionPurge options rules db results last)
    (hsound : ∀ rule ∈ rules, rule.Sound) : hasLegalHold rule last = hasLegalHold rule db := by
  induction h with
  | nil => rfl
  | cons first _ ih =>
    rw [ih fun rule hrule => hsound rule (List.mem_cons_of_mem _ hrule),
      (purgeRule_spares (hsound _ List.mem_cons_self) first).hasLegalHold_eq]

/-! ## The run after -/

theorem filterMap_purgedRow_of_held
    (hheld : ∀ row ∈ candidatesIn options rule db, isHeld (hasLegalHold rule db) row) :
    (db.tables rule.table).rows.filterMap (purgedRow options rule db) =
      (db.tables rule.table).rows := by
  have hkept : ∀ row ∈ (db.tables rule.table).rows, purgedRow options rule db row = some row := by
    intro row hrow
    rw [purgedRow]
    apply if_neg
    rw [Bool.and_eq_true, not_and]
    intro holder
    rw [hheld row (mem_candidatesIn.mpr ⟨hrow, holder⟩)]
    exact Bool.false_ne_true
  rw [List.filterMap_congr hkept, List.filterMap_some]

theorem candidates_purgedRow (hone : OneBatch options rule db) :
    candidates rule (options.cutoff rule)
        ((db.tables rule.table).rows.filterMap (purgedRow options rule db)) =
      (candidatesIn options rule db).filter (isHeld (hasLegalHold rule db)) := by
  cases haction : rule.purgeAction with
  | delete =>
    have hguard : purgedRow options rule db = Option.guard fun row =>
        !(isOlder rule (options.cutoff rule) row && !isHeld (hasLegalHold rule db) row) := by
      funext row
      rw [purgedRow, haction, Option.guard, PurgeAction.apply]
      cases isOlder rule (options.cutoff rule) row && !isHeld (hasLegalHold rule db) row <;> rfl
    rw [hguard, List.filterMap_eq_filter, candidates_filter]
    apply List.filter_congr
    intro row hrow
    rw [← candidatesIn, mem_candidatesIn] at hrow
    rw [hrow.2, Bool.true_and, Bool.not_not]
  | redact =>
    rw [filterMap_purgedRow_of_held (hone.2 haction), ← candidatesIn, Eq.comm,
      List.filter_eq_self]
    exact hone.2 haction

/-! ## When a run has the effect -/

theorem nodup_tables_schedule :
    (purgeableRetentionSchedule.map PurgeableRetentionRule.table).Nodup := by decide

theorem sound_schedule : ∀ rule ∈ purgeableRetentionSchedule, rule.Sound :=
  fun _ hrule => sound_of_mem_schedule hrule

theorem maxRowsPerRun_pos_of_run
    (hrun : RunRetentionPurge options purgeableRetentionSchedule db results db')
    (huncapped : ∀ result ∈ results, result.volumeCapReached = false) :
    0 < options.maxRowsPerRun := by
  by_contra hcap
  have hfirst : purgeableRetentionSchedule[0]? = some streamRule := rfl
  obtain ⟨result, hresult, hends⟩ := hrun.ends_flags sound_schedule nodup_tables_schedule hfirst
  have hleft := (ends_inr_iff (flagRound_capped (not_lt.mp hcap))).mp hends
  have hcapped : result.volumeCapReached = true := congrArg FlagResult.capReached hleft
  rw [huncapped result (List.mem_of_getElem? hresult)] at hcapped
  cases hcapped

theorem purgeEffect_of_oneBatch (hreal : options.dryRun = false) (hcap : 0 < options.maxRowsPerRun)
    (hrun : RunRetentionPurge options purgeableRetentionSchedule db results db')
    (hone : ∀ rule ∈ purgeableRetentionSchedule, OneBatch options rule db) :
    PurgeEffect options db results db' := by
  obtain ⟨first, last, hrun', hcounts, _, hrows⟩ := exists_run_short db hreal hcap sound_schedule
    nodup_tables_schedule (fun rule hrule => (hone rule hrule).1)
    fun rule hrule => not_fails_of_held (hone rule hrule).2
  obtain ⟨hresults, hlast⟩ := hrun'.unique hrun
  rw [hresults] at hcounts
  rw [hlast] at hrows
  -- what is left for the second run is held
  have hleft : ∀ rule ∈ purgeableRetentionSchedule, candidatesIn options rule db' =
      (candidatesIn options rule db).filter (isHeld (hasLegalHold rule db)) := by
    intro rule hrule
    obtain ⟨added, hrows', hadded⟩ := hrows rule.table
    rw [purgedBy_of_mem nodup_tables_schedule hrule] at hrows'
    rw [candidatesIn_of_rows hrows' hadded, candidates_purgedRow (hone rule hrule)]
  have hheld : ∀ rule ∈ purgeableRetentionSchedule, ∀ row ∈ candidatesIn options rule db',
      isHeld (hasLegalHold rule db') row := by
    intro rule hrule row hrow
    rw [hleft rule hrule] at hrow
    rw [hrun.hasLegalHold_eq sound_schedule]
    exact (List.mem_filter.mp hrow).2
  refine ⟨hrows, hcounts, ?_, ?_⟩
  · obtain ⟨results', db'', hagain, hcounts', _, hrows'⟩ := exists_run_short db' hreal hcap
      sound_schedule nodup_tables_schedule (by
        intro rule hrule
        rw [hleft rule hrule]
        exact (List.length_filter_le _ _).trans_lt (hone rule hrule).1)
      fun rule hrule => not_fails_of_held fun _ => hheld rule hrule
    refine ⟨results', db'', hagain, ?_, ?_⟩
    · intro result hresult
      have hmem := List.mem_map_of_mem (f := PurgeRuleResult.counts) hresult
      rw [hcounts'] at hmem
      obtain ⟨rule, hrule, hsame⟩ := List.mem_map.mp hmem
      have hpurged : result.rowsPurged = (distinctCounts options rule db').1 :=
        (congrArg Prod.fst hsame).symm
      rw [hpurged, distinctCounts, List.length_eq_zero_iff, List.filter_eq_nil_iff]
      intro row hrow
      rw [hheld rule hrule row hrow]
      exact Bool.false_ne_true
    · intro name
      obtain ⟨added, hsame, hadded⟩ := hrows' name
      refine ⟨added, ?_, hadded⟩
      rw [hsame, List.filterMap_some]
      congr 1
      by_cases hname : name ∈ purgeableRetentionSchedule.map PurgeableRetentionRule.table
      · obtain ⟨rule, hrule, rfl⟩ := List.mem_map.mp hname
        rw [purgedBy_of_mem nodup_tables_schedule hrule,
          filterMap_purgedRow_of_held (hheld rule hrule)]
      · rw [purgedBy_of_not_mem hname, List.filterMap_some]
  · obtain ⟨results', hdry, hcounts'⟩ := exists_run_dry { options with dryRun := true } db rfl hcap
      sound_schedule fun rule hrule => (hone rule hrule).1
    refine ⟨results', hdry, ?_⟩
    rw [hcounts', hcounts]
    rfl

theorem counts_eq_of_getElem? {counts : List (ℕ × ℕ)}
    (hcounts : results.map PurgeRuleResult.counts = counts) {i : ℕ}
    (hresult : results[i]? = some result) : counts[i]? = some result.counts := by
  rw [← hcounts, List.getElem?_map, hresult, Option.map_some]

theorem length_lt_of_purgeEffect_delete (hreal : options.dryRun = false)
    (hrun : RunRetentionPurge options purgeableRetentionSchedule db results db')
    (huncapped : ∀ result ∈ results, result.volumeCapReached = false)
    (heffect : PurgeEffect options db results db') (hrule : rule ∈ purgeableRetentionSchedule)
    (haction : rule.purgeAction = .delete) :
    (candidatesIn options rule db).length < options.batchSize := by
  obtain ⟨i, hi⟩ := List.mem_iff_getElem?.mp hrule
  obtain ⟨result, hresult, hends⟩ := hrun.ends_flags sound_schedule nodup_tables_schedule hi
  have hcapped := huncapped result (List.mem_of_getElem? hresult)
  have hcount := counts_eq_of_getElem? heffect.counts hresult
  rw [List.getElem?_map, hi, Option.map_some, Option.some_inj, distinctCounts,
    length_filter_isHeld] at hcount
  have hskipped := (congrArg Prod.snd hcount).symm
  obtain ⟨dryResults, hdryRun, hdryCounts⟩ := heffect.dry
  obtain ⟨dry, hdry, hdryEnds⟩ := hdryRun.ends_flags sound_schedule nodup_tables_schedule hi
  have hsame := counts_eq_of_getElem? hdryCounts hdry
  rw [List.getElem?_map, hresult, Option.map_some, Option.some_inj] at hsame
  have hmoves : staysPut options rule = false := by
    rw [staysPut, hreal, haction]
    rfl
  rw [hmoves] at hends
  have hlength := length_lt_of_same_counts hends hcapped hskipped hdryEnds
    ⟨(congrArg Prod.fst hsame).symm, (congrArg Prod.snd hsame).symm⟩
  rwa [heldFlags, List.length_map] at hlength

theorem oneBatch_of_purgeEffect_redact
    (hrun : RunRetentionPurge options purgeableRetentionSchedule db results db')
    (huncapped : ∀ result ∈ results, result.volumeCapReached = false)
    (heffect : PurgeEffect options db results db') (hrule : rule ∈ purgeableRetentionSchedule)
    (haction : rule.purgeAction = .redact) : OneBatch options rule db := by
  obtain ⟨i, hi⟩ := List.mem_iff_getElem?.mp hrule
  obtain ⟨result, hresult, hends⟩ := hrun.ends_flags sound_schedule nodup_tables_schedule hi
  have hcapped := huncapped result (List.mem_of_getElem? hresult)
  have hstays : staysPut options rule = true := by
    rw [staysPut, haction]
    exact Bool.or_true _
  rw [hstays] at hends
  have hlength := length_lt_of_ends_stays hends hcapped
  obtain ⟨added, hrows, hadded⟩ := heffect.rows rule.table
  have hpurged : (db.tables rule.table).rows.filterMap (purgedRow options rule db) =
      (db.tables rule.table).rows.filterMap (purgeIds .redact options.clock
        (purgedIds (hasLegalHold rule db) (candidatesIn options rule db))) :=
    List.filterMap_congr fun row hrow => by rw [← purgeIds_eq_purgedRow hrow, haction]
  rw [purgedBy_of_mem nodup_tables_schedule hrule, hpurged] at hrows
  have hflags : heldFlags options rule (hasLegalHold rule db') db' =
      heldFlags options rule (hasLegalHold rule db) db := by
    rw [hrun.hasLegalHold_eq sound_schedule, heldFlags, candidatesIn_of_rows hrows hadded,
      heldFlags_redacted (sound_of_mem_schedule hrule haction).2, heldFlags, candidatesIn]
  obtain ⟨results', db'', hagain, hzero, _⟩ := heffect.again
  obtain ⟨second, hsecond, hendsAgain⟩ :=
    hagain.ends_flags sound_schedule nodup_tables_schedule hi
  rw [hflags, ends_inr_iff (flagRound_short (maxRowsPerRun_pos_of_run hrun huncapped) hlength)]
    at hendsAgain
  have hcount := congrArg FlagResult.purged hendsAgain
  dsimp only at hcount
  rw [hzero second (List.mem_of_getElem? hsecond), Nat.zero_add, Eq.comm, List.count_eq_zero]
    at hcount
  rw [heldFlags, List.length_map] at hlength
  refine ⟨hlength, fun _ row hrow => ?_⟩
  by_contra hunheld
  apply hcount
  rw [← Bool.eq_false_of_not_eq_true hunheld]
  exact List.mem_map_of_mem hrow

end

/-- A run that ends and is not stopped by the cap has purged what it should, has counted
it right, leaves nothing to a second run and is foreseen by a dry run, if and only if
every rule had fewer candidates than a batch holds and the redaction had none but held
ones. -/
theorem purgeEffect_iff_oneBatch {options : PurgeJobOptions} (hreal : options.dryRun = false)
    {db db' : Database} {results : List PurgeRuleResult}
    (hrun : RunRetentionPurge options purgeableRetentionSchedule db results db')
    (huncapped : ∀ result ∈ results, result.volumeCapReached = false) :
    PurgeEffect options db results db' ↔
      ∀ rule ∈ purgeableRetentionSchedule, OneBatch options rule db := by
  apply Iff.intro
  · intro heffect rule hrule
    cases haction : rule.purgeAction with
    | delete =>
      refine ⟨length_lt_of_purgeEffect_delete hreal hrun huncapped heffect hrule haction, ?_⟩
      intro hredact
      cases haction.symm.trans hredact
    | redact => exact oneBatch_of_purgeEffect_redact hrun huncapped heffect hrule haction
  · exact purgeEffect_of_oneBatch hreal (maxRowsPerRun_pos_of_run hrun huncapped) hrun

/-- The two tables with a row each. -/
def streamAndLetter : Database where
  tables name := if name = "streams" then heldStream.tables name else oldLetter.tables name
  nextAuditId := 1
  auditIds := oldLetter.auditIds

/-- A run with batches of two rows. -/
def pairBatches : PurgeJobOptions := { smallBatches with batchSize := 2 }

theorem purgeEffect_iff_oneBatch_streamAndLetter :
    ∃ results db',
      RunRetentionPurge pairBatches purgeableRetentionSchedule streamAndLetter results db' ∧
      (∀ result ∈ results, result.volumeCapReached = false) ∧
      PurgeEffect pairBatches streamAndLetter results db' := by
  have hone : ∀ rule ∈ purgeableRetentionSchedule, OneBatch pairBatches rule streamAndLetter := by
    decide
  obtain ⟨results, db', hrun, _, huncapped, _⟩ := exists_run_short streamAndLetter rfl (by decide)
    sound_schedule nodup_tables_schedule (fun rule hrule => (hone rule hrule).1)
    fun rule hrule => not_fails_of_held (hone rule hrule).2
  exact ⟨results, db', hrun, huncapped,
    (purgeEffect_iff_oneBatch rfl hrun huncapped).mpr hone⟩

theorem ok_of_purgeRule {options : PurgeJobOptions} {rule : PurgeableRetentionRule}
    {db : Database} (hrule : rule.Sound)
    (hworks : ¬ Fails options rule (hasLegalHold rule db) db)
    {left : Except String (PurgeRuleResult × Database)} (hends : PurgeRule options rule db left) :
    ∃ result next, left = .ok (result, next) := by
  have hleft : ∀ (progress : PurgeProgress) (left : Except String (PurgeRuleResult × Database)),
      (options.maxRowsPerRun = 0 ∨ ¬ Fails options rule (hasLegalHold rule db) progress.db) →
      purgeRound options rule (hasLegalHold rule db) progress = .inr left →
      ∃ result next, left = .ok (result, next) := by
    intro progress left hworks hround
    rcases purgeRound_cases hround with
      ⟨message, h⟩ | ⟨result, h⟩ | ⟨batch, _, ⟨_, h, _⟩ | ⟨result, h⟩⟩
    · cases h
      by_cases hcap : options.maxRowsPerRun ≤ progress.rowsPurged
      · rw [purgeRound, if_pos hcap] at hround
        cases hround
      · obtain ⟨next, hnext, _⟩ := exists_processBatch hrule progress.batchIndex
          (hworks.resolve_left (by omega))
        rw [purgeRound_of_ok (not_le.mp hcap) hnext] at hround
        split_ifs at hround
        cases hround
    · cases h
      exact ⟨_, _, rfl⟩
    · cases h
    · cases h
      exact ⟨_, _, rfl⟩
  exact Ends.of_invariant (fun _ _ => not_fails_of_round hrule) hleft (.inr hworks) hends

theorem exists_run_of_ends {options : PurgeJobOptions} {rules : List PurgeableRetentionRule}
    (db : Database) (hsound : ∀ rule ∈ rules, rule.Sound)
    (htables : (rules.map PurgeableRetentionRule.table).Nodup)
    (hworks : ∀ rule ∈ rules, ¬ Fails options rule (hasLegalHold rule db) db)
    (hends : ∀ rule ∈ rules, ∃ purged skipped,
      Ends (flagRound (staysPut options rule) options.batchSize options.maxRowsPerRun)
        ⟨heldFlags options rule (hasLegalHold rule db) db, 0, 0⟩ ⟨purged, skipped, false⟩) :
    ∃ results last, RunRetentionPurge options rules db results last ∧
      ∀ result ∈ results, result.volumeCapReached = false := by
  induction rules generalizing db with
  | nil => exact ⟨[], db, .nil db, fun _ hresult => absurd hresult List.not_mem_nil⟩
  | cons first rules ih =>
    have hsoundFirst := hsound first List.mem_cons_self
    have hworksFirst := hworks first List.mem_cons_self
    obtain ⟨purged, skipped, hflags⟩ := hends first List.mem_cons_self
    obtain ⟨left, hfirst, hcounts⟩ :=
      (purgeRule_iff_flags hsoundFirst (.inr hworksFirst) _).mpr hflags
    obtain ⟨result, next, rfl⟩ := ok_of_purgeRule hsoundFirst hworksFirst hfirst
    have hspares := purgeRule_spares hsoundFirst hfirst
    rw [List.map_cons, List.nodup_cons] at htables
    have hother : ∀ rule ∈ rules, rule.table ≠ first.table := fun rule hrule hsame =>
      htables.1 (hsame ▸ List.mem_map_of_mem hrule)
    obtain ⟨results, last, hrest, huncapped⟩ := ih next
      (fun rule hrule => hsound rule (List.mem_cons_of_mem _ hrule)) htables.2 (by
        intro rule hrule
        rw [hspares.fails_iff (hother rule hrule)]
        exact hworks rule (List.mem_cons_of_mem _ hrule)) (by
        intro rule hrule
        rw [hspares.heldFlags_eq (hother rule hrule)]
        exact hends rule (List.mem_cons_of_mem _ hrule))
    exact ⟨result :: results, last, .cons hfirst hrest,
      List.forall_mem_cons.mpr ⟨congrArg FlagResult.capReached hcounts, huncapped⟩⟩

/-- A dry run with batches of one row counts an old letter until it reaches the cap. -/
theorem purgeEffect_fails_oldLetter :
    ¬ ∀ (options : PurgeJobOptions) (db db' : Database) (results : List PurgeRuleResult),
      1 ≤ options.batchSize → options.dryRun = false →
      RunRetentionPurge options purgeableRetentionSchedule db results db' →
      (∀ result ∈ results, result.volumeCapReached = false) →
        PurgeEffect options db results db' := by
  intro hall
  have hflags : ∀ rule ∈ purgeableRetentionSchedule,
      heldFlags smallBatches rule (hasLegalHold rule oldLetter) oldLetter =
        if rule = letterRule then [false] else [] := by
    decide
  have hworks : ∀ rule ∈ purgeableRetentionSchedule,
      ¬ Fails smallBatches rule (hasLegalHold rule oldLetter) oldLetter := by
    rintro rule hrule ⟨_, ⟨haction, _⟩, hunheld⟩
    rw [hflags rule hrule] at hunheld
    split_ifs at hunheld with hletter
    · rw [hletter] at haction
      cases haction
    · cases hunheld
  have hends : ∀ rule ∈ purgeableRetentionSchedule, ∃ purged skipped,
      Ends (flagRound (staysPut smallBatches rule) 1 50000)
        ⟨heldFlags smallBatches rule (hasLegalHold rule oldLetter) oldLetter, 0, 0⟩
        ⟨purged, skipped, false⟩ := by
    intro rule hrule
    rw [hflags rule hrule]
    split_ifs with hletter
    · rw [hletter]
      exact ⟨1, 0, .next rfl (.stop rfl)⟩
    · exact ⟨0, 0, .stop rfl⟩
  obtain ⟨results, db', hrun, huncapped⟩ := exists_run_of_ends oldLetter sound_schedule
    nodup_tables_schedule hworks hends
  have heffect := hall smallBatches oldLetter db' results le_rfl rfl hrun huncapped
  have hlength := length_lt_of_purgeEffect_delete rfl hrun huncapped heffect
    letterRule_mem_schedule rfl
  exact absurd hlength (by decide)

end Fluxora.Retention
