/-
# When the batch loop ends

Seen through the held flags of its candidates, a round of the loop is a round over flags. The loop
therefore ends on exactly the tables on which that one does.
-/

import Fluxora.Retention.Batches

namespace Fluxora.Retention

open Lib Lib.Loop

/-- The candidates in the table of the rule. -/
def candidatesIn (options : PurgeJobOptions) (rule : PurgeableRetentionRule) (db : Database) :
    List TableRow :=
  candidates rule (options.cutoff rule) (db.tables rule.table).rows

/-- Which candidates are under legal hold. -/
def heldFlags (options : PurgeJobOptions) (rule : PurgeableRetentionRule) (hasLegalHold : Bool)
    (db : Database) : List Bool :=
  (candidatesIn options rule db).map (isHeld hasLegalHold)

/-- The rows of a batch stay where they are. -/
def staysPut (options : PurgeJobOptions) (rule : PurgeableRetentionRule) : Bool :=
  options.dryRun || rule.purgeAction = .redact

/-- The batch would have a row redacted, and the table refuses that. -/
def Fails (options : PurgeJobOptions) (rule : PurgeableRetentionRule) (hasLegalHold : Bool)
    (db : Database) : Prop :=
  options.dryRun = false ∧ Refuses rule db ∧
    false ∈ (heldFlags options rule hasLegalHold db).take options.batchSize

section

variable {options : PurgeJobOptions} {rule : PurgeableRetentionRule} {hasLegalHold : Bool}
  {db : Database}

/-! ## One batch -/

variable (rows : List TableRow)

theorem length_filter_isHeld :
    (rows.filter (isHeld hasLegalHold)).length = (rows.map (isHeld hasLegalHold)).count true := by
  rw [List.count, List.countP_map, List.countP_eq_length_filter]
  congr 2
  funext row
  cases hheld : isHeld hasLegalHold row <;> simp [hheld]

theorem length_filter_not_isHeld :
    (rows.filter (!isHeld hasLegalHold ·)).length =
      (rows.map (isHeld hasLegalHold)).count false := by
  rw [List.count, List.countP_map, List.countP_eq_length_filter]
  congr 2
  funext row
  cases hheld : isHeld hasLegalHold row <;> simp [hheld]

theorem processBatch_dry (hdry : options.dryRun = true) (batchIndex : ℕ) (db : Database) :
    processBatch options rule hasLegalHold batchIndex db =
      .ok ⟨db, ((heldFlags options rule hasLegalHold db).take options.batchSize).count false,
        ((heldFlags options rule hasLegalHold db).take options.batchSize).count true⟩ := by
  rw [heldFlags, ← List.map_take, ← length_filter_isHeld, ← length_filter_not_isHeld,
    processBatch]
  exact if_pos hdry

theorem purgedIds_eq_nil_iff :
    purgedIds hasLegalHold rows = [] ↔ false ∉ rows.map (isHeld hasLegalHold) := by
  rw [purgedIds, List.map_eq_nil_iff, ← List.length_eq_zero_iff, length_filter_not_isHeld,
    List.count_eq_zero]

theorem processBatch_fails (hrule : rule.Sound) (hfails : Fails options rule hasLegalHold db)
    (batchIndex : ℕ) :
    ∃ message, processBatch options rule hasLegalHold batchIndex db = .error message := by
  obtain ⟨hreal, hrefused, hunheld⟩ := hfails
  rw [heldFlags, ← List.map_take] at hunheld
  have hids : purgedIds hasLegalHold ((candidatesIn options rule db).take options.batchSize) ≠
      [] := fun hnone => (purgedIds_eq_nil_iff _).mp hnone hunheld
  obtain ⟨message, hmessage⟩ := foldlM_purgeRow_refused hrule options.clock hids hrefused
  refine ⟨message, ?_⟩
  rw [processBatch, if_neg (by rw [hreal]; exact Bool.false_ne_true)]
  show (purgedIds hasLegalHold ((candidatesIn options rule db).take options.batchSize)).foldlM
    (purgeRow rule options.clock) db >>= _ = _
  rw [hmessage]
  rfl

theorem exists_processBatch_real (hrule : rule.Sound) (hreal : options.dryRun = false)
    (batchIndex : ℕ) (hworks : ¬ Fails options rule hasLegalHold db) :
    ∃ next,
      processBatch options rule hasLegalHold batchIndex db =
        .ok ⟨next,
          ((heldFlags options rule hasLegalHold db).take options.batchSize).count false,
          ((heldFlags options rule hasLegalHold db).take options.batchSize).count true⟩ ∧
      Database.Becomes options.clock rule.table
        (purgeIds rule.purgeAction options.clock
          (purgedIds hasLegalHold ((candidatesIn options rule db).take options.batchSize)))
        db next := by
  let fetched := (candidatesIn options rule db).take options.batchSize
  have hids : (purgedIds hasLegalHold fetched).Nodup :=
    List.Nodup.sublist ((List.filter_sublist.trans (List.take_sublist _ _)).map _)
      (nodup_ids_candidates _ _ (db.tables rule.table))
  have hallowed : purgedIds hasLegalHold fetched = [] ∨ ¬ Refuses rule db := by
    rw [purgedIds_eq_nil_iff, List.map_take]
    by_contra hboth
    rw [not_or, not_not, not_not] at hboth
    exact hworks ⟨hreal, hboth.2, hboth.1⟩
  have hpurged := foldlM_purgeRow hrule options.clock hids hallowed
  let purged := db.change rule.table
    (purgeIds rule.purgeAction options.clock (purgedIds hasLegalHold fetched)) purgeIds_id
  let noted := ((fetched.filter (isHeld hasLegalHold)).map TableRow.id).foldl
    (writeSkippedAuditEvent options rule) purged
  have hnoted : Database.Becomes options.clock rule.table
      (purgeIds rule.purgeAction options.clock (purgedIds hasLegalHold fetched)) db noted :=
    (Database.becomes_change purgeIds_id).append
      (becomes_writeSkippedAuditEvent options rule _ purged)
  have hbatch : processBatch options rule hasLegalHold batchIndex db =
      .ok ⟨if (fetched.filter (!isHeld hasLegalHold ·)).length = 0 then noted
          else writePurgeAuditEvent options rule
            (fetched.filter (!isHeld hasLegalHold ·)).length batchIndex noted,
        (fetched.filter (!isHeld hasLegalHold ·)).length,
        (fetched.filter (isHeld hasLegalHold)).length⟩ := by
    rw [processBatch, if_neg (by rw [hreal]; exact Bool.false_ne_true)]
    show (purgedIds hasLegalHold fetched).foldlM (purgeRow rule options.clock) db >>= _ = _
    rw [hpurged]
    rfl
  rw [heldFlags, ← List.map_take, ← length_filter_isHeld, ← length_filter_not_isHeld]
  refine ⟨_, hbatch, ?_⟩
  split_ifs
  · exact hnoted
  · exact hnoted.append (becomes_writePurgeAuditEvent options rule _ _ noted)

variable {next : Database}

theorem candidatesIn_of_rows {rows added : List TableRow}
    (hrows : (next.tables rule.table).rows = rows ++ added)
    (hadded : ∀ row ∈ added, rule.table = "audit_logs" ∧ IsAuditRow options.clock row) :
    candidatesIn options rule next = candidates rule (options.cutoff rule) rows := by
  rw [candidatesIn, hrows]
  apply candidates_append
  intro row hrow
  exact not_isOlder_of_isAuditRow (hadded row hrow).2 (cutoff_le_clock options rule)

theorem candidatesIn_of_becomes {f : TableRow → Option TableRow}
    (hnext : Database.Becomes options.clock rule.table f db next) :
    candidatesIn options rule next =
      candidates rule (options.cutoff rule) ((db.tables rule.table).rows.filterMap f) := by
  obtain ⟨added, hrows, hadded⟩ := hnext.rows rule.table
  rw [if_pos rfl] at hrows
  exact candidatesIn_of_rows hrows hadded

theorem candidatesIn_deleted
    (hnext : Database.Becomes options.clock rule.table (purgeIds .delete options.clock (purgedIds
      hasLegalHold ((candidatesIn options rule db).take options.batchSize))) db next) :
    candidatesIn options rule next =
      ((candidatesIn options rule db).take options.batchSize).filter (isHeld hasLegalHold) ++
        (candidatesIn options rule db).drop options.batchSize := by
  have hids := nodup_ids_candidates rule (options.cutoff rule) (db.tables rule.table)
  rw [← candidatesIn, ← List.take_append_drop options.batchSize (candidatesIn options rule db)]
    at hids
  have hleft := filter_not_mem_purgedIds hasLegalHold hids
  rw [List.take_append_drop] at hleft
  rw [candidatesIn_of_becomes hnext, filterMap_purgeIds_delete, candidates_filter, ← hleft,
    candidatesIn]

theorem heldFlags_redacted (hcolumn : rule.ageColumn = "created_at") (ids : List String)
    (rows : List TableRow) :
    (candidates rule (options.cutoff rule)
        (rows.filterMap (purgeIds .redact options.clock ids))).map (isHeld hasLegalHold) =
      (candidates rule (options.cutoff rule) rows).map (isHeld hasLegalHold) := by
  have hage : ∀ row, (redactIds options.clock ids row).timeOf rule.ageColumn =
      row.timeOf rule.ageColumn := by
    intro row
    rw [hcolumn, TableRow.timeOf, lookup_redactIds (by decide), TableRow.timeOf]
  rw [filterMap_purgeIds_redact, candidates_map hage, List.map_map]
  apply List.map_congr_left
  intro row _
  rw [Function.comp, isHeld, lookup_redactIds (by decide), isHeld]

theorem heldFlags_of_becomes (hrule : rule.Sound) (hreal : options.dryRun = false)
    (hnext : Database.Becomes options.clock rule.table (purgeIds rule.purgeAction options.clock
      (purgedIds hasLegalHold ((candidatesIn options rule db).take options.batchSize))) db next) :
    heldFlags options rule hasLegalHold next =
      if staysPut options rule then heldFlags options rule hasLegalHold db
      else
        ((heldFlags options rule hasLegalHold db).take options.batchSize).filter id ++
          (heldFlags options rule hasLegalHold db).drop options.batchSize := by
  rw [staysPut, hreal, Bool.false_or]
  cases haction : rule.purgeAction with
  | delete =>
    rw [haction] at hnext
    rw [heldFlags, candidatesIn_deleted hnext, if_neg (by decide), List.map_append, heldFlags,
      ← List.map_take, ← List.map_drop, List.filter_map]
    rfl
  | redact =>
    rw [haction] at hnext
    rw [heldFlags, candidatesIn_of_becomes hnext, heldFlags_redacted (hrule haction).2,
      if_pos (by decide), heldFlags, candidatesIn]

/-! ## The loop -/

/-- What the loop over flags knows of the loop over batches. -/
def PurgeProgress.flagState (options : PurgeJobOptions) (rule : PurgeableRetentionRule)
    (hasLegalHold : Bool) (progress : PurgeProgress) : FlagState where
  flags := heldFlags options rule hasLegalHold progress.db
  purged := progress.rowsPurged
  skipped := progress.rowsSkipped

def flagResult : Except String (PurgeRuleResult × Database) → FlagResult
  | .ok (result, _) => ⟨result.rowsPurged, result.rowsSkipped, result.volumeCapReached⟩
  | .error _ => ⟨0, 0, false⟩

variable {progress : PurgeProgress}

theorem purgeRound_of_ok {batch : BatchResult} (hcap : progress.rowsPurged < options.maxRowsPerRun)
    (hbatch : processBatch options rule hasLegalHold progress.batchIndex progress.db = .ok batch) :
    purgeRound options rule hasLegalHold progress =
      if batch.purged + batch.skipped < options.batchSize then
        .inr (.ok (PurgeProgress.result options rule ⟨batch.db, progress.rowsPurged + batch.purged,
          progress.rowsSkipped + batch.skipped, progress.batchIndex + 1⟩ false, batch.db))
      else
        .inl ⟨batch.db, progress.rowsPurged + batch.purged,
          progress.rowsSkipped + batch.skipped, progress.batchIndex + 1⟩ := by
  rw [purgeRound, if_neg (not_le.mpr hcap), hbatch]

theorem exists_processBatch (hrule : rule.Sound) (batchIndex : ℕ)
    (hworks : ¬ Fails options rule hasLegalHold db) :
    ∃ next,
      processBatch options rule hasLegalHold batchIndex db =
        .ok ⟨next,
          ((heldFlags options rule hasLegalHold db).take options.batchSize).count false,
          ((heldFlags options rule hasLegalHold db).take options.batchSize).count true⟩ ∧
      (∀ other, (next.tables other).schema = (db.tables other).schema) ∧
      heldFlags options rule hasLegalHold next =
        if staysPut options rule then heldFlags options rule hasLegalHold db
        else
          ((heldFlags options rule hasLegalHold db).take options.batchSize).filter id ++
            (heldFlags options rule hasLegalHold db).drop options.batchSize := by
  cases hdry : options.dryRun with
  | true =>
    refine ⟨_, processBatch_dry hdry _ _, fun _ => rfl, ?_⟩
    rw [staysPut, hdry, Bool.true_or, if_pos rfl]
  | false =>
    obtain ⟨next, hnext, hbecomes⟩ := exists_processBatch_real hrule hdry batchIndex hworks
    exact ⟨next, hnext, hbecomes.schema, heldFlags_of_becomes hrule hdry hbecomes⟩

theorem flagRound_flagState (hrule : rule.Sound)
    (hworks : options.maxRowsPerRun = 0 ∨ ¬ Fails options rule hasLegalHold progress.db) :
    flagRound (staysPut options rule) options.batchSize options.maxRowsPerRun
        (progress.flagState options rule hasLegalHold) =
      (purgeRound options rule hasLegalHold progress).map
        (PurgeProgress.flagState options rule hasLegalHold) flagResult := by
  by_cases hcap : options.maxRowsPerRun ≤ progress.rowsPurged
  · rw [flagRound_capped hcap, purgeRound, if_pos hcap]
    rfl
  · have hfails := hworks.resolve_left (by omega)
    obtain ⟨next, hnext, _, hflags⟩ :=
      exists_processBatch hrule progress.batchIndex hfails
    have hsum := count_true_add_count_false
      ((heldFlags options rule hasLegalHold progress.db).take options.batchSize)
    rw [List.length_take, Nat.add_comm] at hsum
    rw [purgeRound_of_ok (not_le.mp hcap) hnext]
    by_cases hshort : (heldFlags options rule hasLegalHold progress.db).length < options.batchSize
    · rw [flagRound_short (not_le.mp hcap) hshort]
      dsimp only
      rw [hsum, if_pos (by omega), List.take_of_length_le hshort.le]
      rfl
    · rw [flagRound_full (not_le.mp hcap) (not_lt.mp hshort)]
      dsimp only
      rw [hsum, if_neg (by omega)]
      show Sum.inl _ = Sum.inl (⟨heldFlags options rule hasLegalHold next, _, _⟩ : FlagState)
      rw [hflags]
      rfl

theorem not_fails_of_round (hrule : rule.Sound) {next : PurgeProgress}
    (hworks : options.maxRowsPerRun = 0 ∨ ¬ Fails options rule hasLegalHold progress.db)
    (hround : purgeRound options rule hasLegalHold progress = .inl next) :
    options.maxRowsPerRun = 0 ∨ ¬ Fails options rule hasLegalHold next.db := by
  by_cases hcap : options.maxRowsPerRun ≤ progress.rowsPurged
  · rw [purgeRound, if_pos hcap] at hround
    cases hround
  · have hfails := hworks.resolve_left (by omega)
    obtain ⟨db, hdb, hschema, hflags⟩ := exists_processBatch hrule progress.batchIndex hfails
    rw [purgeRound_of_ok (not_le.mp hcap) hdb] at hround
    split_ifs at hround
    cases hround
    refine .inr fun hnext => hfails ?_
    obtain ⟨hreal, ⟨haction, hrefused⟩, hunheld⟩ := hnext
    have hstays : staysPut options rule = true := by
      rw [staysPut, haction]
      exact Bool.or_true _
    rw [hschema] at hrefused
    rw [hflags, if_pos hstays] at hunheld
    exact ⟨hreal, ⟨haction, hrefused⟩, hunheld⟩

theorem purgeRule_iff_flags (hrule : rule.Sound) (hworks : options.maxRowsPerRun = 0 ∨
      ¬ Fails options rule (tableHasColumn (db.tables rule.table) "legal_hold") db)
    (flags : FlagResult) :
    (∃ result, PurgeRule options rule db result ∧ flagResult result = flags) ↔
      Ends (flagRound (staysPut options rule) options.batchSize options.maxRowsPerRun)
        ⟨heldFlags options rule (tableHasColumn (db.tables rule.table) "legal_hold") db, 0, 0⟩
        flags := by
  have hround : ∀ progress : PurgeProgress, (options.maxRowsPerRun = 0 ∨
      ¬ Fails options rule (tableHasColumn (db.tables rule.table) "legal_hold") progress.db) →
      flagRound (staysPut options rule) options.batchSize options.maxRowsPerRun
          (progress.flagState options rule
            (tableHasColumn (db.tables rule.table) "legal_hold")) =
        (purgeRound options rule (tableHasColumn (db.tables rule.table) "legal_hold")
          progress).map _ flagResult := fun _ => flagRound_flagState hrule
  apply Iff.intro
  · rintro ⟨result, hends, rfl⟩
    exact Ends.map hround (fun _ _ => not_fails_of_round hrule) hworks hends
  · intro hends
    exact Ends.of_map hround (fun _ _ => not_fails_of_round hrule) hends hworks rfl

theorem exists_purgeRule_fails (hrule : rule.Sound) (hcap : 0 < options.maxRowsPerRun)
    (hfails : Fails options rule (tableHasColumn (db.tables rule.table) "legal_hold") db) :
    ∃ message, PurgeRule options rule db (.error message) := by
  obtain ⟨message, hmessage⟩ := processBatch_fails hrule hfails 0
  refine ⟨message, .stop ?_⟩
  rw [purgeRound, if_neg (not_le.mpr hcap), hmessage]

end

/-- No batch comes to be full of rows under legal hold before the cap is reached. Where
rows stay put that is about the first batch, else about what is left of all batches. -/
def MeetsNoFullBatchOfHolds (options : PurgeJobOptions) (rule : PurgeableRetentionRule)
    (db : Database) : Prop :=
  let held := heldFlags options rule (tableHasColumn (db.tables rule.table) "legal_hold") db
  if options.dryRun ∨ rule.purgeAction = .redact then
    options.maxRowsPerRun = 0 ∨ held.length < options.batchSize ∨
      false ∈ held.take options.batchSize
  else
    held.count true < options.batchSize ∨
      options.maxRowsPerRun ≤ unheldBefore options.batchSize held

/-- For every table, batch size and cap, the batch loop of a rule ends exactly when it
does not meet a full batch of held rows. -/
theorem purgeRule_ends_iff {rule : PurgeableRetentionRule}
    (hrule : rule ∈ purgeableRetentionSchedule) (options : PurgeJobOptions) (db : Database) :
    (∃ result, PurgeRule options rule db result) ↔ MeetsNoFullBatchOfHolds options rule db := by
  have hsound := sound_of_mem_schedule hrule
  rw [MeetsNoFullBatchOfHolds]
  by_cases hworks : options.maxRowsPerRun = 0 ∨
      ¬ Fails options rule (tableHasColumn (db.tables rule.table) "legal_hold") db
  · have hflags : (∃ result, PurgeRule options rule db result) ↔
        ∃ flags, Ends (flagRound (staysPut options rule) options.batchSize options.maxRowsPerRun)
          ⟨heldFlags options rule (tableHasColumn (db.tables rule.table) "legal_hold") db, 0, 0⟩
          flags := by
      apply Iff.intro
      · rintro ⟨result, hends⟩
        exact ⟨_, (purgeRule_iff_flags hsound hworks _).mp ⟨result, hends, rfl⟩⟩
      · rintro ⟨flags, hends⟩
        obtain ⟨result, hresult, _⟩ := (purgeRule_iff_flags hsound hworks flags).mpr hends
        exact ⟨result, hresult⟩
    rw [hflags]
    by_cases hstays : options.dryRun ∨ rule.purgeAction = .redact
    · have hput : staysPut options rule = true := by simpa [staysPut] using hstays
      rw [hput, exists_ends_stays_iff]
      simp only [if_pos hstays, Nat.le_zero]
    · have hput : staysPut options rule = false := by simpa [staysPut] using hstays
      rw [hput, exists_ends_deletes_iff]
      simp only [if_neg hstays, Nat.zero_add]
  · -- the first batch fails, and it has a row that is not held
    rw [not_or, not_not] at hworks
    obtain ⟨hcap, hfails⟩ := hworks
    obtain ⟨message, hends⟩ := exists_purgeRule_fails hsound (by omega) hfails
    have hstays : options.dryRun = true ∨ rule.purgeAction = .redact := .inr hfails.2.1.1
    simp only [if_pos hstays]
    exact ⟨fun _ => .inr (.inr hfails.2.2), fun _ => ⟨_, hends⟩⟩

/-! ## One row -/

/-- A database with one table. -/
def oneTable (name : String) (hname : name ≠ "audit_logs") (table : Table) : Database where
  tables other := if other = name then table else ⟨⟨[], []⟩, [], List.nodup_nil⟩
  nextAuditId := 1
  auditIds := by
    intro row hrow
    rw [if_neg (Ne.symm hname)] at hrow
    cases hrow

/-- A stream that is more than a year old and under legal hold. -/
def heldStream : Database :=
  oneTable "streams" (by decide)
    { schema :=
        { columnNames := ["id", "sender_address", "recipient_address", "sender_address_hash",
            "recipient_address_hash", "encryption_state", "created_at", "updated_at", "legal_hold"]
          notNull := ["sender_address_hash", "recipient_address_hash"] }
      rows := [⟨"stream-1", [("sender_address", .text "GSENDER"),
        ("recipient_address", .text "GRECIPIENT"), ("sender_address_hash", .text ""),
        ("recipient_address_hash", .text ""), ("encryption_state", .text "plaintext"),
        ("created_at", .time 0), ("updated_at", .time 0), ("legal_hold", .bool true)]⟩]
      ids := List.nodup_singleton _ }

/-- A dead letter that is more than a year old. -/
def oldLetter : Database :=
  oneTable "job_dead_letter" (by decide)
    { schema := ⟨["id", "failed_at"], ["failed_at"]⟩
      rows := [⟨"letter-1", [("failed_at", .time 0)]⟩]
      ids := List.nodup_singleton _ }

def streamRule : PurgeableRetentionRule :=
  ⟨"Stream address PII", 365, "streams", "created_at", .redact⟩

def letterRule : PurgeableRetentionRule :=
  ⟨"Job dead-letter table", 90, "job_dead_letter", "failed_at", .delete⟩

/-- A run with batches of one row. -/
def smallBatches : PurgeJobOptions where
  batchSize := 1
  now := 395 * 24 * 60 * 60 * 1000
  clock := 395 * 24 * 60 * 60 * 1000
  notAhead := le_rfl

theorem letterRule_mem_schedule : letterRule ∈ purgeableRetentionSchedule := by
  simp [letterRule, purgeableRetentionSchedule]

theorem purgeRule_ends_iff_oldLetter :
    letterRule ∈ purgeableRetentionSchedule ∧
      ∃ result, PurgeRule smallBatches letterRule oldLetter result := by
  refine ⟨letterRule_mem_schedule,
    (purgeRule_ends_iff letterRule_mem_schedule smallBatches oldLetter).mpr ?_⟩
  have hheld : (heldFlags smallBatches letterRule
      (tableHasColumn (oldLetter.tables "job_dead_letter") "legal_hold") oldLetter).count true <
        1 := by
    decide
  exact .inl hheld

/-- One held stream keeps a run with batches of one row going for ever. -/
theorem purgeRule_never_ends_heldStream :
    ¬ ∀ (options : PurgeJobOptions) (rule : PurgeableRetentionRule) (db : Database),
      rule ∈ purgeableRetentionSchedule → 1 ≤ options.batchSize →
        ∃ result, PurgeRule options rule db result := by
  intro hall
  have hrule : streamRule ∈ purgeableRetentionSchedule := List.mem_cons_self
  obtain ⟨result, hends⟩ := hall smallBatches streamRule heldStream hrule le_rfl
  have hheld : heldFlags smallBatches streamRule
      (tableHasColumn (heldStream.tables "streams") "legal_hold") heldStream = [true] := by
    decide
  have hworks : ¬ Fails smallBatches streamRule
      (tableHasColumn (heldStream.tables "streams") "legal_hold") heldStream := by
    rintro ⟨_, _, hunheld⟩
    rw [hheld] at hunheld
    exact absurd hunheld (by decide)
  have hflags := (purgeRule_iff_flags (sound_of_mem_schedule hrule) (.inr hworks) _).mp
    ⟨result, hends, rfl⟩
  have hstarted : Ends (flagRound true 1 50000) ⟨[true], 0, 0⟩ (flagResult result) :=
    hheld ▸ hflags
  rcases exists_ends_stays_iff.mp ⟨_, hstarted⟩ with hcap | hshort | hunheld
  · exact absurd hcap (by decide)
  · exact absurd hshort (by decide)
  · exact absurd hunheld (by decide)

end Fluxora.Retention
