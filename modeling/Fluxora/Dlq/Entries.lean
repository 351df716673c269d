/-
# Dead-letter entries

An entry has its first error and a history of failures that only grows. A replay resets
its attempts and marks it as replayed; a failure appends to the history. Entries are
removed one by one, in bulk, or by the retention purge.
-/

import Mathlib.Data.List.Sort
import Fluxora.Lib.JsText
import Fluxora.Lib.KeyedTable

namespace Fluxora.Dlq

open Lib.JsText Lib.KeyedTable

inductive DlqStatus
  | dead
  | replayed
  deriving DecidableEq

structure DlqFailureAttempt where
  error : String
  attempt : ℤ
  failedAt : ℤ
  source : String
  deriving DecidableEq

/-- A row of `dead_letter_queue`. -/
structure DlqRow where
  id : String
  tenantId : Option String
  topic : String
  error : String
  attempts : ℤ
  firstFailedAt : ℤ
  lastFailedAt : ℤ
  status : DlqStatus
  failureHistory : List DlqFailureAttempt
  deriving DecidableEq

/-- The stored history, or a record of the row's own error in the place of an empty one. -/
def rowToFailureHistory (row : DlqRow) : List DlqFailureAttempt :=
  let history := row.failureHistory.filter fun attempt => attempt.error ≠ ""
  if history ≠ [] then history
  else if row.error = "" then []
  else [⟨row.error, row.attempts, row.firstFailedAt, "legacy-row"⟩]

/-- A table of entries with distinct ids. -/
structure DlqTable where
  rows : List DlqRow
  nodup : (rows.map (·.id)).Nodup

namespace DlqTable

/-- Change some rows. -/
def update (table : DlqTable) (chosen : DlqRow → Bool) (change : DlqRow → DlqRow)
    (hid : ∀ row, (change row).id = row.id) : DlqTable where
  rows := table.rows.map fun row => if chosen row then change row else row
  nodup := by
    have hids : (table.rows.map fun row => if chosen row then change row else row).map (·.id) =
        table.rows.map (·.id) := by
      rw [List.map_map]
      apply List.map_congr_left
      intro row _
      simp only [Function.comp_apply]
      split_ifs
      · exact hid row
      · rfl
    rw [hids]
    exact table.nodup

/-- Remove some rows. -/
def remove (table : DlqTable) (chosen : DlqRow → Bool) : DlqTable where
  rows := table.rows.filter fun row => !chosen row
  nodup := table.nodup.sublist (List.filter_sublist.map _)

def findById (table : DlqTable) (id : String) : Option DlqRow :=
  table.rows.find? fun row => row.id = id

/-- Reset an entry that is dead and mark it as replayed: whether there was one, and the table
after it. -/
def replayEntry (table : DlqTable) (id : String) (attempts lastFailedAt : Option ℤ) :
    Bool × DlqTable :=
  let chosen := fun row : DlqRow => row.id = id && row.status = .dead
  (table.rows.any chosen,
    table.update chosen
      (fun row =>
        { row with
          attempts := attempts.getD row.attempts
          lastFailedAt := lastFailedAt.getD row.lastFailedAt
          status := .replayed })
      fun _ => rfl)

/-- Append a failure to the history of an entry: the updated entry, and the table after it. -/
def recordFailure (table : DlqTable) (id error source : String) (failedAt : ℤ) :
    Option DlqRow × DlqTable :=
  let updated := table.update (fun row => row.id = id)
    (fun row =>
      { row with
        attempts := max 0 row.attempts + 1
        lastFailedAt := failedAt
        failureHistory :=
          row.failureHistory ++ [⟨error, max 0 row.attempts + 1, failedAt, source⟩] })
    fun _ => rfl
  (updated.findById id, updated)

def deleteById (table : DlqTable) (id : String) : DlqTable :=
  table.remove fun row => row.id = id

/-- Delete the entries of a topic and of a tenant, where these are given. -/
def deleteAll (table : DlqTable) (topic tenantId : Option String) : DlqTable :=
  table.remove fun row =>
    topic.all (fun t => row.topic = t) && tenantId.all fun t => row.tenantId = some t

/-- The entries that a purge may delete. -/
def purgeCandidates (table : DlqTable) (cutoff : ℤ) (tenantId : Option String) : List DlqRow :=
  table.rows.filter fun row =>
    row.lastFailedAt < cutoff && (row.status = .replayed || row.status = .dead) &&
      row.tenantId = tenantId

/-- Delete the candidates that failed first, as many as fit into the batch. -/
def purgeTerminalEntries (table : DlqTable) (batchSize : ℕ) (cutoff : ℤ)
    (tenantId : Option String) (dryRun : Bool) : DlqTable :=
  if dryRun then table
  else
    let purged := ((table.purgeCandidates cutoff tenantId).insertionSort fun a b =>
      a.lastFailedAt ≤ b.lastFailedAt).take batchSize
    table.remove fun row => (purged.map (·.id)).contains row.id

/-! ## What happens to one entry -/

variable {table : DlqTable} {id : String} {chosen : DlqRow → Bool} {row : DlqRow}

theorem findById_eq_some_iff : table.findById id = some row ↔ row ∈ table.rows ∧ row.id = id :=
  find?_key_eq_some_iff DlqRow.id table.nodup

theorem findById_update {change : DlqRow → DlqRow} {hid : ∀ row, (change row).id = row.id} :
    (table.update chosen change hid).findById id =
      (table.findById id).map fun row => if chosen row then change row else row := by
  rw [findById, update, List.find?_map]
  have hsame : ((fun row : DlqRow => decide (row.id = id)) ∘
      fun row => if chosen row then change row else row) = fun row => decide (row.id = id) := by
    funext row
    simp only [Function.comp_apply]
    split_ifs
    · rw [hid]
    · rfl
  rw [hsame]
  rfl

theorem findById_remove :
    (table.remove chosen).findById id = (table.findById id).filter fun row => !chosen row := by
  apply Option.ext
  intro row
  rw [findById_eq_some_iff, Option.filter_eq_some_iff, findById_eq_some_iff, remove,
    List.mem_filter]
  exact and_right_comm

theorem findById_of_remove (h : (table.remove chosen).findById id = some row) :
    table.findById id = some row := by
  rw [findById_remove, Option.filter_eq_some_iff] at h
  exact h.1

theorem findById_of_purge {batchSize : ℕ} {cutoff : ℤ} {tenantId : Option String} {dryRun : Bool}
    (h : (table.purgeTerminalEntries batchSize cutoff tenantId dryRun).findById id = some row) :
    table.findById id = some row := by
  rw [purgeTerminalEntries] at h
  split_ifs at h
  · exact h
  · exact findById_of_remove h

theorem findById_replayEntry {attempts lastFailedAt : Option ℤ} {other : String} :
    (table.replayEntry other attempts lastFailedAt).2.findById id =
      (table.findById id).map fun row =>
        if row.id = other ∧ row.status = .dead then
          { row with
            attempts := attempts.getD row.attempts
            lastFailedAt := lastFailedAt.getD row.lastFailedAt
            status := .replayed }
        else row := by
  rw [replayEntry, findById_update]
  simp only [Bool.and_eq_true, decide_eq_true_eq]

theorem findById_recordFailure {other error source : String} {failedAt : ℤ} :
    (table.recordFailure other error source failedAt).2.findById id =
      (table.findById id).map fun row =>
        if row.id = other then
          { row with
            attempts := max 0 row.attempts + 1
            lastFailedAt := failedAt
            failureHistory :=
              row.failureHistory ++ [⟨error, max 0 row.attempts + 1, failedAt, source⟩] }
        else row := by
  rw [recordFailure, findById_update]
  simp only [decide_eq_true_eq]

theorem replayEntry_fst {attempts lastFailedAt : Option ℤ} :
    (table.replayEntry id attempts lastFailedAt).1 = true ↔
      ∃ row, table.findById id = some row ∧ row.status = .dead := by
  rw [replayEntry, List.any_eq_true]
  apply Iff.intro
  · rintro ⟨row, hmem, hchosen⟩
    rw [Bool.and_eq_true, decide_eq_true_eq, decide_eq_true_eq] at hchosen
    exact ⟨row, findById_eq_some_iff.mpr ⟨hmem, hchosen.1⟩, hchosen.2⟩
  · rintro ⟨row, hfound, hdead⟩
    obtain ⟨hmem, hid⟩ := findById_eq_some_iff.mp hfound
    exact ⟨row, hmem, by simp [hid, hdead]⟩

theorem findById_purgeTerminalEntries {batchSize : ℕ} {cutoff : ℤ} {tenantId : Option String}
    {dryRun : Bool} (hfound : table.findById id = some row) :
    (table.purgeTerminalEntries batchSize cutoff tenantId dryRun).findById id = some row ∨
      (table.purgeTerminalEntries batchSize cutoff tenantId dryRun).findById id = none ∧
        row.lastFailedAt < cutoff ∧ row.tenantId = tenantId := by
  rw [purgeTerminalEntries]
  split_ifs with hdry
  · exact Or.inl hfound
  · dsimp only
    rw [findById_remove, hfound, Option.filter_some]
    split_ifs with hkept
    · exact Or.inl rfl
    · refine Or.inr ⟨rfl, ?_⟩
      rw [Bool.not_eq_true', Bool.not_eq_false, List.contains_iff_mem, List.mem_map] at hkept
      obtain ⟨purged, hpurged, hid⟩ := hkept
      have hcandidate := (List.mem_insertionSort _).mp (List.mem_of_mem_take hpurged)
      rw [purgeCandidates, List.mem_filter] at hcandidate
      obtain ⟨hmem, hold⟩ := hcandidate
      have hrow := (findById_eq_some_iff.mp hfound).1
      rw [List.inj_on_of_nodup_map table.nodup hmem hrow hid] at hold
      simp only [Bool.and_eq_true, decide_eq_true_eq] at hold
      exact ⟨hold.1.1, hold.2⟩

end DlqTable

end Fluxora.Dlq
