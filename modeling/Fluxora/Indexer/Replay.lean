/-
# Replaying historical events

A replay copies the rows of `historical_events` that a request selects into `contract_events`,
batch by batch in a fixed order. Its progress is a row of `replay_cursors`: a numeric offset into
the ordered selection, advanced in the same transaction as the rows of a batch.

The module has the tables with the statements that touch them, and the replay as it goes when
nothing interrupts it. A replay picks up an unfinished cursor of the same contract and ledger,
whatever block range that cursor was made for, and its offset is then read against the order of
the new request.
-/

import Mathlib.Data.List.Sort
import Fluxora.Lib.Json
import Fluxora.Lib.KeyedTable

namespace Fluxora.Indexer

open Lib Lib.KeyedTable

/-- A row of `historical_events` or `contract_events`. Event ids are texts under the
collation of the database, of which only its linear order matters. -/
structure ContractEvent (ε : Type) where
  eventId : ε
  contractId : String
  ledger : ℕ
  eventType : String
  eventData : Json
  blockHeight : ℕ
  transactionHash : String

/-- The source table, keyed by event id. -/
structure HistoricalEvents (ε : Type) where
  rows : List (ContractEvent ε)
  nodup : (rows.map ContractEvent.eventId).Nodup

structure ReplayRequest where
  contractId : String
  ledger : ℕ
  fromBlock : Option ℕ
  toBlock : Option ℕ
  deriving DecidableEq

/-- A row of `replay_cursors`: the request it was made for and its progress. -/
structure ReplayCursor extends ReplayRequest where
  totalRows : ℕ
  lastCommittedOffset : ℕ
  completed : Bool
  deriving DecidableEq

/-- The tables a replay writes. Cursors are in the order they were started, and the
position of a cursor is its id. -/
structure Database (ε : Type) where
  contractEvents : List (ContractEvent ε)
  cursors : List ReplayCursor

section

variable {ε : Type} [LinearOrder ε]

/-! ## The source side -/

/-- The `WHERE` clause of the count and of the fetch. -/
def ReplayRequest.selects (request : ReplayRequest) (event : ContractEvent ε) : Bool :=
  event.contractId = request.contractId && event.ledger = request.ledger &&
    request.fromBlock.all (· ≤ event.blockHeight) &&
    request.toBlock.all (event.blockHeight ≤ ·)

/-- `ORDER BY block_height ASC, event_id ASC`. -/
def replayOrder (first second : ContractEvent ε) : Prop :=
  first.blockHeight < second.blockHeight ∨
    first.blockHeight = second.blockHeight ∧ first.eventId ≤ second.eventId

instance : DecidableRel (replayOrder (ε := ε)) := fun first second =>
  inferInstanceAs (Decidable (first.blockHeight < second.blockHeight ∨
    first.blockHeight = second.blockHeight ∧ first.eventId ≤ second.eventId))

/-- The rows of a request in replay order. -/
def orderedRows (table : HistoricalEvents ε) (request : ReplayRequest) :
    List (ContractEvent ε) :=
  (table.rows.filter request.selects).insertionSort replayOrder

def countEventsToReplay (table : HistoricalEvents ε) (request : ReplayRequest) : ℕ :=
  (table.rows.filter request.selects).length

/-- `LIMIT $limit OFFSET $offset` on the ordered rows. -/
def fetchEventBatch (table : HistoricalEvents ε) (request : ReplayRequest)
    (offset limit : ℕ) : List (ContractEvent ε) :=
  ((orderedRows table request).drop offset).take limit

variable (table : HistoricalEvents ε) (request : ReplayRequest)

theorem mem_orderedRows (event : ContractEvent ε) :
    event ∈ orderedRows table request ↔ event ∈ table.rows ∧ request.selects event = true := by
  rw [orderedRows, (List.perm_insertionSort _ _).mem_iff, List.mem_filter]

theorem length_orderedRows :
    (orderedRows table request).length = countEventsToReplay table request :=
  (List.perm_insertionSort _ _).length_eq

theorem nodup_orderedRows : ((orderedRows table request).map ContractEvent.eventId).Nodup := by
  have hperm : ((orderedRows table request).map ContractEvent.eventId).Perm
      ((table.rows.filter request.selects).map ContractEvent.eventId) :=
    (List.perm_insertionSort _ _).map _
  rw [hperm.nodup_iff]
  exact table.nodup.sublist (List.filter_sublist.map _)

/-! ## The statements -/

/-- `completed_at IS NULL` for the contract and the ledger. The block range is not
looked at. -/
def ReplayCursor.isActiveFor (contractId : String) (ledger : ℕ) (cursor : ReplayCursor) : Bool :=
  cursor.contractId = contractId && cursor.ledger = ledger && !cursor.completed

/-- The most recently started unfinished cursor, with its id. -/
def findActive (cursors : List ReplayCursor) (contractId : String) (ledger : ℕ) :
    Option (ReplayCursor × ℕ) :=
  (cursors.zipIdx.filter fun entry => entry.1.isActiveFor contractId ledger).getLast?

/-- Create a fresh cursor row; its id is the number of cursors before. -/
def Database.create (db : Database ε) (request : ReplayRequest) (totalRows : ℕ) :
    Database ε :=
  { db with cursors := db.cursors ++ [⟨request, totalRows, 0, false⟩] }

/-- `SET last_committed_offset = GREATEST(last_committed_offset, $1)`. -/
def ReplayCursor.advanceOffset (newOffset : ℕ) (cursor : ReplayCursor) : ReplayCursor :=
  { cursor with lastCommittedOffset := max cursor.lastCommittedOffset newOffset }

def ReplayCursor.markCompleted (cursor : ReplayCursor) : ReplayCursor :=
  { cursor with completed := true }

/-- The transaction of one batch: insert the rows, advance the cursor. -/
def Database.commitBatch (db : Database ε) (cursorId : ℕ) (rows : List (ContractEvent ε))
    (newOffset : ℕ) : Database ε where
  contractEvents := insertAll ContractEvent.eventId db.contractEvents rows
  cursors := db.cursors.modify cursorId (ReplayCursor.advanceOffset newOffset)

def Database.completeCursor (db : Database ε) (cursorId : ℕ) : Database ε :=
  { db with cursors := db.cursors.modify cursorId ReplayCursor.markCompleted }

/-! ## An uninterrupted replay -/

/-- What a replay works with after resolving its cursor. -/
structure ResolvedCursor where
  cursorId : ℕ
  offset : ℕ
  totalRows : ℕ

/-- Resume the unfinished cursor of the contract and ledger, or create one. -/
def resolveOrCreateCursor (table : HistoricalEvents ε) (db : Database ε)
    (request : ReplayRequest) : ResolvedCursor × Database ε :=
  match findActive db.cursors request.contractId request.ledger with
  | some (cursor, id) => (⟨id, cursor.lastCommittedOffset, cursor.totalRows⟩, db)
  | none =>
    let totalRows := countEventsToReplay table request
    (⟨db.cursors.length, 0, totalRows⟩, db.create request totalRows)

/-- The batch loop. Every batch that does not end it advances the offset, so that
`totalRows - offset` rounds are enough. -/
def replayLoop (table : HistoricalEvents ε) (batchSize : ℕ) (request : ReplayRequest)
    (cursorId totalRows : ℕ) : ℕ → ℕ → Database ε → Database ε
  | 0, _, db => db
  | rounds + 1, offset, db =>
    if offset < totalRows then
      match fetchEventBatch table request offset batchSize with
      -- source exhausted ahead of the count
      | [] => db
      | row :: rest =>
        let newOffset := offset + (row :: rest).length
        replayLoop table batchSize request cursorId totalRows rounds newOffset
          (db.commitBatch cursorId (row :: rest) newOffset)
    else db

/-- `replayEvents` without a stop, a failure or a loss of leadership. -/
def replayEvents (table : HistoricalEvents ε) (batchSize : ℕ) (db : Database ε)
    (request : ReplayRequest) : Database ε :=
  let resolved := resolveOrCreateCursor table db request
  let cursor := resolved.1
  if cursor.totalRows = 0 then resolved.2.completeCursor cursor.cursorId
  else
    (replayLoop table batchSize request cursor.cursorId cursor.totalRows
      (cursor.totalRows - cursor.offset) cursor.offset resolved.2).completeCursor cursor.cursorId

/-! ## What the loop copies -/

/-- The number of rows that full batches cover when `remaining` rows are counted. -/
def windowLength (batchSize remaining : ℕ) : ℕ :=
  batchSize * ((remaining + batchSize - 1) / batchSize)

variable (batchSize : ℕ)

theorem windowLength_zero : windowLength batchSize 0 = 0 := by
  rcases Nat.eq_zero_or_pos batchSize with hzero | hpos
  · simp [windowLength, hzero]
  · rw [windowLength, Nat.div_eq_of_lt (by omega), Nat.mul_zero]

theorem windowLength_step {batchSize remaining : ℕ} (hbatch : 0 < batchSize)
    (hremaining : 0 < remaining) :
    windowLength batchSize remaining =
      batchSize + windowLength batchSize (remaining - batchSize) := by
  have hdiv : (remaining + batchSize - 1) / batchSize =
      (remaining - batchSize + batchSize - 1) / batchSize + 1 := by
    by_cases hlast : remaining < batchSize
    · have hzero : remaining - batchSize = 0 := by omega
      have hone : (remaining + batchSize - 1) / batchSize = 1 :=
        Nat.div_eq_of_lt_le (by omega) (by omega)
      rw [hone, hzero, Nat.div_eq_of_lt (by omega)]
    · have hsum :
          remaining + batchSize - 1 = remaining - batchSize + batchSize - 1 + batchSize := by
        omega
      rw [hsum, Nat.add_div_right _ hbatch]
  rw [windowLength, windowLength, hdiv, Nat.mul_add, Nat.mul_one, Nat.add_comm]

theorem le_windowLength {batchSize : ℕ} (hbatch : 0 < batchSize) (remaining : ℕ) :
    remaining ≤ windowLength batchSize remaining := by
  induction remaining using Nat.strongRecOn with
  | ind remaining ih =>
    rcases Nat.eq_zero_or_pos remaining with hzero | hpos
    · omega
    · rw [windowLength_step hbatch hpos]
      have hrest := ih (remaining - batchSize) (by omega)
      omega

theorem window_split {batchSize offset totalRows : ℕ} (hmore : offset < totalRows)
    (hfetch : fetchEventBatch table request offset batchSize ≠ []) :
    fetchEventBatch table request offset batchSize ++
        ((orderedRows table request).drop
          (offset + (fetchEventBatch table request offset batchSize).length)).take
          (windowLength batchSize
            (totalRows - (offset + (fetchEventBatch table request offset batchSize).length))) =
      ((orderedRows table request).drop offset).take
        (windowLength batchSize (totalRows - offset)) := by
  have hbatch : 0 < batchSize := by
    rcases Nat.eq_zero_or_pos batchSize with hzero | hpos
    · exact (hfetch (by simp [fetchEventBatch, hzero])).elim
    · exact hpos
  rw [windowLength_step hbatch (show 0 < totalRows - offset by omega), fetchEventBatch,
    ← List.drop_drop]
  set rows := (orderedRows table request).drop offset
  rw [List.length_take]
  by_cases hfull : batchSize ≤ rows.length
  · rw [Nat.min_eq_left hfull, List.take_add, Nat.sub_add_eq]
  · -- a short batch is the rest of the rows
    have hshort : rows.length ≤ batchSize := by omega
    rw [Nat.min_eq_right hshort, List.drop_length, List.take_nil, List.append_nil,
      List.take_of_length_le hshort, List.take_of_length_le (by omega)]

theorem replayLoop_contractEvents (request : ReplayRequest) (cursorId totalRows rounds offset : ℕ)
    (db : Database ε) (hrounds : totalRows - offset ≤ rounds) :
    (replayLoop table batchSize request cursorId totalRows rounds offset db).contractEvents =
      insertAll ContractEvent.eventId db.contractEvents
        (((orderedRows table request).drop offset).take
          (windowLength batchSize (totalRows - offset))) := by
  induction rounds generalizing offset db with
  | zero =>
    have hdone : totalRows - offset = 0 := by omega
    rw [hdone, windowLength_zero]
    simp [replayLoop]
  | succ _ ih =>
    by_cases hmore : offset < totalRows
    · rw [replayLoop, if_pos hmore]
      cases hfetch : fetchEventBatch table request offset batchSize with
      | nil =>
        -- an empty batch: no rows are left, or batches have no rows
        have hempty : ((orderedRows table request).drop offset).take
            (windowLength batchSize (totalRows - offset)) = [] := by
          rcases List.take_eq_nil_iff.mp hfetch with hzero | hnone
          · simp [windowLength, hzero]
          · simp [hnone]
        rw [hempty, insertAll_nil]
      | cons row rest =>
        have hsplit := window_split table request hmore (by rw [hfetch]; simp)
        rw [hfetch] at hsplit
        have hlength : 0 < (row :: rest).length := List.length_pos_of_ne_nil (by simp)
        simp only
        rw [ih _ _ (by omega), ← hsplit, insertAll_append, Database.commitBatch]
    · have hdone : totalRows - offset = 0 := by omega
      rw [replayLoop, if_neg hmore, hdone, windowLength_zero]
      simp

/-! ## Coverage of a request -/

/-- Every source row the request selects is in `contract_events`, by event id. -/
def Covers (table : HistoricalEvents ε) (request : ReplayRequest)
    (events : List (ContractEvent ε)) : Prop :=
  ∀ row ∈ table.rows, request.selects row = true →
    row.eventId ∈ events.map ContractEvent.eventId

variable (events : List (ContractEvent ε))

theorem covers_iff_orderedRows :
    Covers table request events ↔
      ∀ row ∈ orderedRows table request, row.eventId ∈ events.map ContractEvent.eventId := by
  apply Iff.intro
  · intro hcovers row hrow
    obtain ⟨hmem, hselects⟩ := (mem_orderedRows table request row).mp hrow
    exact hcovers row hmem hselects
  · intro hall row hmem hselects
    exact hall row ((mem_orderedRows table request row).mpr ⟨hmem, hselects⟩)

/-- After inserting one window of a request's rows the request is covered exactly
when the rows outside the window were there before. -/
theorem covers_insertAll_window_iff (start count : ℕ) :
    Covers table request (insertAll ContractEvent.eventId events
        (((orderedRows table request).drop start).take count)) ↔
      ∀ row ∈ (orderedRows table request).take start ++
          (orderedRows table request).drop (start + count),
        row.eventId ∈ events.map ContractEvent.eventId := by
  rw [covers_iff_orderedRows]
  set rows := orderedRows table request with hrows
  have hparts : rows = rows.take start ++ ((rows.drop start).take count ++
      rows.drop (start + count)) := by
    rw [← List.drop_drop, List.take_append_drop, List.take_append_drop]
  have hdistinct := nodup_orderedRows table request
  rw [← hrows, hparts, List.map_append, List.map_append, List.nodup_append,
    List.nodup_append] at hdistinct
  obtain ⟨_, ⟨_, _, hlater⟩, hearlier⟩ := hdistinct
  apply Iff.intro
  · intro hall row hrow
    have hstored := (mem_keys_insertAll _ _ _ _).mp (hall row (by
      rw [hparts]
      rcases List.mem_append.mp hrow with hbefore | hafter
      · exact List.mem_append_left _ hbefore
      · exact List.mem_append_right _ (List.mem_append_right _ hafter)))
    rcases hstored with hold | hcopied
    · exact hold
    · -- event ids are distinct, so the window does not store an outside row
      rcases List.mem_append.mp hrow with hbefore | hafter
      · exact (hearlier _ (List.mem_map_of_mem hbefore) _
          (List.mem_append_left _ hcopied) rfl).elim
      · exact (hlater _ hcopied _ (List.mem_map_of_mem hafter) rfl).elim
  · intro houtside row hrow
    rw [mem_keys_insertAll]
    rw [hparts] at hrow
    rcases List.mem_append.mp hrow with hbefore | hrest
    · exact Or.inl (houtside row (List.mem_append_left _ hbefore))
    · rcases List.mem_append.mp hrest with hwindow | hafter
      · exact Or.inr (List.mem_map_of_mem hwindow)
      · exact Or.inl (houtside row (List.mem_append_right _ hafter))

/-- Where the replay of a request starts: at the offset of the unfinished cursor it
finds, or at the beginning. -/
def resumeOffset (db : Database ε) (request : ReplayRequest) : ℕ :=
  match findActive db.cursors request.contractId request.ledger with
  | some (cursor, _) => cursor.lastCommittedOffset
  | none => 0

/-- How many rows it takes the request to have: the count of the cursor it finds, or
its own. -/
def resumeTotal (table : HistoricalEvents ε) (db : Database ε) (request : ReplayRequest) : ℕ :=
  match findActive db.cursors request.contractId request.ledger with
  | some (cursor, _) => cursor.totalRows
  | none => countEventsToReplay table request

/-- The rows of a request that its replay does not copy: those before the offset it
resumes at, and those from the end of the last batch on. -/
def rowsLeftOut (table : HistoricalEvents ε) (batchSize : ℕ) (db : Database ε)
    (request : ReplayRequest) : List (ContractEvent ε) :=
  let start := resumeOffset db request
  let rows := orderedRows table request
  rows.take start ++
    rows.drop (start + windowLength batchSize (resumeTotal table db request - start))

theorem replayEvents_contractEvents (db : Database ε) (request : ReplayRequest) :
    (replayEvents table batchSize db request).contractEvents =
      insertAll ContractEvent.eventId db.contractEvents
        (((orderedRows table request).drop (resumeOffset db request)).take
          (windowLength batchSize
            (resumeTotal table db request - resumeOffset db request))) := by
  have hresolve : (resolveOrCreateCursor table db request).1.offset = resumeOffset db request ∧
      (resolveOrCreateCursor table db request).1.totalRows = resumeTotal table db request ∧
      (resolveOrCreateCursor table db request).2.contractEvents = db.contractEvents := by
    rw [resolveOrCreateCursor, resumeOffset, resumeTotal]
    cases findActive db.cursors request.contractId request.ledger with
    | none | some => exact ⟨rfl, rfl, rfl⟩
  obtain ⟨hoffset, htotal, hevents⟩ := hresolve
  rw [replayEvents, hoffset, htotal]
  by_cases hnone : resumeTotal table db request = 0
  · rw [if_pos hnone, hnone, Nat.zero_sub, windowLength_zero]
    simpa [Database.completeCursor] using hevents
  · rw [if_neg hnone, Database.completeCursor]
    rw [replayLoop_contractEvents table batchSize request _ _ _ _ _ (Nat.le_refl _), hevents]

/-- A replay that ends naturally covers its request exactly when the rows it leaves
out were stored before. -/
theorem replayEvents_covers_iff (table : HistoricalEvents ε) (batchSize : ℕ)
    (db : Database ε) (request : ReplayRequest) :
    Covers table request (replayEvents table batchSize db request).contractEvents ↔
      ∀ row ∈ rowsLeftOut table batchSize db request,
        row.eventId ∈ db.contractEvents.map ContractEvent.eventId := by
  rw [replayEvents_contractEvents, rowsLeftOut]
  exact covers_insertAll_window_iff table request db.contractEvents _ _

end

end Fluxora.Indexer
