/-
# Replaying stored events page by page

`getEvents` returns the stored events that match a filter in the order of ledger and event id, a
page at a time. A page that is not the last carries a cursor, the id of its last event, and the
next request asks for what comes after it. It is written twice: over the in-memory store, and as
two SQL statements over `contract_events`.

Paging over the in-memory store is right, for every page size from one on. Paging is therefore as
promised exactly when nothing matches.
-/

import Mathlib.Data.List.Sort
import Mathlib.Data.String.Basic
import Fluxora.Db.RowMapping
import Fluxora.Lib.Fallible
import Fluxora.Lib.Paging
import Fluxora.Indexer.EventStore

namespace Fluxora.Indexer

open Lib Lib.Fallible Lib.Paging

/-! ## Requests and results -/

/-- The event as it is returned. The hash is missing on legacy rows. -/
structure StreamEventRecord where
  eventId : String
  ledger : ℕ
  ledgerHash : Option String
  contractId : String
  topic : String
  txHash : String
  txIndex : ℕ
  operationIndex : ℕ
  eventIndex : ℕ
  payload : List (String × Json)
  happenedAt : ℤ
  ingestedAt : ℤ

/-- The times are the instants that the ISO texts denote. -/
structure StreamEventReplayFilter where
  fromLedger : Option ℕ := none
  toledger : Option ℕ := none
  contractId : Option String := none
  topic : Option String := none
  limit : Option ℕ := none
  offset : Option ℕ := none
  fromHappenedAt : Option ℤ := none
  toHappenedAt : Option ℤ := none
  afterEventId : Option String := none

structure StreamEventReplayResult where
  events : List StreamEventRecord
  total : ℕ
  limit : ℕ
  offset : ℕ
  nextCursor : Option String

inductive StoreError
  | staleCursor (afterEventId : String)
  | rowMapping (error : Db.RowMappingError)

/-- An order of texts: `localeCompare`, or the collation of the database. -/
structure Collation where
  le : String → String → Bool
  total : ∀ a b, le a b ∨ le b a
  trans : ∀ a b c, le a b → le b c → le a c

/-- The order of the pages: by ledger, then by event id. -/
def Collation.Precedes (collation : Collation) (a b : StoredEvent) : Prop :=
  a.ledger < b.ledger ∨ a.ledger = b.ledger ∧ collation.le a.eventId b.eventId

instance (collation : Collation) : DecidableRel collation.Precedes :=
  fun _ _ => instDecidableOr

instance (collation : Collation) : Std.Total collation.Precedes where
  total a b := by
    rcases Nat.lt_trichotomy a.ledger b.ledger with hlt | heq | hgt
    · exact Or.inl (Or.inl hlt)
    · rcases collation.total a.eventId b.eventId with hle | hle
      · exact Or.inl (Or.inr ⟨heq, hle⟩)
      · exact Or.inr (Or.inr ⟨heq.symm, hle⟩)
    · exact Or.inr (Or.inl hgt)

instance (collation : Collation) : IsTrans StoredEvent collation.Precedes where
  trans a b c hab hbc := by
    rcases hab with hlt | ⟨heq, hle⟩
    · rcases hbc with hlt' | ⟨heq', _⟩
      · exact Or.inl (Nat.lt_trans hlt hlt')
      · exact Or.inl (heq' ▸ hlt)
    · rcases hbc with hlt' | ⟨heq', hle'⟩
      · exact Or.inl (heq ▸ hlt')
      · exact Or.inr ⟨heq.trans heq', collation.trans _ _ _ hle hle'⟩

def StreamEventReplayFilter.pageLimit (filter : StreamEventReplayFilter) : ℕ :=
  min (filter.limit.getD 100) 1000

def StreamEventReplayFilter.pageOffset (filter : StreamEventReplayFilter) : ℕ :=
  filter.offset.getD 0

/-- The conditions of a filter other than the cursor. -/
def StreamEventReplayFilter.admits (filter : StreamEventReplayFilter) (r : StoredEvent) :
    Bool :=
  filter.fromLedger.all (· ≤ r.ledger) && filter.toledger.all (r.ledger ≤ ·) &&
    filter.contractId.all (r.contractId = ·) && filter.topic.all (r.topic = ·) &&
    filter.fromHappenedAt.all (· ≤ r.happenedAt) && filter.toHappenedAt.all (r.happenedAt ≤ ·)

/-- A stored event as it is returned. -/
def StoredEvent.returned (r : StoredEvent) : StreamEventRecord where
  eventId := r.eventId
  ledger := r.ledger
  ledgerHash := some r.ledgerHash
  contractId := r.contractId
  topic := r.topic
  txHash := r.txHash
  txIndex := r.txIndex
  operationIndex := r.operationIndex
  eventIndex := r.eventIndex
  payload := r.payload
  happenedAt := r.happenedAt
  ingestedAt := r.ingestedAt

/-! ## The in-memory store -/

namespace InMemoryContractEventStore

variable (localeCompare : Collation) (store : InMemoryContractEventStore)

def sorted : List StoredEvent := store.records.insertionSort localeCompare.Precedes

/-- The end of `getEvents`: the page cut from the matching events. -/
def resultOf (filter : StreamEventReplayFilter) (offset : ℕ) (results : List StoredEvent) :
    StreamEventReplayResult :=
  let limit := filter.pageLimit
  let events := (results.drop offset).take limit
  { events := events.map StoredEvent.returned
    total := results.length
    limit := limit
    offset := offset
    nextCursor :=
      if events.length = limit ∧ limit < results.length then
        events.getLast?.map StoredEvent.key
      else none }

/-- The offset counts only without a cursor. -/
def getEvents (filter : StreamEventReplayFilter) :
    Except StoreError StreamEventReplayResult :=
  match filter.afterEventId with
  | some afterEventId =>
    match after StoredEvent.key afterEventId (store.sorted localeCompare) with
    | some rest => .ok (resultOf filter 0 (rest.filter filter.admits))
    | none => .error (.staleCursor afterEventId)
  | none =>
    .ok (resultOf filter filter.pageOffset
      ((store.sorted localeCompare).filter filter.admits))

end InMemoryContractEventStore

/-! ## The table -/

/-- `SELECT *` of a row of `contract_events`, as the driver returns it. -/
def StoredEvent.columns (r : StoredEvent) : Db.Row :=
  [("event_id", .string r.eventId),
   ("ledger", .number r.ledger),
   ("contract_id", .string r.contractId),
   ("topic", .string r.topic),
   ("tx_hash", .string r.txHash),
   ("tx_index", .number r.txIndex),
   ("operation_index", .number r.operationIndex),
   ("event_index", .number r.eventIndex),
   ("payload", .object r.payload),
   ("happened_at", .date r.happenedAt),
   ("ledger_hash", .string r.ledgerHash),
   ("ingested_at", .date r.ingestedAt)]

/-- The event id and the ledger hash are both read from `vent_id`. -/
def rowToStreamEventRecord (parseDate : String → Option ℤ) (row : Db.Row) (table : String) :
    Except Db.RowMappingError StreamEventRecord := do
  let eventId ← Db.requireString table row "vent_id"
  let ledger ← Db.requireNat table row "ledger"
  let ledgerHash ← Db.optionalString table row "vent_id"
  let contractId ← Db.requireString table row "contract_id"
  let topic ← Db.requireString table row "topic"
  let txHash ← Db.requireString table row "tx_hash"
  let txIndex ← Db.requireNat table row "tx_index"
  let operationIndex ← Db.requireNat table row "operation_index"
  let eventIndex ← Db.requireNat table row "event_index"
  let payload ← Db.requireJsonObject table row "payload"
  let happenedAt ← Db.requireDate table row "happened_at" parseDate
  let ingestedAt ← Db.requireDate table row "ingested_at" parseDate
  .ok { eventId, ledger, ledgerHash, contractId, topic, txHash, txIndex, operationIndex,
        eventIndex, payload, happenedAt, ingestedAt }

/-- One condition of the generated `WHERE`. -/
inductive Clause
  | ledgerFrom (bound : ℕ)
  | ledgerTo (bound : ℕ)
  | contractId (value : String)
  | topic (value : String)
  | happenedFrom (bound : ℤ)
  | happenedTo (bound : ℤ)
  | eventIdAfter (cursor : String)

/-- The conditions a filter generates, in their order. -/
def StreamEventReplayFilter.clauses (filter : StreamEventReplayFilter) : List Clause :=
  (filter.fromLedger.map .ledgerFrom).toList ++ (filter.toledger.map .ledgerTo).toList ++
    (filter.contractId.map .contractId).toList ++ (filter.topic.map .topic).toList ++
    (filter.fromHappenedAt.map .happenedFrom).toList ++
    (filter.toHappenedAt.map .happenedTo).toList ++
    (filter.afterEventId.map .eventIdAfter).toList

/-- The table of a PostgreSQL database with its collation. -/
structure PostgresContractEventStore where
  collation : Collation
  tableName : String
  rows : List StoredEvent

namespace PostgresContractEventStore

variable (parseDate : String → Option ℤ) (store : PostgresContractEventStore)

/-- One condition on one row. -/
def holds (r : StoredEvent) : Clause → Bool
  | .ledgerFrom bound => bound ≤ r.ledger
  | .ledgerTo bound => r.ledger ≤ bound
  | .contractId value => r.contractId = value
  | .topic value => r.topic = value
  | .happenedFrom bound => bound ≤ r.happenedAt
  | .happenedTo bound => r.happenedAt ≤ bound
  | .eventIdAfter cursor => !store.collation.le r.eventId cursor

/-- `WHERE` all the conditions. -/
def selected (filter : StreamEventReplayFilter) : List StoredEvent :=
  store.rows.filter fun r => filter.clauses.all (store.holds r)

/-- `ORDER BY ledger ASC, event_id ASC LIMIT … OFFSET …`. -/
def page (filter : StreamEventReplayFilter) : List StoredEvent :=
  (((store.selected filter).insertionSort store.collation.Precedes).drop
    filter.pageOffset).take filter.pageLimit

/-- The count, then the page. The offset always counts. -/
def getEvents (filter : StreamEventReplayFilter) :
    Except StoreError StreamEventReplayResult :=
  let total := (store.selected filter).length
  match (store.page filter).mapM
      fun r => rowToStreamEventRecord parseDate r.columns store.tableName with
  | .error e => .error (.rowMapping e)
  | .ok events => .ok
      { events := events
        total := total
        limit := filter.pageLimit
        offset := filter.pageOffset
        nextCursor :=
          if events.length = filter.pageLimit ∧
              filter.pageOffset + filter.pageLimit < total then
            events.getLast?.map (·.eventId)
          else none }

end PostgresContractEventStore

/-! ## Paging over the in-memory store -/

namespace InMemoryContractEventStore

variable (localeCompare : Collation) (store : InMemoryContractEventStore)
  (filter : StreamEventReplayFilter)

/-- A request of a reader who follows the cursors. -/
def fetch (cursor : Option String) : Except StoreError StreamEventReplayResult :=
  store.getEvents localeCompare { filter with afterEventId := cursor }

theorem sorted_perm : (store.sorted localeCompare).Perm store.records :=
  List.perm_insertionSort ..

theorem length_matching :
    ((store.sorted localeCompare).filter filter.admits).length =
      (store.records.filter filter.admits).length :=
  ((store.sorted_perm localeCompare).filter _).length_eq

theorem sorted_pairwise : (store.sorted localeCompare).Pairwise localeCompare.Precedes :=
  List.pairwise_insertionSort ..

variable {localeCompare store filter}

theorem fetch_none : store.fetch localeCompare filter none =
    .ok (resultOf filter filter.pageOffset
      ((store.sorted localeCompare).filter filter.admits)) := rfl

theorem resultOf_of_empty {offset : ℕ} {results : List StoredEvent}
    (hempty : (results.drop offset).take filter.pageLimit = []) :
    (resultOf filter offset results).events = [] ∧
      (resultOf filter offset results).nextCursor = none := by
  simp [resultOf, hempty]

theorem follows_memory_eq_nil {pages : List StreamEventReplayResult}
    (hfollows : Follows (store.fetch localeCompare filter)
      StreamEventReplayResult.nextCursor none pages)
    (hempty : (((store.sorted localeCompare).filter filter.admits).drop
      filter.pageOffset).take filter.pageLimit = []) :
    pages.flatMap StreamEventReplayResult.events = [] := by
  obtain ⟨hevents, hnext⟩ := resultOf_of_empty hempty
  rw [hfollows.eq_singleton fetch_none hnext, List.flatMap_singleton, hevents]

end InMemoryContractEventStore

/-! ## Paging over the table -/

namespace PostgresContractEventStore

variable {parseDate : String → Option ℤ} {store : PostgresContractEventStore}
  {filter : StreamEventReplayFilter}

/-- A request of a reader who follows the cursors. -/
def fetch (parseDate : String → Option ℤ) (store : PostgresContractEventStore)
    (filter : StreamEventReplayFilter) (cursor : Option String) :
    Except StoreError StreamEventReplayResult :=
  store.getEvents parseDate { filter with afterEventId := cursor }

theorem rowToStreamEventRecord_columns (r : StoredEvent) (table : String) :
    rowToStreamEventRecord parseDate r.columns table =
      .error ⟨table, "vent_id", "required column was NULL or absent", "undefined"⟩ := by
  have habsent : r.columns.lookup "vent_id" = none := rfl
  rw [rowToStreamEventRecord, Db.requireString_of_absent habsent]
  rfl

theorem page_eq_nil {result : StreamEventReplayResult}
    (hresult : store.getEvents parseDate filter = .ok result) : store.page filter = [] := by
  cases hpage : store.page filter with
  | nil => rfl
  | cons =>
    rw [getEvents, hpage, List.mapM_cons, rowToStreamEventRecord_columns] at hresult
    cases hresult

theorem getEvents_of_page_eq_nil (hpage : store.page filter = []) :
    ∃ result, store.getEvents parseDate filter = .ok result ∧ result.events = [] ∧
      result.nextCursor = none := by
  rw [getEvents, hpage, List.mapM_nil]
  refine ⟨_, rfl, rfl, ?_⟩
  simp

theorem selected_no_cursor :
    store.selected { filter with afterEventId := none } = store.rows.filter filter.admits := by
  have hall : ∀ {β : Type} (o : Option β) (f : β → Clause) (p : Clause → Bool),
      (o.map f).toList.all p = o.all (p ∘ f) := by
    intro β o f p
    cases o <;> simp
  rw [selected]
  congr 1
  funext r
  simp only [StreamEventReplayFilter.clauses, List.all_append, hall]
  simp [StreamEventReplayFilter.admits, Function.comp_def, holds]

end PostgresContractEventStore

/-! ## Both stores -/

/-- Paging as it is promised for a set of stored events and a filter: the cursors lead
through the in-memory store to an end, the pages hold every matching event once and in
order, and the table with the same events gives the same pages. -/
def PagesFaithfully (parseDate : String → Option ℤ) (localeCompare collation : Collation)
    (tableName : String) (store : InMemoryContractEventStore)
    (filter : StreamEventReplayFilter) : Prop :=
  ∃ (pages : List StreamEventReplayResult) (found : List StoredEvent),
    Follows (store.fetch localeCompare filter) StreamEventReplayResult.nextCursor none pages ∧
    pages.flatMap StreamEventReplayResult.events = found.map StoredEvent.returned ∧
    found.Perm (store.records.filter filter.admits) ∧
    found.Pairwise localeCompare.Precedes ∧
    ∃ tablePages,
      Follows (PostgresContractEventStore.fetch parseDate ⟨collation, tableName, store.records⟩
        filter) StreamEventReplayResult.nextCursor none tablePages ∧
      tablePages.map StreamEventReplayResult.events = pages.map StreamEventReplayResult.events

section

variable {parseDate : String → Option ℤ} {localeCompare collation : Collation}
  {tableName : String} {store : InMemoryContractEventStore} {filter : StreamEventReplayFilter}

theorem memory_page_eq_nil_iff :
    (((store.sorted localeCompare).filter filter.admits).drop
        filter.pageOffset).take filter.pageLimit = [] ↔
      PostgresContractEventStore.page ⟨collation, tableName, store.records⟩
        { filter with afterEventId := none } = [] := by
  have hcount : (PostgresContractEventStore.selected ⟨collation, tableName, store.records⟩
      { filter with afterEventId := none }).length =
        ((store.sorted localeCompare).filter filter.admits).length := by
    rw [PostgresContractEventStore.selected_no_cursor]
    exact (store.length_matching localeCompare filter).symm
  rw [← List.length_eq_zero_iff, ← List.length_eq_zero_iff, PostgresContractEventStore.page,
    List.length_take, List.length_take, List.length_drop, List.length_drop,
    List.length_insertionSort, hcount]
  rfl

theorem PagesFaithfully.nothing_matches
    (hfaithful : PagesFaithfully parseDate localeCompare collation tableName store filter) :
    ∀ r ∈ store.records, filter.admits r = false := by
  obtain ⟨pages, found, hfollows, hevents, hperm, _, tablePages, htable, _⟩ := hfaithful
  obtain ⟨result, hresult⟩ := htable.exists_first
  have hempty : (((store.sorted localeCompare).filter filter.admits).drop
      filter.pageOffset).take filter.pageLimit = [] :=
    memory_page_eq_nil_iff.mpr (PostgresContractEventStore.page_eq_nil hresult)
  rw [InMemoryContractEventStore.follows_memory_eq_nil hfollows hempty] at hevents
  have hfound : found = [] := List.map_eq_nil_iff.mp hevents.symm
  rw [hfound] at hperm
  have hnone : store.records.filter filter.admits = [] := hperm.nil_eq.symm
  intro r hr
  rw [List.filter_eq_nil_iff] at hnone
  exact Bool.eq_false_iff.mpr (hnone r hr)

end

/-- Paging is as promised exactly when no stored event matches. -/
theorem pagesFaithfully_iff (parseDate : String → Option ℤ) (localeCompare collation : Collation)
    (tableName : String) (store : InMemoryContractEventStore)
    (filter : StreamEventReplayFilter) :
    PagesFaithfully parseDate localeCompare collation tableName store filter ↔
      ∀ r ∈ store.records, filter.admits r = false := by
  apply Iff.intro
  · exact PagesFaithfully.nothing_matches
  · intro hnone
    have hmatching : store.records.filter filter.admits = [] := by
      rw [List.filter_eq_nil_iff]
      intro r hr
      rw [hnone r hr]
      exact Bool.false_ne_true
    have hsorted : (store.sorted localeCompare).filter filter.admits = [] := by
      rw [← List.length_eq_zero_iff, store.length_matching, hmatching]
      rfl
    have hempty : (((store.sorted localeCompare).filter filter.admits).drop
        filter.pageOffset).take filter.pageLimit = [] := by
      rw [hsorted, List.drop_nil, List.take_nil]
    obtain ⟨hevents, hnext⟩ := InMemoryContractEventStore.resultOf_of_empty hempty
    have htable : ∃ result, PostgresContractEventStore.fetch parseDate
        ⟨collation, tableName, store.records⟩ filter none = .ok result ∧
        result.events = [] ∧ result.nextCursor = none :=
      PostgresContractEventStore.getEvents_of_page_eq_nil (memory_page_eq_nil_iff.mp hempty)
    obtain ⟨result, hresult, hnoEvents, hlast⟩ := htable
    refine ⟨_, [], Follows.last InMemoryContractEventStore.fetch_none hnext, ?_, ?_,
      List.Pairwise.nil, _, Follows.last hresult hlast, ?_⟩
    · rw [List.flatMap_singleton, hevents, List.map_nil]
    · rw [hmatching]
    · rw [List.map_singleton, List.map_singleton, hnoEvents, hevents]

/-- The order of the code points, for a concrete store. -/
def codePointCollation : Collation where
  le a b := a ≤ b
  total a b := by simpa using le_total a b
  trans a b c := by simpa using le_trans

/-- A store with one event. -/
def oneEventStore : InMemoryContractEventStore where
  records := [⟨⟨"t-0", 1, "C", "stream.created", "t", 0, 0, 0, [], 0, "h"⟩, 0⟩]
  nodup := List.nodup_singleton _
  reorgLog := []

/-- One stored event and no condition: the table does not return it. -/
theorem pagesFaithfully_fails :
    ¬ PagesFaithfully (fun _ => none) codePointCollation codePointCollation "contract_events"
      oneEventStore {} := by
  intro hfaithful
  have hnone := hfaithful.nothing_matches _ (List.mem_singleton_self _)
  exact absurd hnone (by decide)

end Fluxora.Indexer
