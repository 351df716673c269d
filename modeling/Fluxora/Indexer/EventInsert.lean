/-
# Inserting events into the table

`insertMany` writes one row per event with an `INSERT` that names the columns and pairs them with
numbered parameters, and skips an event whose id is taken. The pairing has a slip: the column of
the transaction hash takes the parameter of the contract id, and the hash is not among the
parameters at all.

Read back, the row does not arrive: the reader asks for a column the table does not have.
-/

import Fluxora.Lib.Placeholders
import Fluxora.Indexer.EventPaging

namespace Fluxora.Indexer

open Lib Lib.KeyedTable Lib.Placeholders

/-- An event as `insertMany` takes it, with a time of ingestion if the caller has one. -/
structure GivenEvent extends ContractEventRecord where
  ingestedAt : Option ℤ

/-! ## The statement -/

/-- The columns the statement names. -/
def insertColumns : List String :=
  ["event_id", "ledger", "ledger_hash", "contract_id", "topic", "tx_hash", "tx_index",
   "operation_index", "event_index", "payload", "happened_at", "ingested_at"]

/-- An entry of `VALUES`. -/
inductive ValueExpression
  /-- `$n` -/
  | parameter (n : ℕ)
  /-- `COALESCE($n, now())` -/
  | parameterOrNow (n : ℕ)

def insertValues : List ValueExpression :=
  [.parameter 1, .parameter 2, .parameter 3, .parameter 4, .parameter 5, .parameter 4,
   .parameter 6, .parameter 7, .parameter 8, .parameter 9, .parameter 10, .parameterOrNow 11]

/-- The parameters that are sent. The payload is sent as its JSON text and the times as
ISO texts; they stand here as the columns read them. -/
def GivenEvent.parameters (event : GivenEvent) : List Db.DriverValue :=
  [.string event.eventId, .number event.ledger, .string event.ledgerHash,
   .string event.contractId, .string event.topic, .number event.txIndex,
   .number event.operationIndex, .number event.eventIndex, .object event.payload,
   .date event.happenedAt, (event.ingestedAt.map Db.DriverValue.date).getD .null]

/-- `COALESCE(value, now())` -/
def orNow (now : ℤ) : Db.DriverValue → Db.DriverValue
  | .null => .date now
  | value => value

/-- The value of an entry, with `none` for a parameter that was not sent. -/
def ValueExpression.value (now : ℤ) (sent : List Db.DriverValue) :
    ValueExpression → Option Db.DriverValue
  | .parameter n => Placeholders.parameter sent n
  | .parameterOrNow n => (Placeholders.parameter sent n).map (orNow now)

/-- The row that the statement names, column by column. -/
def insertedColumns (now : ℤ) (event : GivenEvent) : Option Db.Row :=
  (insertValues.mapM (ValueExpression.value now event.parameters)).map insertColumns.zip

def textColumn (row : Db.Row) (column : String) : Option String :=
  match row.lookup column with
  | some (.string text) => some text
  | _ => none

def integerColumn (row : Db.Row) (column : String) : Option ℕ :=
  match row.lookup column with
  | some (.number q) => if q.den = 1 ∧ 0 ≤ q.num then some q.num.toNat else none
  | _ => none

def dateColumn (row : Db.Row) (column : String) : Option ℤ :=
  match row.lookup column with
  | some (.date instant) => some instant
  | _ => none

def jsonColumn (row : Db.Row) (column : String) : Option (List (String × Json)) :=
  match row.lookup column with
  | some (.object entries) => some entries
  | _ => none

/-- The row as the table keeps it. A column that is missing or of another type is an
error of the statement. -/
def storedRow (row : Db.Row) : Option StoredEvent := do
  let eventId ← textColumn row "event_id"
  let ledger ← integerColumn row "ledger"
  let contractId ← textColumn row "contract_id"
  let topic ← textColumn row "topic"
  let txHash ← textColumn row "tx_hash"
  let txIndex ← integerColumn row "tx_index"
  let operationIndex ← integerColumn row "operation_index"
  let eventIndex ← integerColumn row "event_index"
  let payload ← jsonColumn row "payload"
  let happenedAt ← dateColumn row "happened_at"
  let ledgerHash ← textColumn row "ledger_hash"
  let ingestedAt ← dateColumn row "ingested_at"
  some { eventId, ledger, contractId, topic, txHash, txIndex, operationIndex, eventIndex,
         payload, happenedAt, ledgerHash, ingestedAt }

namespace PostgresContractEventStore

/-- One `INSERT … ON CONFLICT (event_id) DO NOTHING RETURNING event_id`: the table after
it, and whether the id is returned. -/
def insertEvent (store : PostgresContractEventStore) (now : ℤ) (event : GivenEvent) :
    Option (PostgresContractEventStore × Bool) := do
  let row ← (insertedColumns now event).bind storedRow
  if row.key ∈ store.rows.map StoredEvent.key then some (store, false)
  else some ({ store with rows := store.rows ++ [row] }, true)

def insertMany (store : PostgresContractEventStore) (now : ℤ) :
    List GivenEvent → Option (PostgresContractEventStore × InsertContractEventsResult)
  | [] => some (store, ⟨[], []⟩)
  | event :: rest => do
      let (next, returned) ← store.insertEvent now event
      let (last, result) ← next.insertMany now rest
      if returned then
        some (last, { result with insertedEventIds := event.eventId :: result.insertedEventIds })
      else
        some (last, { result with duplicateEventIds := event.eventId :: result.duplicateEventIds })

end PostgresContractEventStore

/-! ## The row of an event -/

/-- The row that is stored for an event: the contract id stands for the hash of the
transaction. -/
def GivenEvent.stored (now : ℤ) (event : GivenEvent) : StoredEvent where
  toContractEventRecord := { event.toContractEventRecord with txHash := event.contractId }
  ingestedAt := event.ingestedAt.getD now

theorem insertedColumns_eq (now : ℤ) (event : GivenEvent) :
    insertedColumns now event = some
      [("event_id", .string event.eventId), ("ledger", .number event.ledger),
       ("ledger_hash", .string event.ledgerHash), ("contract_id", .string event.contractId),
       ("topic", .string event.topic), ("tx_hash", .string event.contractId),
       ("tx_index", .number event.txIndex), ("operation_index", .number event.operationIndex),
       ("event_index", .number event.eventIndex), ("payload", .object event.payload),
       ("happened_at", .date event.happenedAt),
       ("ingested_at", .date (event.ingestedAt.getD now))] := by
  obtain ⟨record, ingestedAt⟩ := event
  cases ingestedAt with
  | none | some => rfl

theorem storedRow_insertedColumns (now : ℤ) (event : GivenEvent) :
    (insertedColumns now event).bind storedRow = some (event.stored now) := by
  rw [insertedColumns_eq, Option.bind_some]
  simp [storedRow, textColumn, integerColumn, dateColumn, jsonColumn, List.lookup_cons,
    GivenEvent.stored]

@[simp]
theorem key_stored (now : ℤ) (event : GivenEvent) : (event.stored now).key = event.eventId := rfl

/-- A row carries an event when it has every field of it. -/
def StreamEventRecord.Carries (record : StreamEventRecord) (event : ContractEventRecord) : Prop :=
  ∃ ingestedAt, record = (StoredEvent.mk event ingestedAt).returned

namespace PostgresContractEventStore

variable (store : PostgresContractEventStore) (now : ℤ)

theorem insertEvent_eq (event : GivenEvent) :
    store.insertEvent now event =
      if event.eventId ∈ store.rows.map StoredEvent.key then some (store, false)
      else some ({ store with rows := store.rows ++ [event.stored now] }, true) := by
  rw [insertEvent, storedRow_insertedColumns]
  rfl

/-- One statement after the other, `insertMany` adds the rows of the events whose ids are
not taken, and reports as the store in memory does. -/
theorem insertMany_eq (events : List GivenEvent) :
    store.insertMany now events =
      some ({ store with
          rows := insertAll StoredEvent.key store.rows (events.map (·.stored now)) },
        (InMemoryContractEventStore.stage now (store.rows.map StoredEvent.key)
          (events.map GivenEvent.toContractEventRecord)).2) := by
  induction events generalizing store with
  | nil => rfl
  | cons event _ ih =>
    rw [insertMany, insertEvent_eq, List.map_cons, List.map_cons, insertAll, List.foldl_cons,
      InMemoryContractEventStore.stage]
    by_cases htaken : event.eventId ∈ store.rows.map StoredEvent.key
    · have hrow : insertRow StoredEvent.key store.rows (event.stored now) = store.rows :=
        if_pos htaken
      rw [if_pos htaken, if_pos htaken, hrow]
      simp [ih, insertAll]
    · have hrow : insertRow StoredEvent.key store.rows (event.stored now) =
          store.rows ++ [event.stored now] := if_neg htaken
      rw [if_neg htaken, if_neg htaken, hrow]
      simp [ih, insertAll]

/-! ## The round trip -/

/-- The round trip as it is promised for an event of a batch: the batch is inserted, and
some page of the events then carries the event. -/
def RoundTrips (parseDate : String → Option ℤ) (events : List GivenEvent)
    (event : ContractEventRecord) : Prop :=
  ∃ next result filter page, store.insertMany now events = some (next, result) ∧
    next.getEvents parseDate filter = .ok page ∧ ∃ record ∈ page.events, record.Carries event

variable {store now}

theorem events_eq_nil {parseDate : String → Option ℤ} {filter : StreamEventReplayFilter}
    {page : StreamEventReplayResult} (hpage : store.getEvents parseDate filter = .ok page) :
    page.events = [] := by
  obtain ⟨empty, hempty, hevents, _⟩ := getEvents_of_page_eq_nil (page_eq_nil hpage)
  rw [hpage] at hempty
  injection hempty with hsame
  rw [hsame, hevents]

variable (store now)

/-- No event makes the round trip. -/
theorem not_roundTrips (parseDate : String → Option ℤ) (events : List GivenEvent)
    (event : ContractEventRecord) : ¬ store.RoundTrips now parseDate events event := by
  rintro ⟨next, result, filter, page, _, hpage, record, hrecord, _⟩
  rw [events_eq_nil hpage] at hrecord
  cases hrecord

end PostgresContractEventStore

/-- An event, to be stored at the time of the insert. -/
def createdEvent : GivenEvent :=
  ⟨⟨"t-0", 1, "C", "stream.created", "t", 0, 0, 0, [], 0, "h"⟩, none⟩

/-- An empty table takes the event and does not give it back. -/
theorem createdEvent_lost :
    ¬ PostgresContractEventStore.RoundTrips ⟨codePointCollation, "contract_events", []⟩ 0
      (fun _ => none) [createdEvent] createdEvent.toContractEventRecord := by
  rintro ⟨_, _, _, _, _, hpage, record, hrecord, _⟩
  rw [PostgresContractEventStore.events_eq_nil hpage] at hrecord
  cases hrecord

end Fluxora.Indexer
