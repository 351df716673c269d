/-
# The contract event store

Contract events are kept under their event id, in the order they were inserted. A batch is staged
first and added as a whole; an event whose id is taken is skipped and reported as a duplicate. A
rollback removes every event at or above a ledger, and the hash of a ledger is the hash its first
stored event carries.
-/

import Fluxora.Lib.Json
import Fluxora.Lib.KeyedTable

namespace Fluxora.Indexer

open Lib Lib.KeyedTable

/-- A contract event as the ingest accepts it. The time is the instant in
milliseconds that the normalised ISO text denotes. -/
structure ContractEventRecord where
  eventId : String
  ledger : ℕ
  contractId : String
  topic : String
  txHash : String
  txIndex : ℕ
  operationIndex : ℕ
  eventIndex : ℕ
  payload : List (String × Json)
  happenedAt : ℤ
  ledgerHash : String

/-- A stored event, with the time the store has set. -/
structure StoredEvent extends ContractEventRecord where
  ingestedAt : ℤ

structure InsertContractEventsResult where
  insertedEventIds : List String
  duplicateEventIds : List String
  deriving DecidableEq

/-- What a rollback has removed. -/
structure ReorgRecord where
  forkLedger : ℕ
  evictedHash : String
  incomingHash : String
  removedEventIds : List String

/-- The id a stored event is kept under. -/
def StoredEvent.key (record : StoredEvent) : String := record.eventId

/-- The in-memory store. -/
structure InMemoryContractEventStore where
  records : List StoredEvent
  nodup : (records.map StoredEvent.key).Nodup
  reorgLog : List ReorgRecord

namespace InMemoryContractEventStore

/-- The store a process starts with. -/
def empty : InMemoryContractEventStore := ⟨[], List.nodup_nil, []⟩

/-! ## Inserting a batch -/

/-- The staging loop of `insertMany`, run with the ids of the stored and of the staged
events as the taken ones. -/
def stage (now : ℤ) (taken : List String) :
    List ContractEventRecord → List StoredEvent × InsertContractEventsResult
  | [] => ([], ⟨[], []⟩)
  | event :: rest =>
    if event.eventId ∈ taken then
      let (staged, result) := stage now taken rest
      (staged, { result with duplicateEventIds := event.eventId :: result.duplicateEventIds })
    else
      let (staged, result) := stage now (taken ++ [event.eventId]) rest
      (⟨event, now⟩ :: staged,
        { result with insertedEventIds := event.eventId :: result.insertedEventIds })

theorem append_stage (now : ℤ) (table : List StoredEvent)
    (events : List ContractEventRecord) :
    table ++ (stage now (table.map StoredEvent.key) events).1 =
      insertAll StoredEvent.key table (events.map (StoredEvent.mk · now)) := by
  induction events generalizing table with
  | nil => simp [stage]
  | cons event rest ih =>
    have hstep : insertAll StoredEvent.key table
        ((event :: rest).map (StoredEvent.mk · now)) =
        insertAll StoredEvent.key (insertRow StoredEvent.key table ⟨event, now⟩)
          (rest.map (StoredEvent.mk · now)) := rfl
    rw [hstep, stage]
    by_cases htaken : event.eventId ∈ table.map StoredEvent.key
    · have hrow : insertRow StoredEvent.key table ⟨event, now⟩ = table :=
        if_pos htaken
      rw [if_pos htaken, hrow]
      exact ih table
    · have hrow : insertRow StoredEvent.key table ⟨event, now⟩ =
          table ++ [⟨event, now⟩] := if_neg htaken
      have hkeys : (table ++ [StoredEvent.mk event now]).map StoredEvent.key =
          table.map StoredEvent.key ++ [event.eventId] := List.map_append
      rw [if_neg htaken, hrow, ← ih, hkeys, List.append_assoc]
      rfl

/-- Insert a batch, skipping the ids that are taken. -/
def insertMany (store : InMemoryContractEventStore) (now : ℤ)
    (events : List ContractEventRecord) :
    InMemoryContractEventStore × InsertContractEventsResult :=
  let staged := stage now (store.records.map StoredEvent.key) events
  ({ records := store.records ++ staged.1
     nodup := by
       rw [append_stage]
       exact nodup_insertAll StoredEvent.key store.nodup _
     reorgLog := store.reorgLog }, staged.2)

theorem insertMany_records (store : InMemoryContractEventStore) (now : ℤ)
    (events : List ContractEventRecord) :
    (store.insertMany now events).1.records =
      insertAll StoredEvent.key store.records (events.map (StoredEvent.mk · now)) :=
  append_stage now store.records events

variable {store : InMemoryContractEventStore} {record : StoredEvent}

theorem mem_insertMany {now : ℤ} {events : List ContractEventRecord}
    (hmem : record ∈ (store.insertMany now events).1.records) :
    record ∈ store.records ∨ record.toContractEventRecord ∈ events := by
  rw [insertMany_records] at hmem
  rcases mem_insertAll StoredEvent.key hmem with hold | hnew
  · exact Or.inl hold
  · obtain ⟨event, hevent, heq⟩ := List.mem_map.mp hnew
    rw [← heq]
    exact Or.inr hevent

/-! ## Reorgs -/

/-- The hash of a ledger, from its first stored event. -/
def getLedgerHash (store : InMemoryContractEventStore) (ledger : ℕ) : Option String :=
  (store.records.find? (·.ledger = ledger)).map (·.ledgerHash)

/-- Remove every event at or above the fork, and log what was removed. -/
def rollbackBeforeLedger (store : InMemoryContractEventStore) (forkLedger : ℕ) :
    InMemoryContractEventStore :=
  let evictedHash := (store.getLedgerHash forkLedger).getD ""
  let removedEventIds :=
    (store.records.filter (forkLedger ≤ ·.ledger)).map StoredEvent.key
  { records := store.records.filter (·.ledger < forkLedger)
    nodup := store.nodup.sublist (List.filter_sublist.map _)
    reorgLog :=
      if removedEventIds ≠ [] ∨ evictedHash ≠ "" then
        store.reorgLog ++ [⟨forkLedger, evictedHash, "", removedEventIds⟩]
      else store.reorgLog }

theorem mem_rollbackBeforeLedger {forkLedger : ℕ} :
    record ∈ (store.rollbackBeforeLedger forkLedger).records ↔
      record ∈ store.records ∧ record.ledger < forkLedger := by
  simp [rollbackBeforeLedger, List.mem_filter]

theorem getLedgerHash_eq_none {ledger : ℕ} :
    store.getLedgerHash ledger = none ↔ ∀ record ∈ store.records, record.ledger ≠ ledger := by
  simp [getLedgerHash, List.find?_eq_none]

theorem exists_of_getLedgerHash {ledger : ℕ} {hash : String}
    (hhash : store.getLedgerHash ledger = some hash) :
    ∃ record ∈ store.records, record.ledger = ledger ∧ record.ledgerHash = hash := by
  rw [getLedgerHash, Option.map_eq_some_iff] at hhash
  obtain ⟨record, hfound, hcarried⟩ := hhash
  have hledger := List.find?_some hfound
  exact ⟨record, List.mem_of_find?_eq_some hfound, of_decide_eq_true hledger, hcarried⟩

end InMemoryContractEventStore

end Fluxora.Indexer
