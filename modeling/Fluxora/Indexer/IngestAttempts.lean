/-
# Attempts to ingest a batch

The chain worker sends a batch again until it is accepted, so an attempt may start from what an
earlier one has left: some ledgers rolled back, some of the rows inserted. What an attempt uses of
the store is the hash of a ledger, the rollback and the insert; the store in memory and the table
both provide these. In memory the hash of a ledger is that of its first event; the statement over
the table has no order, so it may answer with the hash of any row of the ledger.
-/

import Fluxora.Indexer.EventInsert
import Fluxora.Indexer.SingleChain

namespace Fluxora.Indexer

open Lib Lib.KeyedTable

/-! ## What `ingest` uses of a store -/

/-- A store as `ingest` uses it. `getLedgerHash` relates a ledger to the answers it may
get. -/
structure ContractEventStore (σ : Type) where
  rows : σ → List StoredEvent
  getLedgerHash : σ → ℕ → Option String → Prop
  rollbackBeforeLedger : σ → ℕ → σ
  insertMany : σ → ℤ → List ContractEventRecord → Option (σ × InsertContractEventsResult)

def InMemoryContractEventStore.api : ContractEventStore InMemoryContractEventStore where
  rows store := store.records
  getLedgerHash store ledger answer := answer = store.getLedgerHash ledger
  rollbackBeforeLedger := InMemoryContractEventStore.rollbackBeforeLedger
  insertMany store now events := some (store.insertMany now events)

namespace PostgresContractEventStore

/-- `SELECT ledger_hash … WHERE ledger = $1 LIMIT 1`: the hash of any row of the ledger. -/
def getLedgerHash (store : PostgresContractEventStore) (ledger : ℕ) : Option String → Prop
  | some hash => ∃ row ∈ store.rows, row.ledger = ledger ∧ row.ledgerHash = hash
  | none => ∀ row ∈ store.rows, row.ledger ≠ ledger

/-- `DELETE … WHERE ledger >= $1` -/
def rollbackBeforeLedger (store : PostgresContractEventStore) (ledger : ℕ) :
    PostgresContractEventStore :=
  { store with rows := store.rows.filter (·.ledger < ledger) }

def api : ContractEventStore PostgresContractEventStore where
  rows store := store.rows
  getLedgerHash := getLedgerHash
  rollbackBeforeLedger := rollbackBeforeLedger
  insertMany store now events := store.insertMany now (events.map (⟨·, none⟩))

end PostgresContractEventStore

/-! ## Attempts -/

/-- The answer for a ledger is another hash than that of the batch. An empty hash counts as
no hash. -/
def differs (events : List ContractEventRecord) (ledger : ℕ) : Option String → Bool
  | some existingHash => existingHash ≠ "" ∧ existingHash ≠ incomingHash events ledger
  | none => false

namespace ContractEventStore

variable {σ : Type} (api : ContractEventStore σ) (events : List ContractEventRecord)

/-- The check of one ledger, with the rollback if the hashes differ. -/
def ChecksLedger (ledger : ℕ) (s s' : σ) : Prop :=
  ∃ answer, api.getLedgerHash s ledger answer ∧
    s' = if differs events ledger answer then api.rollbackBeforeLedger s ledger else s

/-- The checks of some ledgers, one after the other. -/
inductive Checks : List ℕ → σ → σ → Prop
  | nil (s : σ) : Checks [] s s
  | cons {ledger : ℕ} {rest : List ℕ} {s mid s' : σ} :
      api.ChecksLedger events ledger s mid → Checks rest mid s' → Checks (ledger :: rest) s s'

/-- An attempt that fails: before it checks all ledgers, or with some of the rows
inserted. A request that is refused checks none. -/
def Fails (s s' : σ) : Prop :=
  (∃ checked, checked <+: ledgersInBatch events ∧ api.Checks events checked s s') ∨
    ∃ mid now count result, api.Checks events (ledgersInBatch events) s mid ∧
      api.insertMany mid now (events.take count) = some (s', result)

/-- An attempt that succeeds, and what it reports. -/
def Succeeds (s s' : σ) (result : InsertContractEventsResult) : Prop :=
  ∃ mid now, api.Checks events (ledgersInBatch events) s mid ∧
    api.insertMany mid now events = some (s', result)

/-- Any number of attempts that fail. -/
def Tried : σ → σ → Prop := Relation.ReflTransGen (api.Fails events)

/-- The events that are stored, without the times the store has set. -/
def stored (s : σ) : List ContractEventRecord :=
  (api.rows s).map StoredEvent.toContractEventRecord

/-- Ingesting a batch converges: failed attempts and then one that succeeds leave the events
that one attempt leaves, and one more changes nothing and reports duplicates only. -/
structure Converges (s : σ) : Prop where
  same : ∀ tried final once result result', api.Tried events s tried →
    api.Succeeds events tried final result → api.Succeeds events s once result' →
      ∀ record, record ∈ api.stored final ↔ record ∈ api.stored once
  again : ∀ tried final next result result', api.Tried events s tried →
    api.Succeeds events tried final result → api.Succeeds events final next result' →
      api.rows next = api.rows final ∧ result' = ⟨[], events.map (·.eventId)⟩

/-! ## What both stores do -/

/-- What a store must do for its rows. `row` is the row that is stored for an event. -/
structure Lawful (row : ℤ → ContractEventRecord → StoredEvent) : Prop where
  key_row : ∀ now event, (row now event).eventId = event.eventId
  ledger_row : ∀ now event, (row now event).ledger = event.ledger
  hash_row : ∀ now event, (row now event).ledgerHash = event.ledgerHash
  /-- Only the time of ingestion depends on the time. -/
  record_row : ∀ now now' event,
    (row now event).toContractEventRecord = (row now' event).toContractEventRecord
  answers : ∀ s ledger, ∃ answer, api.getLedgerHash s ledger answer
  answer_none : ∀ s ledger, (∀ r ∈ api.rows s, r.ledger ≠ ledger) →
    ∀ answer, api.getLedgerHash s ledger answer → answer = none
  answer_some : ∀ s ledger hash, api.getLedgerHash s ledger (some hash) →
    ∃ r ∈ api.rows s, r.ledger = ledger ∧ r.ledgerHash = hash
  rows_rollback : ∀ s ledger,
    api.rows (api.rollbackBeforeLedger s ledger) = (api.rows s).filter (·.ledger < ledger)
  answer_rollback : ∀ s ledger fork answer, ledger < fork →
    (api.getLedgerHash (api.rollbackBeforeLedger s fork) ledger answer ↔
      api.getLedgerHash s ledger answer)
  inserts : ∀ s now batch, ∃ s', api.insertMany s now batch =
    some (s', (InMemoryContractEventStore.stage now ((api.rows s).map StoredEvent.key) batch).2) ∧
      api.rows s' = insertAll StoredEvent.key (api.rows s) (batch.map (row now))
  answer_insert : ∀ s now batch s' result, api.insertMany s now batch = some (s', result) →
    ∀ ledger answer, api.getLedgerHash s' ledger answer → api.getLedgerHash s ledger answer ∨
      ∃ event ∈ batch, event.ledger = ledger ∧ answer = some event.ledgerHash

end ContractEventStore

variable {taken : List String}

theorem InMemoryContractEventStore.mem_stage {now : ℤ} {batch : List ContractEventRecord}
    {row : StoredEvent} (hrow : row ∈ (stage now taken batch).1) :
    row.toContractEventRecord ∈ batch := by
  induction batch generalizing taken with
  | nil => cases hrow
  | cons _ _ ih =>
    rw [stage] at hrow
    split_ifs at hrow with htaken
    · exact List.mem_cons_of_mem _ (ih hrow)
    · rcases List.mem_cons.mp hrow with rfl | hrest
      · exact List.mem_cons_self
      · exact List.mem_cons_of_mem _ (ih hrest)

theorem InMemoryContractEventStore.stage_of_taken {now : ℤ} {batch : List ContractEventRecord}
    (htaken : ∀ event ∈ batch, event.eventId ∈ taken) :
    (stage now taken batch).2 = ⟨[], batch.map (·.eventId)⟩ := by
  induction batch with
  | nil => rfl
  | cons event _ ih =>
    have hrest := ih fun other hother => htaken other (List.mem_cons_of_mem _ hother)
    rw [stage, if_pos (htaken event List.mem_cons_self)]
    dsimp only
    rw [hrest, List.map_cons]

theorem InMemoryContractEventStore.lawful :
    InMemoryContractEventStore.api.Lawful fun now event => ⟨event, now⟩ where
  key_row _ _ := rfl
  ledger_row _ _ := rfl
  hash_row _ _ := rfl
  record_row _ _ _ := rfl
  answers _ _ := ⟨_, rfl⟩
  answer_none _ _ hnone _ hanswer := hanswer.trans (getLedgerHash_eq_none.mpr hnone)
  answer_some _ _ _ hanswer := exists_of_getLedgerHash hanswer.symm
  rows_rollback _ _ := rfl
  answer_rollback s ledger fork answer hbelow := by
    have hsame : (s.rollbackBeforeLedger fork).getLedgerHash ledger = s.getLedgerHash ledger := by
      unfold getLedgerHash rollbackBeforeLedger
      rw [List.find?_filter]
      congr 2
      funext row
      by_cases hledger : row.ledger = ledger
      · simp [hledger, hbelow]
      · simp [hledger]
    change answer = (s.rollbackBeforeLedger fork).getLedgerHash ledger ↔ _
    rw [hsame]
    exact Iff.rfl
  inserts s now batch := ⟨_, rfl, insertMany_records s now batch⟩
  answer_insert s now batch s' result hinsert ledger answer hanswer := by
    cases hinsert
    change answer = ((s.records ++ _).find? _).map _ at hanswer
    rw [List.find?_append] at hanswer
    cases hold : s.records.find? (·.ledger = ledger) with
    | some =>
      left
      rw [hold] at hanswer
      change answer = (s.records.find? _).map _
      rw [hold]
      exact hanswer
    | none =>
      rw [hold, Option.none_or] at hanswer
      cases hnew : (stage now (s.records.map StoredEvent.key) batch).1.find?
          (·.ledger = ledger) with
      | some row =>
        right
        rw [hnew] at hanswer
        refine ⟨row.toContractEventRecord, mem_stage (List.mem_of_find?_eq_some hnew), ?_,
          hanswer⟩
        exact of_decide_eq_true (List.find?_some hnew :)
      | none =>
        left
        rw [hnew] at hanswer
        change answer = (s.records.find? _).map _
        rw [hold]
        exact hanswer

theorem PostgresContractEventStore.insertMany_batch (store : PostgresContractEventStore) (now : ℤ)
    (batch : List ContractEventRecord) :
    api.insertMany store now batch =
      some ({ store with
          rows := insertAll StoredEvent.key store.rows
            (batch.map fun event => GivenEvent.stored now ⟨event, none⟩) },
        (InMemoryContractEventStore.stage now (store.rows.map StoredEvent.key) batch).2) := by
  change store.insertMany now (batch.map (⟨·, none⟩)) = _
  rw [insertMany_eq, List.map_map, List.map_map]
  have hsame : GivenEvent.toContractEventRecord ∘ (⟨·, none⟩ : ContractEventRecord → GivenEvent) =
      id := rfl
  rw [hsame, List.map_id]
  rfl

theorem PostgresContractEventStore.lawful :
    PostgresContractEventStore.api.Lawful fun now event => GivenEvent.stored now ⟨event, none⟩ where
  key_row _ _ := rfl
  ledger_row _ _ := rfl
  hash_row _ _ := rfl
  record_row _ _ _ := rfl
  answers s ledger := by
    by_cases hnone : ∀ row ∈ s.rows, row.ledger ≠ ledger
    · exact ⟨none, hnone⟩
    · simp only [not_forall, not_not] at hnone
      obtain ⟨row, hrow, hledger⟩ := hnone
      exact ⟨some row.ledgerHash, row, hrow, hledger, rfl⟩
  answer_none s ledger hnone answer hanswer := by
    cases answer with
    | none => rfl
    | some =>
      obtain ⟨row, hrow, hledger, _⟩ := hanswer
      exact absurd hledger (hnone row hrow)
  answer_some _ _ _ hanswer := hanswer
  rows_rollback _ _ := rfl
  answer_rollback s ledger fork answer hbelow := by
    have hrows : ∀ row, row.ledger = ledger →
        (row ∈ (s.rollbackBeforeLedger fork).rows ↔ row ∈ s.rows) := by
      intro row hledger
      rw [rollbackBeforeLedger, List.mem_filter, hledger]
      simp [hbelow]
    cases answer with
    | none =>
      apply Iff.intro
      · exact fun h row hrow hledger => h row ((hrows row hledger).mpr hrow) hledger
      · exact fun h row hrow hledger => h row ((hrows row hledger).mp hrow) hledger
    | some =>
      apply Iff.intro
      · rintro ⟨row, hrow, hledger, hhash⟩
        exact ⟨row, (hrows row hledger).mp hrow, hledger, hhash⟩
      · rintro ⟨row, hrow, hledger, hhash⟩
        exact ⟨row, (hrows row hledger).mpr hrow, hledger, hhash⟩
  inserts s now batch := ⟨_, s.insertMany_batch now batch, rfl⟩
  answer_insert s now batch s' result hinsert ledger answer hanswer := by
    rw [insertMany_batch] at hinsert
    cases hinsert
    cases answer with
    | none =>
      left
      intro row hrow
      exact hanswer row (mem_insertAll_of_mem StoredEvent.key hrow _)
    | some =>
      obtain ⟨row, hrow, hledger, hhash⟩ := hanswer
      rcases mem_insertAll StoredEvent.key hrow with hold | hnew
      · exact Or.inl ⟨row, hold, hledger, hhash⟩
      · obtain ⟨event, hevent, rfl⟩ := List.mem_map.mp hnew
        exact Or.inr ⟨event, hevent, hledger, congrArg some hhash.symm⟩

end Fluxora.Indexer
