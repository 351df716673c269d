/-
# The streams table

A row of `streams` is found under its id, and at most one row stands for one event of one
transaction. A stream is inserted active; after that its status moves along the declared
transitions only, and the statement that moves it is guarded by the status that was read before,
so that a lost race writes nothing.

The table carries both uniqueness constraints.
-/

import Mathlib.Data.Int.Notation
import Mathlib.Data.List.Nodup
import Fluxora.Lib.Statements

namespace Fluxora.Streams

open Lib Lib.Statements

/-! ## Statuses -/

inductive StreamStatus
  | active
  | paused
  | completed
  | cancelled
  deriving DecidableEq

def StreamStatus.text : StreamStatus → String
  | .active => "active"
  | .paused => "paused"
  | .completed => "completed"
  | .cancelled => "cancelled"

/-- Valid API-layer status transitions. -/
def validApiTransitions : StreamStatus → List StreamStatus
  | .active => [.paused, .completed, .cancelled]
  | .paused => [.active, .cancelled]
  | .completed => []
  | .cancelled => []

def isValidStatusTransition (source target : StreamStatus) : Bool :=
  target ∈ validApiTransitions source

/-- Terminal streams are immutable and safe to cache at the edge. -/
def isTerminalStatus : StreamStatus → Bool
  | .completed => true
  | .cancelled => true
  | _ => false

theorem not_valid_of_terminal {status : StreamStatus} (hterminal : isTerminalStatus status = true)
    (target : StreamStatus) : isValidStatusTransition status target = false := by
  cases status with
  | active | paused => cases hterminal
  | completed | cancelled => rfl

/-! ## Rows and statements -/

structure CreateStreamInput where
  id : String
  senderAddress : String
  recipientAddress : String
  amount : String
  streamedAmount : String
  remainingAmount : String
  ratePerSecond : String
  startTime : ℤ
  endTime : ℤ
  contractId : String
  transactionHash : String
  eventIndex : ℕ

structure StreamRecord extends CreateStreamInput where
  status : StreamStatus

/-- An active stream that ends at ten. -/
def streamSample : StreamRecord :=
  ⟨⟨"ab-0", "G1", "G2", "10", "0", "10", "1", 0, 10, "C", "ab", 0⟩, .active⟩

/-- Absent fields are not touched by the update. -/
structure UpdateStreamInput where
  status : Option StreamStatus := none
  streamedAmount : Option String := none
  remainingAmount : Option String := none
  endTime : Option ℤ := none
  deriving DecidableEq

/-- The event that a stream stands for. -/
def CreateStreamInput.position (input : CreateStreamInput) : String × ℕ :=
  (input.transactionHash, input.eventIndex)

def StreamRecord.position (row : StreamRecord) : String × ℕ :=
  row.toCreateStreamInput.position

/-- The table with its primary key and its unique constraint. -/
structure StreamsTable where
  rows : List StreamRecord
  ids : (rows.map (·.id)).Nodup
  positions : (rows.map StreamRecord.position).Nodup

namespace StreamsTable

def empty : StreamsTable := ⟨[], List.nodup_nil, List.nodup_nil⟩

def single (row : StreamRecord) : StreamsTable :=
  ⟨[row], List.nodup_singleton _, List.nodup_singleton _⟩

def getById (table : StreamsTable) (id : String) : Option StreamRecord :=
  table.rows.find? (·.id = id)

def getByEvent (table : StreamsTable) (transactionHash : String) (eventIndex : ℕ) :
    Option StreamRecord :=
  table.rows.find? (·.position = (transactionHash, eventIndex))

local instance : LawfulBEq (String × ℕ) := inferInstance

/-- `INSERT … ON CONFLICT (transaction_hash, event_index) DO NOTHING RETURNING …`. A
taken id is not the declared conflict and is an error. -/
def insert (input : CreateStreamInput) (table : StreamsTable) :
    Except String (Option (StreamRecord × StreamsTable)) :=
  if hposition : input.position ∈ table.rows.map StreamRecord.position then .ok none
  else if hid : input.id ∈ table.rows.map (·.id) then
    .error "duplicate key value violates unique constraint"
  else
    .ok (some (⟨input, .active⟩,
      { rows := table.rows ++ [⟨input, .active⟩]
        ids := by
          rw [List.map_append]
          exact table.ids.append (List.nodup_singleton _)
            (List.disjoint_singleton.mpr hid)
        positions := by
          rw [List.map_append]
          exact table.positions.append (List.nodup_singleton _)
            (List.disjoint_singleton.mpr hposition) }))

/-- What the generated `SET` does to a row. -/
def assign (input : UpdateStreamInput) (row : StreamRecord) : StreamRecord :=
  { row with
    status := input.status.getD row.status
    streamedAmount := input.streamedAmount.getD row.streamedAmount
    remainingAmount := input.remainingAmount.getD row.remainingAmount
    endTime := input.endTime.getD row.endTime }

/-- A row after the guarded update. -/
def updateRow (id : String) (guard : StreamStatus) (input : UpdateStreamInput)
    (row : StreamRecord) : StreamRecord :=
  if row.id = id ∧ row.status = guard then assign input row else row

theorem updateRow_keys (id : String) (guard : StreamStatus) (input : UpdateStreamInput)
    (row : StreamRecord) :
    (updateRow id guard input row).id = row.id ∧
      (updateRow id guard input row).position = row.position := by
  unfold updateRow
  split
  · exact ⟨rfl, rfl⟩
  · exact ⟨rfl, rfl⟩

theorem map_updateRow {κ : Type} {key : StreamRecord → κ} {id : String} {guard : StreamStatus}
    {input : UpdateStreamInput} (hkey : ∀ row, key (updateRow id guard input row) = key row)
    {rows : List StreamRecord} :
    (rows.map (updateRow id guard input)).map key = rows.map key := by
  rw [List.map_map]
  exact List.map_congr_left fun row _ => hkey row

/-- `UPDATE streams SET … WHERE id = … AND status = … RETURNING …`. -/
def guardedUpdate (id : String) (guard : StreamStatus) (input : UpdateStreamInput)
    (table : StreamsTable) : Except String (Option (StreamRecord × StreamsTable)) :=
  match table.rows.find? fun row => row.id = id ∧ row.status = guard with
  | none => .ok none
  | some row =>
    .ok (some (assign input row,
      { rows := table.rows.map (updateRow id guard input)
        ids := by
          rw [map_updateRow fun row => (updateRow_keys id guard input row).1]
          exact table.ids
        positions := by
          rw [map_updateRow fun row => (updateRow_keys id guard input row).2]
          exact table.positions }))

end StreamsTable

/-! ## Operations -/

structure UpsertResult where
  created : Bool
  stream : StreamRecord

/-- Insert a stream from a blockchain event. -/
def upsertStream (input : CreateStreamInput) : Program StreamsTable UpsertResult := do
  match ← execute (StreamsTable.insert input) with
  | some stream => pure ⟨true, stream⟩
  | none =>
    match ← query (·.getById input.id) with
    | some existing => pure ⟨false, existing⟩
    | none =>
      match ← query (·.getByEvent input.transactionHash input.eventIndex) with
      | some byEvent => pure ⟨false, byEvent⟩
      | none => fail "Idempotency conflict: stream not found after insert conflict"

/-- The message for a transition that is not declared. -/
def invalidTransitionMessage (source target : StreamStatus) : String :=
  let allowed := ", ".intercalate ((validApiTransitions source).map StreamStatus.text)
  let allowedText := if allowed = "" then "none" else allowed
  s!"Invalid status transition: {source.text} → {target.text}. Allowed: {allowedText}"

/-- Update stream status and/or amounts, validating the status transition. -/
def updateStream (id : String) (input : UpdateStreamInput) :
    Program StreamsTable StreamRecord := do
  match ← query (·.getById id) with
  | none => fail s!"Stream not found: {id}"
  | some current =>
    match input.status.filter fun target => !isValidStatusTransition current.status target with
    | some target => fail (invalidTransitionMessage current.status target)
    | none =>
      match ← execute (StreamsTable.guardedUpdate id current.status input) with
      | some row => pure row
      | none =>
        -- told apart for the message only
        if ← query fun table => (table.getById id).isSome then
          let status := current.status.text
          fail (s!"Status conflict: stream {id} status changed concurrently from " ++
            s!"'{status}'. Precondition no longer holds.")
        else fail s!"Stream not found after update: {id}"

/-! ## What the operations do -/

variable {input : CreateStreamInput} {s : Session StreamsTable}

theorem StreamsTable.insert_eq_none {table : StreamsTable}
    (hnone : table.insert input = .ok none) :
    ∃ row ∈ table.rows, row.position = input.position := by
  unfold StreamsTable.insert at hnone
  split_ifs at hnone with hposition hid
  · exact List.mem_map.mp hposition
  · cases hnone

theorem StreamsTable.rows_of_insert {table table' : StreamsTable} {row : StreamRecord}
    (hsome : table.insert input = .ok (some (row, table'))) :
    table'.rows = table.rows ++ [⟨input, .active⟩] := by
  unfold StreamsTable.insert at hsome
  split_ifs at hsome with hposition hid
  · cases hsome
  · cases hsome
    rfl

/-- The rows stand for the same events as before. -/
def SamePositions (before after : StreamsTable) : Prop :=
  after.rows.map StreamRecord.position = before.rows.map StreamRecord.position

theorem StreamsTable.samePositions_guardedUpdate {table table' : StreamsTable} {id : String}
    {guard : StreamStatus} {change : UpdateStreamInput} {row : StreamRecord}
    (hsome : table.guardedUpdate id guard change = .ok (some (row, table'))) :
    SamePositions table table' := by
  unfold StreamsTable.guardedUpdate at hsome
  split at hsome
  · cases hsome
  · cases hsome
    exact StreamsTable.map_updateRow fun row =>
      (StreamsTable.updateRow_keys id guard change row).2

/-- The outcome of an upsert. A new stream has been written, and an old one was found
under the event. Whatever happens, the only row that can be added is for the event,
and then it counts as written. -/
structure Upserted (input : CreateStreamInput) (s : Session StreamsTable)
    (r : Except String UpsertResult) (s' : Session StreamsTable) : Prop where
  issued : s.issued < s'.issued
  rows : ∀ row ∈ s'.store.rows,
    row ∈ s.store.rows ∨ row.position = input.position ∧ s'.written = true
  created : ∀ result, r = .ok result → result.created = true → s'.written = true
  existing : ∀ result, r = .ok result → result.created = false →
    ∃ row ∈ s.store.rows, row.position = input.position

theorem upsertStream_spec : Ensures (upsertStream input) s (Upserted input s) := by
  have hadded : ∀ row table, s.store.insert input = .ok (some (row, table)) →
      ∀ r ∈ table.rows, r ∈ s.store.rows ∨
        r.position = input.position ∧ (s.write table).written = true := by
    intro row table hinsert r hr
    rw [StreamsTable.rows_of_insert hinsert] at hr
    rcases List.mem_append.mp hr with hold | hnew
    · exact Or.inl hold
    · rw [List.mem_singleton.mp hnew]
      exact Or.inr ⟨rfl, rfl⟩
  -- an error after statements that wrote nothing
  have hquiet : ∀ (s' : Session StreamsTable) message, s.issued < s'.issued →
      s'.store = s.store → Upserted input s (.error message) s' := by
    intro s' message hissued hstore
    exact ⟨hissued, fun row hr => Or.inl (hstore ▸ hr), fun _ h => (by cases h),
      fun _ h => (by cases h)⟩
  apply Ensures.execute_bind
  · intro row table hinsert
    exact Ensures.pure ⟨Nat.lt_succ_self _, hadded row table hinsert, fun _ _ _ => rfl,
      fun result hresult hold => (by cases hresult; cases hold)⟩
  · intro row table message hinsert
    exact ⟨Nat.lt_succ_self _, hadded row table hinsert, fun _ h => (by cases h),
      fun _ h => (by cases h)⟩
  · intro hnone
    -- the row that is reported does not matter: the conflict has found one
    have hold : ∀ (s' : Session StreamsTable) row, s.issued < s'.issued →
        s'.store = s.store → Upserted input s (.ok ⟨false, row⟩) s' := by
      intro s' row hissued hstore
      exact ⟨hissued, fun row hr => Or.inl (hstore ▸ hr),
        fun result hresult hnew => (by cases hresult; cases hnew),
        fun _ _ _ => StreamsTable.insert_eq_none hnone⟩
    have htwo : s.issued < s.issue.issue.issued := Nat.lt_succ_of_lt (Nat.lt_succ_self _)
    apply Ensures.query_bind
    · split
      · exact Ensures.pure (hold _ _ htwo rfl)
      · have hthree : s.issued < s.issue.issue.issue.issued := Nat.lt_succ_of_lt htwo
        apply Ensures.query_bind
        · split
          · exact Ensures.pure (hold _ _ hthree rfl)
          · exact Ensures.fail (hquiet _ _ hthree rfl)
        · exact fun message => hquiet _ message hthree rfl
    · exact fun message => hquiet _ message htwo rfl
  · exact fun message => hquiet _ message (Nat.lt_succ_self _) rfl

/-- The outcome of an update: a row that is returned has been written, and in any case
the rows stand for the same events. -/
structure Updated (s : Session StreamsTable) (r : Except String StreamRecord)
    (s' : Session StreamsTable) : Prop where
  issued : s.issued < s'.issued
  positions : SamePositions s.store s'.store
  written : ∀ row, r = .ok row → s'.written = true

theorem updateStream_spec {id : String} {change : UpdateStreamInput} :
    Ensures (updateStream id change) s (Updated s) := by
  have hquiet : ∀ (s' : Session StreamsTable) message, s.issued < s'.issued →
      s'.store = s.store → Updated s (.error message) s' := by
    intro s' message hissued hstore
    exact ⟨hissued, by rw [hstore]; rfl, fun _ h => by cases h⟩
  have hone : s.issued < s.issue.issued := Nat.lt_succ_self _
  have htwo : s.issued < s.issue.issue.issued := Nat.lt_succ_of_lt hone
  apply Ensures.query_bind
  · split
    · exact Ensures.fail (hquiet _ _ hone rfl)
    · split
      · exact Ensures.fail (hquiet _ _ hone rfl)
      · apply Ensures.execute_bind
        · intro row table hupdate
          exact Ensures.pure ⟨htwo, StreamsTable.samePositions_guardedUpdate hupdate,
            fun _ _ => rfl⟩
        · intro row table message hupdate
          exact ⟨htwo, StreamsTable.samePositions_guardedUpdate hupdate, fun _ h => by cases h⟩
        · intro _
          have hthree : s.issued < s.issue.issue.issue.issued := Nat.lt_succ_of_lt htwo
          apply Ensures.query_bind
          · split
            · exact Ensures.fail (hquiet _ _ hthree rfl)
            · exact Ensures.fail (hquiet _ _ hthree rfl)
          · exact fun message => hquiet _ message hthree rfl
        · exact fun message => hquiet _ message htwo rfl
  · exact fun message => hquiet _ message hone rfl

/-! ## Updates without effect -/

/-- Nothing the update carries differs from the row. -/
def UpdateStreamInput.Repeats (input : UpdateStreamInput) (row : StreamRecord) : Prop :=
  (∀ amount ∈ input.streamedAmount, amount = row.streamedAmount) ∧
    (∀ amount ∈ input.remainingAmount, amount = row.remainingAmount) ∧
    ∀ time ∈ input.endTime, time = row.endTime

theorem assign_eq_self {input : UpdateStreamInput} {row : StreamRecord}
    (hstatus : input.status = none) (hrepeats : input.Repeats row) :
    StreamsTable.assign input row = row := by
  obtain ⟨hstreamed, hremaining, hend⟩ := hrepeats
  have hgetD : ∀ {α : Type} {carried : Option α} {stored : α},
      (∀ value ∈ carried, value = stored) → carried.getD stored = stored := by
    intro α carried stored h
    cases carried with
    | none => rfl
    | some value => exact h value rfl
  simp [StreamsTable.assign, hstatus, hgetD hstreamed, hgetD hremaining, hgetD hend]

/-! ## Rows under an id -/

namespace StreamsTable

variable {table table' : StreamsTable} {id : String} {row : StreamRecord}
  {change : UpdateStreamInput}

theorem getById_eq_some_iff : table.getById id = some row ↔ row ∈ table.rows ∧ row.id = id := by
  apply Iff.intro
  · intro hfound
    exact ⟨List.mem_of_find?_eq_some hfound, by simpa using List.find?_some hfound⟩
  · rintro ⟨hmem, hid⟩
    cases hfound : table.getById id with
    | none =>
      have habsent := List.find?_eq_none.mp hfound row hmem
      simp [hid] at habsent
    | some other =>
      have hother : other ∈ table.rows := List.mem_of_find?_eq_some hfound
      have hid' : other.id = id := by simpa using List.find?_some hfound
      rw [List.inj_on_of_nodup_map table.ids hother hmem (hid'.trans hid.symm)]

theorem getById_eq_none_iff : table.getById id = none ↔ id ∉ table.rows.map (·.id) := by
  rw [getById, List.find?_eq_none]
  simp

theorem mem_of_getByEvent {transactionHash : String} {eventIndex : ℕ}
    (h : table.getByEvent transactionHash eventIndex = some row) :
    row ∈ table.rows ∧ row.position = (transactionHash, eventIndex) :=
  ⟨List.mem_of_find?_eq_some h, by simpa using List.find?_some h⟩

theorem not_mem_of_getByEvent {transactionHash : String} {eventIndex : ℕ}
    (h : table.getByEvent transactionHash eventIndex = none) :
    (transactionHash, eventIndex) ∉ table.rows.map StreamRecord.position := by
  intro hmem
  obtain ⟨row, hrow, hposition⟩ := List.mem_map.mp hmem
  exact absurd (List.find?_eq_none.mp h row hrow) (by simp [hposition])

theorem getById_of_rows_map {guard : StreamStatus}
    (hrows : table'.rows = table.rows.map (updateRow id guard change)) (key : String) :
    table'.getById key = (table.getById key).map (updateRow id guard change) := by
  have hkey : (fun row : StreamRecord => decide (row.id = key)) ∘ updateRow id guard change =
      fun row => decide (row.id = key) := by
    funext row
    simp [(updateRow_keys id guard change row).1]
  rw [getById, hrows, List.find?_map, hkey]
  rfl

theorem getById_of_rows_map_of_ne {guard : StreamStatus} {key : String} (hne : key ≠ id)
    (hrows : table'.rows = table.rows.map (updateRow id guard change)) :
    table'.getById key = table.getById key := by
  rw [getById_of_rows_map hrows]
  cases hfound : table.getById key with
  | none => rfl
  | some row =>
    have hid : row.id ≠ id := fun h => hne ((getById_eq_some_iff.mp hfound).2.symm.trans h)
    simp [updateRow, hid]

theorem guardedUpdate_cases (table : StreamsTable) (id : String) (guard : StreamStatus)
    (change : UpdateStreamInput) :
    (∃ row table', table.getById id = some row ∧ row.status = guard ∧
      table.guardedUpdate id guard change = .ok (some (assign change row, table')) ∧
      table'.rows = table.rows.map (updateRow id guard change)) ∨
    ((∀ row, table.getById id = some row → row.status ≠ guard) ∧
      table.guardedUpdate id guard change = .ok none) := by
  unfold guardedUpdate
  split
  · rename_i hnone
    refine Or.inr ⟨fun row hfound hstatus => ?_, rfl⟩
    obtain ⟨hmem, hid⟩ := getById_eq_some_iff.mp hfound
    exact absurd (List.find?_eq_none.mp hnone row hmem) (by simp [hid, hstatus])
  · rename_i row hsome
    have hrow : row.id = id ∧ row.status = guard := by simpa using List.find?_some hsome
    have hmem : row ∈ table.rows := List.mem_of_find?_eq_some hsome
    exact Or.inl ⟨row, _, getById_eq_some_iff.mpr ⟨hmem, hrow.1⟩, hrow.2, rfl, rfl⟩

/-- The row an update applies to: it is there, and it may take the status. -/
def updatable (table : StreamsTable) (id : String) (change : UpdateStreamInput) :
    Option StreamRecord :=
  (table.getById id).filter fun row => change.status.all (isValidStatusTransition row.status)

theorem updatable_eq_some_iff : table.updatable id change = some row ↔
    table.getById id = some row ∧
      change.status.all (isValidStatusTransition row.status) = true := by
  rw [updatable, Option.filter_eq_some_iff]

end StreamsTable

theorem StreamsTable.insert_cases (table : StreamsTable) (input : CreateStreamInput) :
    (∃ table', table.insert input = .ok (some (⟨input, .active⟩, table')) ∧
      input.position ∉ table.rows.map StreamRecord.position ∧ table.getById input.id = none ∧
      table'.rows = table.rows ++ [⟨input, .active⟩]) ∨
    ((∀ written, table.insert input ≠ .ok (some written)) ∧
      (input.position ∈ table.rows.map StreamRecord.position ∨
        table.getById input.id ≠ none)) := by
  unfold StreamsTable.insert
  split_ifs with hposition hid
  · exact Or.inr ⟨fun _ h => (by cases h), Or.inl hposition⟩
  · exact Or.inr ⟨fun _ h => (by cases h), Or.inr fun h => getById_eq_none_iff.mp h hid⟩
  · exact Or.inl ⟨_, rfl, hposition, getById_eq_none_iff.mpr hid, rfl⟩

theorem upsertStream_healthy (hhealthy : s.Healthy) (input : CreateStreamInput) :
    (∃ row table s', s.store.insert input = .ok (some (row, table)) ∧
      upsertStream input s = (.ok ⟨true, row⟩, s') ∧ s'.store = table) ∨
    ((∀ written, s.store.insert input ≠ .ok (some written)) ∧
      (upsertStream input s).2.store = s.store) := by
  unfold upsertStream
  rw [execute_bind_healthy hhealthy]
  cases hinsert : s.store.insert input with
  | error => exact Or.inr ⟨fun _ h => (by cases h), rfl⟩
  | ok result =>
    cases result with
    | some written => exact Or.inl ⟨written.1, written.2, _, rfl, rfl, rfl⟩
    | none =>
      refine Or.inr ⟨fun _ h => (by cases h), ?_⟩
      dsimp only
      rw [query_bind_healthy hhealthy.issue]
      cases s.issue.store.getById input.id with
      | some => rfl
      | none =>
        dsimp only
        rw [query_bind_healthy hhealthy.issue.issue]
        cases s.issue.issue.store.getByEvent input.transactionHash input.eventIndex with
        | some | none => rfl

theorem filter_invalid_eq_none_iff {change : UpdateStreamInput} {source : StreamStatus} :
    (change.status.filter fun target => !isValidStatusTransition source target) = none ↔
      change.status.all (isValidStatusTransition source) = true := by
  cases change.status with
  | none => simp
  | some => simp [Option.filter]

theorem updateStream_effect {id : String} {change : UpdateStreamInput} :
    Ensures (updateStream id change) s fun r s' =>
      (∃ row, s.store.updatable id change = some row ∧
        s'.store.rows = s.store.rows.map (StreamsTable.updateRow id row.status change)) ∨
      s'.store = s.store ∧ ∃ message, r = .error message := by
  apply Ensures.query_bind
  · split
    · exact Ensures.fail (Or.inr ⟨rfl, _, rfl⟩)
    · rename_i current hcurrent
      split
      · exact Ensures.fail (Or.inr ⟨rfl, _, rfl⟩)
      · rename_i hvalid
        have hwritten : ∀ returned table,
            s.store.guardedUpdate id current.status change = .ok (some (returned, table)) →
            ∃ row, s.store.updatable id change = some row ∧
              table.rows = s.store.rows.map (StreamsTable.updateRow id row.status change) := by
          intro returned table hupdate
          rcases s.store.guardedUpdate_cases id current.status change with
            ⟨row, table', hfound, hstatus, hanswer, hrows⟩ | ⟨_, hanswer⟩
          · rw [hanswer] at hupdate
            cases hupdate
            refine ⟨current, ?_, hrows⟩
            exact StreamsTable.updatable_eq_some_iff.mpr
              ⟨hcurrent, filter_invalid_eq_none_iff.mp hvalid⟩
          · rw [hanswer] at hupdate
            cases hupdate
        apply Ensures.execute_bind
        · exact fun returned table hupdate =>
            Ensures.pure (Or.inl (hwritten returned table hupdate))
        · exact fun returned table _ hupdate => Or.inl (hwritten returned table hupdate)
        · intro _
          apply Ensures.query_bind
          · split
            · exact Ensures.fail (Or.inr ⟨rfl, _, rfl⟩)
            · exact Ensures.fail (Or.inr ⟨rfl, _, rfl⟩)
          · exact fun _ => Or.inr ⟨rfl, _, rfl⟩
        · exact fun _ => Or.inr ⟨rfl, _, rfl⟩
  · exact fun _ => Or.inr ⟨rfl, _, rfl⟩

theorem updateStream_applies {id : String} {change : UpdateStreamInput} :
    Ensures (updateStream id change) s fun r s' => ∀ result, r = .ok result →
      ∃ row, s.store.updatable id change = some row ∧
        s'.store.rows = s.store.rows.map (StreamsTable.updateRow id row.status change) := by
  intro result hresult
  rcases (updateStream_effect : Ensures (updateStream id change) s _) with
    happlied | ⟨_, message, hfailed⟩
  · exact happlied
  · rw [hfailed] at hresult
    cases hresult

theorem upsertStream_effect :
    Ensures (upsertStream input) s fun _ s' =>
      s'.store.rows = s.store.rows ++ [⟨input, .active⟩] ∨ s'.store = s.store := by
  apply Ensures.execute_bind
  · exact fun row table hinsert => Ensures.pure (Or.inl (StreamsTable.rows_of_insert hinsert))
  · exact fun row table _ hinsert => Or.inl (StreamsTable.rows_of_insert hinsert)
  · intro _
    apply Ensures.query_bind
    · split
      · exact Ensures.pure (Or.inr rfl)
      · apply Ensures.query_bind
        · split
          · exact Ensures.pure (Or.inr rfl)
          · exact Ensures.fail (Or.inr rfl)
        · exact fun _ => Or.inr rfl
    · exact fun _ => Or.inr rfl
  · exact fun _ => Or.inr rfl

theorem updateStream_healthy (hhealthy : s.Healthy) (id : String) (change : UpdateStreamInput) :
    (∃ row s', s.store.updatable id change = some row ∧
      updateStream id change s = (.ok (StreamsTable.assign change row), s') ∧
      s'.store.rows = s.store.rows.map (StreamsTable.updateRow id row.status change)) ∨
    ∃ message s', s.store.updatable id change = none ∧
      updateStream id change s = (.error message, s') ∧ s'.store = s.store := by
  unfold updateStream
  rw [query_bind_healthy hhealthy]
  cases hcurrent : s.store.getById id with
  | none => exact Or.inr ⟨_, _, by rw [StreamsTable.updatable, hcurrent]; rfl, rfl, rfl⟩
  | some current =>
    dsimp only
    cases hinvalid : change.status.filter fun target =>
        !isValidStatusTransition current.status target with
    | some =>
      refine Or.inr ⟨_, _, ?_, rfl, rfl⟩
      rw [StreamsTable.updatable, hcurrent, Option.filter_some, if_neg]
      intro hvalid
      rw [filter_invalid_eq_none_iff.mpr hvalid] at hinvalid
      cases hinvalid
    | none =>
      dsimp only
      rw [execute_bind_healthy hhealthy.issue]
      rcases s.issue.store.guardedUpdate_cases id current.status change with
        ⟨row, table', hfound, _, hanswer, hrows⟩ | ⟨hother, _⟩
      · have hsame : current = row := Option.some.inj (hcurrent.symm.trans hfound)
        rw [hsame] at hinvalid hanswer hrows ⊢
        rw [hanswer]
        refine Or.inl ⟨row, _, ?_, rfl, hrows⟩
        exact StreamsTable.updatable_eq_some_iff.mpr
          ⟨hfound, filter_invalid_eq_none_iff.mp hinvalid⟩
      · exact absurd rfl (hother current hcurrent)

end Fluxora.Streams
