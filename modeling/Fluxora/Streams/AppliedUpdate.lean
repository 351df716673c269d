/-
# Updates that are reported as applied

An update event carries any of four fields. What it carries should be in the row when the event
has been processed, and nothing else should have changed. The handler takes a field along only
when its value is truthy: an end time of zero, which stands for a stream without an end, and an
empty amount are dropped, and the event is reported as applied or ignored all the same.
-/

import Fluxora.Streams.EventService
import Fluxora.Streams.UpdateStatement

namespace Fluxora.Streams

open Lib Lib.Statements

variable {event : StreamUpdatedEvent} {row : StreamRecord} {s : Session StreamsTable}

/-! ## What the event says -/

/-- The row with every field that the event carries. -/
def StreamUpdatedEvent.carried (event : StreamUpdatedEvent) (row : StreamRecord) :
    StreamRecord :=
  { row with
    status := event.status.getD row.status
    streamedAmount := event.streamedAmount.getD row.streamedAmount
    remainingAmount := event.remainingAmount.getD row.remainingAmount
    endTime := event.endTime.getD row.endTime }

/-- A falsy field of the event is what the row has already. -/
structure StreamUpdatedEvent.NothingDropped (event : StreamUpdatedEvent) (row : StreamRecord) :
    Prop where
  streamedAmount : event.streamedAmount = some "" → row.streamedAmount = ""
  remainingAmount : event.remainingAmount = some "" → row.remainingAmount = ""
  endTime : event.endTime = some 0 → row.endTime = 0

theorem getD_filter_eq_iff {α : Type} [DecidableEq α] {falsy stored : α} {carried : Option α} :
    (carried.filter (· ≠ falsy)).getD stored = carried.getD stored ↔
      (carried = some falsy → stored = falsy) := by
  cases carried with
  | none => simp
  | some value =>
    by_cases hfalsy : value = falsy
    · simp [Option.filter, hfalsy]
    · simp [Option.filter, hfalsy]

theorem assign_update_eq_carried_iff :
    StreamsTable.assign event.update row = event.carried row ↔ event.NothingDropped row := by
  have hfields : StreamsTable.assign event.update row = event.carried row ↔
      event.update.streamedAmount.getD row.streamedAmount =
          event.streamedAmount.getD row.streamedAmount ∧
        event.update.remainingAmount.getD row.remainingAmount =
          event.remainingAmount.getD row.remainingAmount ∧
        event.update.endTime.getD row.endTime = event.endTime.getD row.endTime := by
    simp [StreamsTable.assign, StreamUpdatedEvent.carried, StreamUpdatedEvent.update]
  rw [hfields]
  simp only [StreamUpdatedEvent.update, getD_filter_eq_iff]
  apply Iff.intro
  · rintro ⟨hstreamed, hremaining, hend⟩
    exact ⟨hstreamed, hremaining, hend⟩
  · rintro ⟨hstreamed, hremaining, hend⟩
    exact ⟨hstreamed, hremaining, hend⟩

/-! ## What the handler does -/

theorem map_updateRow_nothing (id : String) (guard : StreamStatus) (rows : List StreamRecord) :
    rows.map (StreamsTable.updateRow id guard {}) = rows := by
  have hrow : StreamsTable.updateRow id guard {} = fun row => row := by
    funext row
    simp [StreamsTable.updateRow, StreamsTable.assign]
  rw [hrow, List.map_id']

/-- The fields that count have been assigned to the row. -/
def Applied (event : StreamUpdatedEvent) (before after : StreamsTable) : Prop :=
  ∃ row, before.updatable event.streamId event.update = some row ∧
    after.rows = before.rows.map
      (StreamsTable.updateRow event.streamId row.status event.update)

theorem updatable_of_update_empty {table : StreamsTable} (hempty : event.update = {})
    (hfound : table.getById event.streamId = some row) :
    table.updatable event.streamId event.update = some row := by
  rw [hempty]
  exact StreamsTable.updatable_eq_some_iff.mpr ⟨hfound, rfl⟩

theorem program_applied (event : StreamUpdatedEvent) (s : Session StreamsTable) :
    Ensures event.program s fun r s' => ∀ result, r = .ok result →
      result.success = true → Applied event s.store s'.store := by
  apply Ensures.query_bind
  · split
    · -- the stream is not there, and that is not a success
      apply Ensures.pure
      intro _ hresult hsuccess
      cases hresult
      cases hsuccess
    · rename_i row hfound
      split_ifs with hempty
      · apply Ensures.pure
        intro _ _ _
        refine ⟨row, updatable_of_update_empty hempty hfound, ?_⟩
        rw [hempty, map_updateRow_nothing]
        rfl
      · apply Ensures.bind updateStream_applies
        · intro updated s' happlies
          apply Ensures.pure
          intro _ _ _
          exact happlies updated rfl
        · intro message s' _ _ hresult
          cases hresult
  · intro message _ hresult
    cases hresult

theorem program_succeeds (hhealthy : s.Healthy)
    (hrow : s.store.updatable event.streamId event.update = some row) :
    ∃ result s', event.program s = (.ok result, s') ∧ result.success = true := by
  have hfound := (StreamsTable.updatable_eq_some_iff.mp hrow).1
  unfold StreamUpdatedEvent.program
  rw [query_bind_healthy hhealthy, hfound]
  by_cases hempty : event.update = {}
  · simp only [hempty, if_true]
    exact ⟨_, _, rfl, rfl⟩
  · simp only [hempty, if_false]
    rcases updateStream_healthy hhealthy.issue event.streamId event.update with
      ⟨_, s', _, hanswer, _⟩ | ⟨_, _, hnone, _⟩
    · refine ⟨⟨event.eventId, event.streamId, .updated, true, none⟩, s', ?_, rfl⟩
      simp only [Bind.bind, hanswer]
      rfl
    · exact absurd (hnone.symm.trans hrow) (Option.some_ne_none row).symm

/-! ## Faithful reports -/

/-- An update event that is not known yet and that is reported as successful has been
carried out: the row has every value the event carries and is otherwise as before, and
so are the other rows. -/
def AppliedFaithfully (table : StreamsTable) (event : StreamUpdatedEvent) : Prop :=
  ∀ (now : ℕ) (cache : InMemoryDedupCache) (outcomes : List Outcome),
    cache.isLive now (InMemoryDedupCache.cacheKey event.streamId event.eventId) = false →
    (processStreamUpdated event now cache (Session.start table outcomes)).1.success = true →
    ∃ row, table.getById event.streamId = some row ∧
      ∀ id, (processStreamUpdated event now cache (Session.start table outcomes)).2.2.store.getById
        id = if id = event.streamId then some (event.carried row) else table.getById id

theorem Applied.getById {before after : StreamsTable} (h : Applied event before after) :
    ∃ row, before.updatable event.streamId event.update = some row ∧
      ∀ id, after.getById id =
        if id = event.streamId then some (StreamsTable.assign event.update row)
        else before.getById id := by
  obtain ⟨row, hrow, hrows⟩ := h
  have hfound := (StreamsTable.updatable_eq_some_iff.mp hrow).1
  refine ⟨row, hrow, fun id => ?_⟩
  split_ifs with hid
  · rw [StreamsTable.getById_of_rows_map hrows, hid, hfound, Option.map_some,
      StreamsTable.updateRow, if_pos ⟨(StreamsTable.getById_eq_some_iff.mp hfound).2, rfl⟩]
  · exact StreamsTable.getById_of_rows_map_of_ne hid hrows

variable {cache : InMemoryDedupCache}

theorem processOnce_of_not_live {eventId streamId : String} {now : ℕ}
    (failure : String → EventIngestionResult) (program : Program StreamsTable EventIngestionResult)
    (s : Session StreamsTable)
    (hnew : cache.isLive now (InMemoryDedupCache.cacheKey streamId eventId) = false) :
    ∃ cache', processOnce eventId streamId failure program now cache s =
      match program s with
      | (.ok result, s') => (result, cache', s')
      | (.error message, s') => (failure message, cache', s') := by
  have hadded := cache.add_fst now streamId eventId
  rw [hnew] at hadded
  cases hadd : cache.add now streamId eventId with
  | mk _ cache' =>
    rw [hadd] at hadded
    cases hadded
    refine ⟨cache', ?_⟩
    cases hrun : program s with
    | mk result =>
      cases result with
      | ok | error => simp only [processOnce, hadd, hrun]

theorem processStreamUpdated_applied {now : ℕ}
    (hnew : cache.isLive now (InMemoryDedupCache.cacheKey event.streamId event.eventId) = false)
    (hsuccess : (processStreamUpdated event now cache s).1.success = true) :
    Applied event s.store (processStreamUpdated event now cache s).2.2.store := by
  obtain ⟨cache', hprocess⟩ := processOnce_of_not_live event.failure event.program s hnew
  have happlied := program_applied event s
  unfold Ensures at happlied
  rw [processStreamUpdated, hprocess] at hsuccess ⊢
  cases hrun : event.program s with
  | mk r =>
    rw [hrun] at happlied hsuccess
    cases r with
    | ok result => exact happlied result rfl hsuccess
    | error => cases hsuccess

/-- Reports of updates are faithful exactly when, of a stream that is there and may take
the status, no falsy field of the event differs from the row; and the statement that is
sent means the guarded update, whatever fields and keys there are. -/
theorem appliedFaithfully_iff (table : StreamsTable) (event : StreamUpdatedEvent) :
    (∀ id input current keySet,
      (updateStatement id input current keySet).run table =
        table.guardedUpdate id current input) ∧
    (AppliedFaithfully table event ↔
      ∀ row, table.getById event.streamId = some row →
        event.status.all (isValidStatusTransition row.status) = true →
        event.NothingDropped row) := by
  refine ⟨fun id input current keySet => run_updateStatement id input current keySet table, ?_⟩
  apply Iff.intro
  · intro hfaithful row hfound hvalid
    have hrow : table.updatable event.streamId event.update = some row :=
      StreamsTable.updatable_eq_some_iff.mpr ⟨hfound, hvalid⟩
    have hnew : (⟨[], 0⟩ : InMemoryDedupCache).isLive 0
        (InMemoryDedupCache.cacheKey event.streamId event.eventId) = false := rfl
    -- a first delivery over a healthy connection is reported as a success
    have hsuccess : (processStreamUpdated event 0 ⟨[], 0⟩ (Session.start table [])).1.success =
        true := by
      obtain ⟨cache', hprocess⟩ := processOnce_of_not_live event.failure event.program
        (Session.start table []) hnew
      obtain ⟨result, s', hrun, hresult⟩ := program_succeeds (s := Session.start table []) rfl hrow
      rw [processStreamUpdated, hprocess, hrun]
      exact hresult
    obtain ⟨row', hfound', hafter⟩ := hfaithful 0 ⟨[], 0⟩ [] hnew hsuccess
    obtain ⟨row'', hrow'', hafter'⟩ := (processStreamUpdated_applied hnew hsuccess).getById
    cases hfound.symm.trans hfound'
    cases hrow.symm.trans hrow''
    have hsame := (hafter' event.streamId).symm.trans (hafter event.streamId)
    rw [if_pos rfl, if_pos rfl] at hsame
    exact assign_update_eq_carried_iff.mp (Option.some.inj hsame)
  · intro hdropped now cache outcomes hnew hsuccess
    obtain ⟨row, hrow, hafter⟩ := (processStreamUpdated_applied hnew hsuccess).getById
    obtain ⟨hfound, hvalid⟩ := StreamsTable.updatable_eq_some_iff.mp hrow
    refine ⟨row, hfound, fun id => ?_⟩
    rw [hafter id, assign_update_eq_carried_iff.mpr (hdropped row hfound hvalid)]
    rfl

/-- An event that takes the end of a stream away is reported as processed, and the stream
still ends at ten. -/
theorem appliedFaithfully_fails :
    ¬ AppliedFaithfully (.single streamSample)
      ⟨"C", ⟨"cd", rfl⟩, 1, "ab-0", none, none, none, some 0⟩ := by
  intro hfaithful
  obtain ⟨row, hfound, hafter⟩ := hfaithful 0 ⟨[], 0⟩ [] rfl rfl
  cases hfound
  have hrow := hafter "ab-0"
  exact absurd (congrArg (Option.map (·.endTime)) hrow) (by decide)

end Fluxora.Streams
