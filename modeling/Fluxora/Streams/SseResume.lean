/-
# Resuming a stream of updates

A client that comes back names the last event it has seen. The stored events after it are read a
page at a time, ten pages at most, and those of the stream are sent. Then the live subscription is
installed, and from there on an event is sent when it is emitted.

Events are stored and emitted while the pages are read, and nothing looks back at them: what is
emitted before the subscription is sent only if a page that is still to be read holds it, what
lies beyond the last page is not sent at all, and a failed read is followed by the subscription as
if everything had been read.
-/

import Fluxora.Indexer.EventPaging
import Fluxora.Lib.StableSort
import Fluxora.Lib.Transition
import Fluxora.Streams.EventService

namespace Fluxora.Streams

open Lib Lib.Paging Lib.StableSort Lib.Transition Indexer

/-! ## The connection -/

def replayMaxPages : ℕ := 10

def replayPageSize : ℕ := 100

def eventMatchesStreamId (event : StreamEventRecord) (streamId : String) : Bool :=
  deriveStreamId event.txHash event.eventIndex = streamId

/-- What is written to the response. -/
inductive SseFrame
  | update (event : StreamEventRecord)
  | error (code message : String)

def SseFrame.event? : SseFrame → Option StreamEventRecord
  | .update event => some event
  | .error _ _ => none

def staleCursorFrame : SseFrame :=
  .error "STALE_CURSOR" "Replay cursor no longer exists; resync from fromLedger"

/-- Where the handler is. -/
inductive SsePhase
  | replaying (cursor : String) (pagesRead : ℕ)
  | subscribing
  | live
  | ended
  deriving DecidableEq

/-- The event store and a connection to a stream, with the events that are due to the
client. -/
structure SseSystem where
  store : InMemoryContractEventStore
  phase : SsePhase
  written : List SseFrame
  due : List StreamEventRecord

def SseSystem.storedIds (s : SseSystem) : List String := s.store.records.map StoredEvent.key

/-- Events are stored, removed by a reorg and emitted at any time. The handler reads a page,
fails to, or installs the subscription. -/
inductive SseLabel
  | ingest (now : ℤ) (events : List ContractEventRecord)
  | rollback (forkLedger : ℕ)
  | emit (event : StreamEventRecord)
  | page
  | readFails
  | subscribe

/-- The stream of a connection, the last event the client has seen, the stream that an event
is about and is emitted under, and the order of texts of the store. -/
structure SseConnection where
  id : String
  lastSeen : StreamEventRecord
  streamOf : StreamEventRecord → String
  localeCompare : Collation

namespace SseConnection

variable (conn : SseConnection)

/-- The stored events after a cursor. -/
def ahead (store : InMemoryContractEventStore) (cursor : String) : List StoredEvent :=
  (after StoredEvent.key cursor (store.sorted conn.localeCompare)).getD []

/-- The order of the events of a stream. -/
def InOrder (a b : StreamEventRecord) : Prop :=
  a.ledger < b.ledger ∨ a.ledger = b.ledger ∧ conn.localeCompare.le a.eventId b.eventId

instance : DecidableRel conn.InOrder := fun _ _ => instDecidableOr

/-- An event of the stream after the last one the client has seen. -/
def IsDue (event : StreamEventRecord) : Prop :=
  conn.streamOf event = conn.id ∧ conn.InOrder conn.lastSeen event ∧
    event.eventId ≠ conn.lastSeen.eventId

instance : DecidablePred conn.IsDue := fun _ => instDecidableAnd

def delivered (s : SseSystem) : List StreamEventRecord :=
  (s.written.filterMap SseFrame.event?).filter conn.IsDue

def deliveredIds (s : SseSystem) : List String :=
  (conn.delivered s).map StreamEventRecord.eventId

/-- The stored events of the stream after the last one that the client has seen are due. -/
def opened (store : InMemoryContractEventStore) : SseSystem where
  store := store
  phase := .replaying conn.lastSeen.eventId 0
  written := []
  due := ((conn.ahead store conn.lastSeen.eventId).map StoredEvent.returned).filter
    fun event => conn.streamOf event = conn.id

/-- The loop goes on while there is a cursor and pages are left. -/
def afterPage (nextCursor : Option String) (pagesRead : ℕ) : SsePhase :=
  match nextCursor with
  | some cursor =>
    if pagesRead + 1 < replayMaxPages then .replaying cursor (pagesRead + 1)
    else .subscribing
  | none => .subscribing

/-- One round of the replay loop. Only a stale cursor ends the connection. -/
def readPage (s : SseSystem) (cursor : String) (pagesRead : ℕ) : SseSystem :=
  match s.store.getEvents conn.localeCompare
      { limit := some replayPageSize, afterEventId := some cursor } with
  | .ok result =>
    { s with
      phase := afterPage result.nextCursor pagesRead
      written := s.written ++
        (result.events.filter (eventMatchesStreamId · conn.id)).map SseFrame.update }
  | .error (.staleCursor _) =>
    { s with phase := .ended, written := s.written ++ [staleCursorFrame] }
  | .error (.rowMapping _) => { s with phase := .subscribing }

/-- An event of the stream is sent when it is emitted to a connection that is live. -/
def emitted (s : SseSystem) (event : StreamEventRecord) : SseSystem :=
  { s with
    due := if conn.IsDue event then s.due ++ [event] else s.due
    written :=
      if conn.streamOf event = conn.id ∧ s.phase = .live then s.written ++ [.update event]
      else s.written }

def step (s : SseSystem) : SseLabel → Option SseSystem
  | .ingest now events => some { s with store := (s.store.insertMany now events).1 }
  | .rollback forkLedger => some { s with store := s.store.rollbackBeforeLedger forkLedger }
  | .emit event => some (conn.emitted s event)
  | .page =>
    match s.phase with
    | .replaying cursor pagesRead => some (conn.readPage s cursor pagesRead)
    | _ => none
  | .readFails =>
    match s.phase with
    | .replaying _ _ => some { s with phase := .subscribing }
    | _ => none
  | .subscribe => if s.phase = .subscribing then some { s with phase := .live } else none

/-! ## What is promised -/

/-- Every due event is delivered once and in order when the connection is live, or the
connection has ended with an error. -/
structure GapFree (s : SseSystem) : Prop where
  inOrder : (conn.delivered s).Pairwise conn.InOrder
  once : (conn.deliveredIds s).Nodup
  complete : s.phase = .live → ∀ event ∈ s.due, event.eventId ∈ conn.deliveredIds s
  ended : s.phase = .ended → s.written.getLast? = some staleCursorFrame

/-- At most so many steps of the handler make the connection live or end it. -/
def SettlesWithin (count : ℕ) (s : SseSystem) : Prop :=
  ∃ labels s', labels.length ≤ count ∧ (∀ label ∈ labels, label = .page ∨ label = .subscribe) ∧
    run conn.step s labels = some s' ∧ (s'.phase = .live ∨ s'.phase = .ended)

/-! ## What the handler overlooks -/

/-- A batch stored during the replay does not bring back the event under the cursor, and
what it stores of the due events comes after the cursor. -/
structure IngestAllowed (s : SseSystem) (cursor : String)
    (store : InMemoryContractEventStore) : Prop where
  cursorStays : cursor ∈ store.records.map StoredEvent.key → cursor ∈ s.storedIds
  isAhead : cursor ∈ s.storedIds → ∀ event ∈ s.due,
    event.eventId ∈ store.records.map StoredEvent.key → event.eventId ∈ s.storedIds ∨
      event.eventId ∈ (conn.ahead store cursor).map StoredEvent.key

/-- An event that is emitted before the subscription has been sent or will be read, and one
that is emitted later is new and comes after what has been sent. -/
def EmitAllowed (s : SseSystem) (event : StreamEventRecord) : Prop :=
  match s.phase with
  | .replaying cursor _ =>
    cursor ∈ s.storedIds → event.eventId ∈ s.storedIds →
      event.eventId ∈ conn.deliveredIds s ∨
        event.eventId ∈ (conn.ahead s.store cursor).map StoredEvent.key
  | .subscribing => event.eventId ∈ conn.deliveredIds s
  | .live =>
    event.eventId ∉ conn.deliveredIds s ∧ ∀ other ∈ conn.delivered s, conn.InOrder other event
  | .ended => True

/-- The due events on a page are recognised as events of the stream, and no due event is
left when the page is the last one. -/
structure PageAllowed (s : SseSystem) (cursor : String) (pagesRead : ℕ) : Prop where
  recognised : ∀ record ∈ (conn.ahead s.store cursor).take replayPageSize,
    record.key ∈ s.due.map StreamEventRecord.eventId →
      eventMatchesStreamId record.returned conn.id = true ∧ conn.IsDue record.returned
  lastPage : cursor ∈ s.storedIds →
    (¬ pagesRead + 1 < replayMaxPages ∨ (conn.ahead s.store cursor).length ≤ replayPageSize) →
      ∀ event ∈ s.due, event.eventId ∈ conn.deliveredIds s ∨
        event.eventId ∈ ((conn.ahead s.store cursor).take replayPageSize).map StoredEvent.key

/-- The steps at which nothing is overlooked. -/
def StepAllowed (s : SseSystem) : SseLabel → Prop
  | .ingest now events => ∀ cursor pagesRead, s.phase = .replaying cursor pagesRead →
      conn.IngestAllowed s cursor (s.store.insertMany now events).1
  | .rollback _ => True
  | .emit event => conn.IsDue event → conn.EmitAllowed s event
  | .page => ∀ cursor pagesRead, s.phase = .replaying cursor pagesRead →
      conn.PageAllowed s cursor pagesRead
  | .readFails => ∀ event ∈ s.due, event.eventId ∈ conn.deliveredIds s
  | .subscribe => True

/-! ## The sorted store -/

variable {conn} {store : InMemoryContractEventStore} {s : SseSystem} {cursor : String}
  {front rest : List StoredEvent} {row : StoredEvent} {s' : SseSystem} {pagesRead : ℕ}

theorem nodup_sorted (localeCompare : Collation) (store : InMemoryContractEventStore) :
    ((store.sorted localeCompare).map StoredEvent.key).Nodup :=
  ((store.sorted_perm localeCompare).map _).nodup_iff.mpr store.nodup

theorem mem_map_key_sorted {localeCompare : Collation} :
    cursor ∈ (store.sorted localeCompare).map StoredEvent.key ↔
      cursor ∈ store.records.map StoredEvent.key :=
  ((store.sorted_perm localeCompare).map _).mem_iff

theorem after_of_sorted (hsorted : store.sorted conn.localeCompare = front ++ row :: rest) :
    after StoredEvent.key row.key (store.sorted conn.localeCompare) = some rest := by
  have hnodup := nodup_sorted conn.localeCompare store
  rw [hsorted] at hnodup ⊢
  exact after_append_cons StoredEvent.key hnodup

theorem ahead_of_sorted (hsorted : store.sorted conn.localeCompare = front ++ row :: rest) :
    conn.ahead store row.key = rest := by
  rw [ahead, after_of_sorted hsorted, Option.getD_some]

theorem pairwise_returned {records : List StoredEvent}
    (hsub : records.Sublist (store.sorted conn.localeCompare)) :
    (records.map StoredEvent.returned).Pairwise conn.InOrder :=
  List.pairwise_map.mpr ((store.sorted_pairwise conn.localeCompare).sublist hsub)

theorem nodup_returned {records : List StoredEvent}
    (hsub : records.Sublist (store.sorted conn.localeCompare)) :
    ((records.map StoredEvent.returned).map StreamEventRecord.eventId).Nodup := by
  rw [List.map_map]
  exact (nodup_sorted conn.localeCompare store).sublist (hsub.map _)

/-! ## Reading a page -/

theorem readPage_of_not_stored (habsent : cursor ∉ s.storedIds) (pagesRead : ℕ) :
    conn.readPage s cursor pagesRead =
      { s with phase := .ended, written := s.written ++ [staleCursorFrame] } := by
  have hafter : after StoredEvent.key cursor (s.store.sorted conn.localeCompare) = none :=
    after_eq_none _ fun hmem => habsent (mem_map_key_sorted.mp hmem)
  simp only [readPage, InMemoryContractEventStore.getEvents, hafter]

/-- The cursor after a page of the events that are left. -/
def nextOf (rest : List StoredEvent) : Option String :=
  if replayPageSize < rest.length then (rest.take replayPageSize).getLast?.map StoredEvent.key
  else none

theorem readPage_of_sorted
    (hsorted : s.store.sorted conn.localeCompare = front ++ row :: rest) (pagesRead : ℕ) :
    conn.readPage s row.key pagesRead =
      { s with
        phase := afterPage (nextOf rest) pagesRead
        written := s.written ++
          (((rest.take replayPageSize).map StoredEvent.returned).filter
            (eventMatchesStreamId · conn.id)).map SseFrame.update } := by
  have hall : rest.filter (StreamEventReplayFilter.admits
      { limit := some replayPageSize, afterEventId := some row.key }) = rest :=
    List.filter_eq_self.mpr fun _ _ => rfl
  have hlimit : StreamEventReplayFilter.pageLimit
      { limit := some replayPageSize, afterEventId := some row.key } = replayPageSize := rfl
  have hnext : (if (rest.take replayPageSize).length = replayPageSize ∧
      replayPageSize < rest.length then
        (rest.take replayPageSize).getLast?.map StoredEvent.key else none) = nextOf rest := by
    by_cases hmore : replayPageSize < rest.length
    · have hfull : (rest.take replayPageSize).length = replayPageSize :=
        List.length_take_of_le (Nat.le_of_lt hmore)
      rw [nextOf, if_pos hmore, if_pos ⟨hfull, hmore⟩]
    · rw [nextOf, if_neg hmore, if_neg fun h => hmore h.2]
  simp only [readPage, InMemoryContractEventStore.getEvents, after_of_sorted hsorted,
    InMemoryContractEventStore.resultOf, hall, hlimit, List.drop_zero, hnext]

theorem afterPage_spec (nextCursor : Option String) (pagesRead : ℕ) :
    (∃ cursor, nextCursor = some cursor ∧
      afterPage nextCursor pagesRead = .replaying cursor (pagesRead + 1) ∧
      pagesRead + 1 < replayMaxPages) ∨
    ((nextCursor = none ∨ ¬ pagesRead + 1 < replayMaxPages) ∧
      afterPage nextCursor pagesRead = .subscribing) := by
  cases nextCursor with
  | none => exact Or.inr ⟨Or.inl rfl, rfl⟩
  | some cursor =>
    by_cases hbudget : pagesRead + 1 < replayMaxPages
    · exact Or.inl ⟨cursor, rfl, if_pos hbudget, hbudget⟩
    · exact Or.inr ⟨Or.inr hbudget, if_neg hbudget⟩

theorem length_le_of_nextOf_eq_none (hnext : nextOf rest = none) :
    rest.length ≤ replayPageSize := by
  by_contra hmore
  rw [not_le] at hmore
  rw [nextOf, if_pos hmore, Option.map_eq_none_iff, List.getLast?_eq_none_iff,
    List.take_eq_nil_iff] at hnext
  rcases hnext with hzero | hnil
  · exact absurd hzero (by decide)
  · rw [hnil] at hmore
    exact absurd hmore (Nat.not_lt_zero _)

theorem cut_of_nextOf (hnext : nextOf rest = some cursor) :
    ∃ taken last, rest.take replayPageSize = taken ++ [last] ∧ last.key = cursor ∧
      rest = taken ++ last :: rest.drop replayPageSize := by
  rw [nextOf] at hnext
  split_ifs at hnext with hmore
  obtain ⟨last, hlast, hkey⟩ := Option.map_eq_some_iff.mp hnext
  obtain ⟨taken, htaken⟩ := List.getLast?_eq_some_iff.mp hlast
  refine ⟨taken, last, htaken, hkey, ?_⟩
  calc rest
      = rest.take replayPageSize ++ rest.drop replayPageSize := (List.take_append_drop ..).symm
    _ = taken ++ last :: rest.drop replayPageSize := by
        rw [htaken, List.append_assoc, List.singleton_append]

/-! ## The invariant -/

/-- What has been sent comes from before the cursor or is the event under it. Every due
event has been sent, is ahead of the cursor or is not stored. -/
def ReadUpTo (conn : SseConnection) (s : SseSystem) (cursor : String) : Prop :=
  ∃ front row rest, s.store.sorted conn.localeCompare = front ++ row :: rest ∧
    row.key = cursor ∧ (conn.delivered s).Sublist ((front ++ [row]).map StoredEvent.returned) ∧
    ∀ event ∈ s.due, event.eventId ∈ conn.deliveredIds s ∨
      event.eventId ∈ rest.map StoredEvent.key ∨ event.eventId ∉ s.storedIds

structure ResumeInv (conn : SseConnection) (s : SseSystem) : Prop where
  inOrder : (conn.delivered s).Pairwise conn.InOrder
  once : (conn.deliveredIds s).Nodup
  replaying : ∀ cursor pagesRead, s.phase = .replaying cursor pagesRead →
    cursor ∈ s.storedIds → conn.ReadUpTo s cursor
  complete : s.phase = .subscribing ∨ s.phase = .live →
    ∀ event ∈ s.due, event.eventId ∈ conn.deliveredIds s
  ended : s.phase = .ended → s.written.getLast? = some staleCursorFrame

theorem ResumeInv.gapFree (h : conn.ResumeInv s) : conn.GapFree s :=
  ⟨h.inOrder, h.once, fun hlive => h.complete (Or.inr hlive), h.ended⟩

theorem resumeInv_opened (conn : SseConnection) (store : InMemoryContractEventStore) :
    conn.ResumeInv (conn.opened store) where
  inOrder := List.Pairwise.nil
  once := List.nodup_nil
  replaying cursor pagesRead hphase hstored := by
    cases hphase
    obtain ⟨row, hrow, hkey⟩ := List.mem_map.mp (mem_map_key_sorted.mpr hstored)
    obtain ⟨front, rest, hsorted⟩ := List.append_of_mem hrow
    refine ⟨front, row, rest, hsorted, hkey, List.nil_sublist _, fun event hevent => ?_⟩
    obtain ⟨record, hrecord, rfl⟩ := List.mem_map.mp (List.mem_of_mem_filter hevent)
    have hahead : conn.ahead store conn.lastSeen.eventId = rest := hkey ▸ ahead_of_sorted hsorted
    rw [hahead] at hrecord
    exact Or.inr (Or.inl (List.mem_map_of_mem hrecord))
  complete hphase := by rcases hphase with h | h <;> cases h
  ended hphase := by cases hphase

/-! ## The store changes -/

theorem eq_of_key {a b : StoredEvent} (ha : a ∈ store.records) (hb : b ∈ store.records)
    (hkey : a.key = b.key) : a = b :=
  List.inj_on_of_nodup_map store.nodup ha hb hkey

theorem ResumeInv.ingest (h : conn.ResumeInv s) {now : ℤ} {events : List ContractEventRecord}
    (hallowed : ∀ cursor pagesRead, s.phase = .replaying cursor pagesRead →
      conn.IngestAllowed s cursor (s.store.insertMany now events).1) :
    conn.ResumeInv { s with store := (s.store.insertMany now events).1 } where
  inOrder := h.inOrder
  once := h.once
  complete := h.complete
  ended := h.ended
  replaying cursor pagesRead hphase hstored' := by
    have hbatch := hallowed cursor pagesRead hphase
    have hstored := hbatch.cursorStays hstored'
    obtain ⟨front, row, rest, hsorted, rfl, hdelivered, hdue⟩ :=
      h.replaying cursor pagesRead hphase hstored
    have hgrows : (s.store.sorted conn.localeCompare).Sublist
        ((s.store.insertMany now events).1.sorted conn.localeCompare) :=
      sublist_insertionSort_of_sublist (List.sublist_append_left _ _)
    rw [hsorted] at hgrows
    obtain ⟨front', rest', hsorted', hfront, hrest⟩ := exists_cut_of_sublist hgrows
    refine ⟨front', row, rest', hsorted', rfl,
      hdelivered.trans ((hfront.append_right _).map _), fun event hevent => ?_⟩
    rcases hdue event hevent with hsent | hleft | hmissing
    · exact Or.inl hsent
    · exact Or.inr (Or.inl ((hrest.map _).subset hleft))
    · by_cases hnow : event.eventId ∈
          (s.store.insertMany now events).1.records.map StoredEvent.key
      · have hahead := (hbatch.isAhead hstored event hevent hnow).resolve_left hmissing
        rw [ahead_of_sorted hsorted'] at hahead
        exact Or.inr (Or.inl hahead)
      · exact Or.inr (Or.inr hnow)

theorem ledger_lt_of_kept {record : StoredEvent} {forkLedger : ℕ} (hmem : record ∈ store.records)
    (hkept : record.key ∈ (store.rollbackBeforeLedger forkLedger).records.map StoredEvent.key) :
    record.ledger < forkLedger := by
  obtain ⟨other, hother, hkey⟩ := List.mem_map.mp hkept
  obtain ⟨hstored, hbelow⟩ := InMemoryContractEventStore.mem_rollbackBeforeLedger.mp hother
  exact eq_of_key hstored hmem hkey ▸ hbelow

theorem sorted_rollbackBeforeLedger {forkLedger : ℕ}
    (hsorted : store.sorted conn.localeCompare = front ++ row :: rest)
    (hbelow : row.ledger < forkLedger) :
    (store.rollbackBeforeLedger forkLedger).sorted conn.localeCompare =
      front ++ row :: rest.filter (·.ledger < forkLedger) := by
  have hordered := store.sorted_pairwise conn.localeCompare
  rw [hsorted] at hordered
  have hfront : front.filter (fun r => decide (r.ledger < forkLedger)) = front := by
    rw [List.filter_eq_self]
    intro record hrecord
    rw [decide_eq_true_iff]
    rcases (List.pairwise_append.mp hordered).2.2 record hrecord row List.mem_cons_self with
      hlt | ⟨heq, _⟩
    · exact Nat.lt_trans hlt hbelow
    · exact heq ▸ hbelow
  have hrow : decide (row.ledger < forkLedger) = true := decide_eq_true hbelow
  calc (store.rollbackBeforeLedger forkLedger).sorted conn.localeCompare
      = (store.sorted conn.localeCompare).filter (fun r => decide (r.ledger < forkLedger)) :=
        (filter_insertionSort store.records).symm
    _ = front ++ row :: rest.filter (fun r => decide (r.ledger < forkLedger)) := by
        rw [hsorted, List.filter_append, hfront]
        simp only [List.filter_cons, hrow, if_true]

theorem ResumeInv.rollback (h : conn.ResumeInv s) (forkLedger : ℕ) :
    conn.ResumeInv { s with store := s.store.rollbackBeforeLedger forkLedger } where
  inOrder := h.inOrder
  once := h.once
  complete := h.complete
  ended := h.ended
  replaying cursor pagesRead hphase hstored' := by
    have hsub : ∀ {id}, id ∈ (s.store.rollbackBeforeLedger forkLedger).records.map
        StoredEvent.key → id ∈ s.storedIds :=
      fun hid => (List.filter_sublist.map StoredEvent.key).subset hid
    obtain ⟨front, row, rest, hsorted, rfl, hdelivered, hdue⟩ :=
      h.replaying cursor pagesRead hphase (hsub hstored')
    have hmem : ∀ {record}, record ∈ front ++ row :: rest → record ∈ s.store.records := by
      intro record hrecord
      rw [← hsorted] at hrecord
      exact (s.store.sorted_perm conn.localeCompare).mem_iff.mp hrecord
    have hbelow : row.ledger < forkLedger :=
      ledger_lt_of_kept (hmem (List.mem_append_right _ List.mem_cons_self)) hstored'
    refine ⟨front, row, _, sorted_rollbackBeforeLedger hsorted hbelow, rfl, hdelivered,
      fun event hevent => ?_⟩
    rcases hdue event hevent with hsent | hleft | hmissing
    · exact Or.inl hsent
    · by_cases hstill : event.eventId ∈
          (s.store.rollbackBeforeLedger forkLedger).records.map StoredEvent.key
      · obtain ⟨record, hrecord, hid⟩ := List.mem_map.mp hleft
        rw [← hid] at hstill ⊢
        have hkept := ledger_lt_of_kept
          (hmem (List.mem_append_right _ (List.mem_cons_of_mem _ hrecord))) hstill
        exact Or.inr (Or.inl (List.mem_map_of_mem
          (List.mem_filter.mpr ⟨hrecord, decide_eq_true hkept⟩)))
      · exact Or.inr (Or.inr hstill)
    · exact Or.inr (Or.inr fun hstill => hmissing (hsub hstill))

/-! ## An event is emitted -/

theorem delivered_append (frames : List SseFrame) (hwritten : s'.written = s.written ++ frames) :
    conn.delivered s' =
      conn.delivered s ++ (frames.filterMap SseFrame.event?).filter conn.IsDue := by
  rw [delivered, hwritten, List.filterMap_append, List.filter_append]
  rfl

theorem ResumeInv.emit_other (h : conn.ResumeInv s) {event : StreamEventRecord}
    (hdue : ¬ conn.IsDue event) : conn.ResumeInv (conn.emitted s event) := by
  have hsame : (conn.emitted s event).due = s.due := if_neg hdue
  have hdelivered : conn.delivered (conn.emitted s event) = conn.delivered s := by
    by_cases hsent : conn.streamOf event = conn.id ∧ s.phase = .live
    · have hnone : [event].filter conn.IsDue = [] :=
        List.filter_cons_of_neg (by rw [decide_eq_true_iff]; exact hdue)
      rw [delivered_append [.update event] (if_pos hsent)]
      exact (congrArg (conn.delivered s ++ ·) hnone).trans (List.append_nil _)
    · rw [delivered_append [] ((if_neg hsent).trans (List.append_nil _).symm)]
      exact List.append_nil _
  have hids : conn.deliveredIds (conn.emitted s event) = conn.deliveredIds s :=
    congrArg (List.map StreamEventRecord.eventId) hdelivered
  constructor
  case inOrder =>
    rw [hdelivered]
    exact h.inOrder
  case once =>
    rw [hids]
    exact h.once
  case replaying =>
    intro cursor pagesRead hphase hstored
    obtain ⟨front, row, rest, hsorted, hrow, hread, hleft⟩ :=
      h.replaying cursor pagesRead hphase hstored
    refine ⟨front, row, rest, hsorted, hrow, ?_, ?_⟩
    · rw [hdelivered]
      exact hread
    · rw [hsame, hids]
      exact hleft
  case complete =>
    rw [hsame, hids]
    exact h.complete
  case ended =>
    intro hended
    have hphase : s.phase = .ended := hended
    have hwritten : (conn.emitted s event).written = s.written :=
      if_neg fun hsent => by cases hphase.symm.trans hsent.2
    rw [hwritten]
    exact h.ended hphase

theorem ResumeInv.emit_live (h : conn.ResumeInv s) {event : StreamEventRecord}
    (hdue : conn.IsDue event) (hlive : s.phase = .live)
    (hnew : event.eventId ∉ conn.deliveredIds s)
    (hlast : ∀ other ∈ conn.delivered s, conn.InOrder other event) :
    conn.ResumeInv (conn.emitted s event) := by
  have hwhole : [event].filter conn.IsDue = [event] :=
    List.filter_cons_of_pos (decide_eq_true hdue)
  have hdelivered : conn.delivered (conn.emitted s event) = conn.delivered s ++ [event] := by
    rw [delivered_append [.update event] (if_pos ⟨hdue.1, hlive⟩)]
    exact congrArg (conn.delivered s ++ ·) hwhole
  have hids : conn.deliveredIds (conn.emitted s event) =
      conn.deliveredIds s ++ [event.eventId] := by
    rw [deliveredIds, hdelivered, List.map_append]
    rfl
  have hphase : (conn.emitted s event).phase = .live := hlive
  constructor
  case inOrder =>
    rw [hdelivered, List.pairwise_append]
    refine ⟨h.inOrder, List.pairwise_singleton _ _, fun other hother last hmem => ?_⟩
    rw [List.mem_singleton.mp hmem]
    exact hlast other hother
  case once =>
    rw [hids]
    exact List.nodup_append.mpr ⟨h.once, List.nodup_singleton _, fun id hid last hmem => by
      rw [List.mem_singleton.mp hmem]
      rintro rfl
      exact hnew hid⟩
  case replaying =>
    intro cursor pagesRead hreplaying
    cases hphase.symm.trans hreplaying
  case complete =>
    intro _ other hother
    rw [show (conn.emitted s event).due = s.due ++ [event] from if_pos hdue] at hother
    rw [hids]
    rcases List.mem_append.mp hother with hold | hnow
    · exact List.mem_append_left _ (h.complete (Or.inr hlive) other hold)
    · rw [List.mem_singleton.mp hnow]
      exact List.mem_append_right _ (List.mem_singleton_self _)
  case ended =>
    intro hended
    cases hphase.symm.trans hended

theorem ResumeInv.emit_unsent (h : conn.ResumeInv s) {event : StreamEventRecord}
    (hdue : conn.IsDue event) (hlive : s.phase ≠ .live) (hallowed : conn.EmitAllowed s event) :
    conn.ResumeInv (conn.emitted s event) := by
  have hsame : conn.emitted s event = { s with due := s.due ++ [event] } := by
    rw [emitted, if_pos hdue, if_neg fun hsent => hlive hsent.2]
  rw [hsame]
  refine ⟨h.inOrder, h.once, fun cursor pagesRead hphase hstored => ?_,
    fun hphase other hother => ?_, h.ended⟩
  · have hphase' : s.phase = .replaying cursor pagesRead := hphase
    rw [EmitAllowed, hphase'] at hallowed
    obtain ⟨front, row, rest, hsorted, rfl, hdelivered, hleft⟩ :=
      h.replaying cursor pagesRead hphase hstored
    refine ⟨front, row, rest, hsorted, rfl, hdelivered, fun other hother => ?_⟩
    rcases List.mem_append.mp hother with hold | hnow
    · exact hleft other hold
    · rw [List.mem_singleton.mp hnow]
      by_cases hkept : event.eventId ∈ s.storedIds
      · rcases hallowed hstored hkept with hsent | hahead
        · exact Or.inl hsent
        · rw [ahead_of_sorted hsorted] at hahead
          exact Or.inr (Or.inl hahead)
      · exact Or.inr (Or.inr hkept)
  · have hsubscribing : s.phase = .subscribing := hphase.resolve_right hlive
    rw [EmitAllowed, hsubscribing] at hallowed
    rcases List.mem_append.mp hother with hold | hnow
    · exact h.complete (Or.inl hsubscribing) other hold
    · rw [List.mem_singleton.mp hnow]
      exact hallowed

theorem ResumeInv.emit (h : conn.ResumeInv s) {event : StreamEventRecord}
    (hallowed : conn.IsDue event → conn.EmitAllowed s event) :
    conn.ResumeInv (conn.emitted s event) := by
  by_cases hdue : conn.IsDue event
  · by_cases hlive : s.phase = .live
    · have hlast := hallowed hdue
      rw [EmitAllowed, hlive] at hlast
      exact h.emit_live hdue hlive hlast.1 hlast.2
    · exact h.emit_unsent hdue hlive (hallowed hdue)
  · exact h.emit_other hdue

/-! ## A page is read -/

theorem delivered_readPage (hsorted : s.store.sorted conn.localeCompare = front ++ row :: rest)
    (pagesRead : ℕ) :
    conn.delivered (conn.readPage s row.key pagesRead) = conn.delivered s ++
      (((rest.take replayPageSize).map StoredEvent.returned).filter
        (eventMatchesStreamId · conn.id)).filter conn.IsDue := by
  have hupdates : ∀ events : List StreamEventRecord,
      (events.map SseFrame.update).filterMap SseFrame.event? = events := by
    intro events
    rw [List.filterMap_map]
    exact List.filterMap_some
  rw [readPage_of_sorted hsorted, delivered_append _ rfl, hupdates]

theorem delivered_readPage_sublist
    (hsorted : s.store.sorted conn.localeCompare = front ++ row :: rest)
    (hdelivered : (conn.delivered s).Sublist ((front ++ [row]).map StoredEvent.returned))
    (pagesRead : ℕ) :
    (conn.delivered (conn.readPage s row.key pagesRead)).Sublist
      ((front ++ row :: rest.take replayPageSize).map StoredEvent.returned) := by
  rw [delivered_readPage hsorted, List.append_cons, List.map_append]
  exact hdelivered.append (List.filter_sublist.trans List.filter_sublist)

theorem mem_deliveredIds_readPage
    (hsorted : s.store.sorted conn.localeCompare = front ++ row :: rest) (pagesRead : ℕ)
    {eventId : String} (hsent : eventId ∈ conn.deliveredIds s) :
    eventId ∈ conn.deliveredIds (conn.readPage s row.key pagesRead) := by
  rw [deliveredIds, delivered_readPage hsorted, List.map_append]
  exact List.mem_append_left _ hsent

theorem mem_deliveredIds_of_mem_page
    (hsorted : s.store.sorted conn.localeCompare = front ++ row :: rest)
    (hallowed : conn.PageAllowed s row.key pagesRead) {event : StreamEventRecord}
    (hdue : event ∈ s.due)
    (hpage : event.eventId ∈ (rest.take replayPageSize).map StoredEvent.key) :
    event.eventId ∈ conn.deliveredIds (conn.readPage s row.key pagesRead) := by
  obtain ⟨record, hrecord, hkey⟩ := List.mem_map.mp hpage
  have hrecognised := hallowed.recognised record
  rw [ahead_of_sorted hsorted] at hrecognised
  obtain ⟨hmatches, hisDue⟩ := hrecognised hrecord (hkey ▸ List.mem_map_of_mem hdue)
  rw [deliveredIds, delivered_readPage hsorted, List.map_append, ← hkey]
  exact List.mem_append_right _ (List.mem_map.mpr ⟨record.returned, List.mem_filter.mpr
    ⟨List.mem_filter.mpr ⟨List.mem_map_of_mem hrecord, hmatches⟩, decide_eq_true hisDue⟩, rfl⟩)

theorem readUpTo_readPage (hsorted : s.store.sorted conn.localeCompare = front ++ row :: rest)
    (hdelivered : (conn.delivered s).Sublist ((front ++ [row]).map StoredEvent.returned))
    (hdue : ∀ event ∈ s.due, event.eventId ∈ conn.deliveredIds s ∨
      event.eventId ∈ rest.map StoredEvent.key ∨ event.eventId ∉ s.storedIds)
    (hallowed : conn.PageAllowed s row.key pagesRead) (hnext : nextOf rest = some cursor) :
    conn.ReadUpTo (conn.readPage s row.key pagesRead) cursor := by
  obtain ⟨taken, last, htaken, hkey, hrest⟩ := cut_of_nextOf hnext
  have hsent := delivered_readPage_sublist hsorted hdelivered pagesRead
  have hdueIds : (conn.readPage s row.key pagesRead).due = s.due := by
    rw [readPage_of_sorted hsorted]
  have hstore : (conn.readPage s row.key pagesRead).store = s.store := by
    rw [readPage_of_sorted hsorted]
  refine ⟨front ++ row :: taken, last, rest.drop replayPageSize, ?_, hkey, ?_,
    fun event hevent => ?_⟩
  · rw [hstore, hsorted, List.append_assoc, List.cons_append, ← hrest]
  · rw [List.append_assoc, List.cons_append, ← htaken]
    exact hsent
  · rw [hdueIds] at hevent
    rw [SseSystem.storedIds, hstore]
    rcases hdue event hevent with hold | hleft | hmissing
    · exact Or.inl (mem_deliveredIds_readPage hsorted pagesRead hold)
    · rw [← List.take_append_drop replayPageSize rest, List.map_append, List.mem_append] at hleft
      rcases hleft with hnow | hlater
      · exact Or.inl (mem_deliveredIds_of_mem_page hsorted hallowed hevent hnow)
      · exact Or.inr (Or.inl hlater)
    · exact Or.inr (Or.inr hmissing)

theorem ResumeInv.stale (h : conn.ResumeInv s) :
    conn.ResumeInv { s with phase := .ended, written := s.written ++ [staleCursorFrame] } := by
  have hdelivered : conn.delivered
      { s with phase := .ended, written := s.written ++ [staleCursorFrame] } = conn.delivered s :=
    (delivered_append _ rfl).trans (List.append_nil _)
  constructor
  case inOrder =>
    rw [hdelivered]
    exact h.inOrder
  case once =>
    rw [deliveredIds, hdelivered]
    exact h.once
  case replaying =>
    intro _ _ hreplaying
    cases hreplaying
  case complete =>
    intro hover
    rcases hover with hover | hover <;> cases hover
  case ended =>
    intro _
    exact List.getLast?_concat

theorem ResumeInv.page (h : conn.ResumeInv s) (hphase : s.phase = .replaying cursor pagesRead)
    (hallowed : conn.PageAllowed s cursor pagesRead) :
    conn.ResumeInv (conn.readPage s cursor pagesRead) := by
  by_cases hstored : cursor ∈ s.storedIds
  · obtain ⟨front, row, rest, hsorted, rfl, hdelivered, hdue⟩ :=
      h.replaying cursor pagesRead hphase hstored
    have hsent := delivered_readPage_sublist hsorted hdelivered pagesRead
    have hcut : (front ++ row :: rest.take replayPageSize).Sublist
        (s.store.sorted conn.localeCompare) := by
      rw [hsorted]
      exact ((List.take_sublist _ _).cons_cons row).append_left front
    have hafter : (conn.readPage s row.key pagesRead).phase =
        afterPage (nextOf rest) pagesRead := by
      rw [readPage_of_sorted hsorted]
    have hinOrder := (pairwise_returned hcut).sublist hsent
    have honce := (nodup_returned hcut).sublist (hsent.map StreamEventRecord.eventId)
    rcases afterPage_spec (nextOf rest) pagesRead with ⟨next, hnext, hgoes, _⟩ | ⟨hlast, hgoes⟩
    · -- there are more pages
      rw [hgoes] at hafter
      refine ⟨hinOrder, honce, fun cursor' pagesRead' hreplaying _ => ?_, fun hover => ?_,
        fun hended => ?_⟩
      · cases hafter.symm.trans hreplaying
        exact readUpTo_readPage hsorted hdelivered hdue hallowed hnext
      · rcases hover with hover | hover <;> cases hafter.symm.trans hover
      · cases hafter.symm.trans hended
    · -- this was the last page
      rw [hgoes] at hafter
      refine ⟨hinOrder, honce, fun cursor' pagesRead' hreplaying => ?_,
        fun _ event hevent => ?_, fun hended => ?_⟩
      · cases hafter.symm.trans hreplaying
      · rw [readPage_of_sorted hsorted] at hevent
        have hlastPage := hallowed.lastPage hstored
        rw [ahead_of_sorted hsorted] at hlastPage
        rcases hlastPage (hlast.symm.imp (fun h => h) length_le_of_nextOf_eq_none) event hevent
          with hold | hnow
        · exact mem_deliveredIds_readPage hsorted pagesRead hold
        · exact mem_deliveredIds_of_mem_page hsorted hallowed hevent hnow
      · cases hafter.symm.trans hended
  · rw [readPage_of_not_stored hstored]
    exact h.stale

/-! ## Runs -/

theorem ResumeInv.step (h : conn.ResumeInv s) {label : SseLabel}
    (hallowed : conn.StepAllowed s label) (hstep : conn.step s label = some s') :
    conn.ResumeInv s' := by
  cases label with
  | ingest =>
    cases hstep
    exact h.ingest hallowed
  | rollback forkLedger =>
    cases hstep
    exact h.rollback forkLedger
  | emit =>
    cases hstep
    exact h.emit hallowed
  | page =>
    simp only [SseConnection.step] at hstep
    split at hstep
    next cursor pagesRead hphase =>
      cases hstep
      exact h.page hphase (hallowed cursor pagesRead hphase)
    next => cases hstep
  | readFails =>
    simp only [SseConnection.step] at hstep
    split at hstep
    next cursor pagesRead hphase =>
      cases hstep
      refine ⟨h.inOrder, h.once, fun _ _ hreplaying => ?_, fun _ => hallowed,
        fun hended => ?_⟩
      · cases hreplaying
      · cases hended
    next => cases hstep
  | subscribe =>
    simp only [SseConnection.step] at hstep
    split_ifs at hstep with hphase
    cases hstep
    refine ⟨h.inOrder, h.once, fun _ _ hreplaying => ?_,
      fun _ => h.complete (Or.inl hphase), fun hended => ?_⟩
    · cases hreplaying
    · cases hended

theorem phase_readPage (conn : SseConnection) (s : SseSystem) (cursor : String)
    (pagesRead : ℕ) :
    (∃ next, (conn.readPage s cursor pagesRead).phase = .replaying next (pagesRead + 1) ∧
      pagesRead + 1 < replayMaxPages) ∨
    (conn.readPage s cursor pagesRead).phase = .subscribing ∨
    (conn.readPage s cursor pagesRead).phase = .ended := by
  simp only [readPage]
  split
  next result _ =>
    rcases afterPage_spec result.nextCursor pagesRead with
      ⟨next, _, hgoes, hbudget⟩ | ⟨_, hgoes⟩
    · exact Or.inl ⟨next, hgoes, hbudget⟩
    · exact Or.inr (Or.inl hgoes)
  next => exact Or.inr (Or.inr rfl)
  next => exact Or.inr (Or.inl rfl)

theorem step_page (hphase : s.phase = .replaying cursor pagesRead) :
    conn.step s .page = some (conn.readPage s cursor pagesRead) := by
  simp only [step, hphase]

theorem step_subscribe (hphase : s.phase = .subscribing) :
    conn.step s .subscribe = some { s with phase := .live } := if_pos hphase

theorem SettlesWithin.mono {count more : ℕ} (h : conn.SettlesWithin count s)
    (hle : count ≤ more) : conn.SettlesWithin more s := by
  obtain ⟨labels, s', hlength, hrest⟩ := h
  exact ⟨labels, s', hlength.trans hle, hrest⟩

theorem settlesWithin_of_settled (hsettled : s.phase = .live ∨ s.phase = .ended) (count : ℕ) :
    conn.SettlesWithin count s :=
  ⟨[], s, Nat.zero_le _, fun _ hlabel => absurd hlabel List.not_mem_nil, rfl, hsettled⟩

theorem SettlesWithin.cons {count : ℕ} {label : SseLabel} (h : conn.SettlesWithin count s')
    (hlabel : label = .page ∨ label = .subscribe)
    (hstep : conn.step s label = some s') : conn.SettlesWithin (count + 1) s := by
  obtain ⟨labels, last, hlength, hhandler, hrun, hsettled⟩ := h
  refine ⟨label :: labels, last, Nat.succ_le_succ hlength, fun other hother => ?_,
    (run_cons hstep labels).trans hrun, hsettled⟩
  rcases List.mem_cons.mp hother with rfl | hrest
  · exact hlabel
  · exact hhandler other hrest

theorem settlesWithin_of_subscribing (hphase : s.phase = .subscribing) :
    conn.SettlesWithin 1 s :=
  (settlesWithin_of_settled (Or.inl rfl) 0).cons (Or.inr rfl) (step_subscribe hphase)

theorem settlesWithin_of_replaying (remaining : ℕ) (hphase : s.phase = .replaying cursor pagesRead)
    (hbudget : replayMaxPages ≤ pagesRead + remaining + 1) :
    conn.SettlesWithin (remaining + 2) s := by
  -- by induction on the pages that are left
  induction remaining generalizing s cursor pagesRead with
  | zero =>
    rcases phase_readPage conn s cursor pagesRead with ⟨_, _, hmore⟩ | hover | hended
    · exact absurd hbudget (Nat.not_le_of_lt hmore)
    · exact (settlesWithin_of_subscribing hover).cons (Or.inl rfl) (step_page hphase)
    · exact (settlesWithin_of_settled (Or.inr hended) 1).cons (Or.inl rfl) (step_page hphase)
  | succ _ ih =>
    rcases phase_readPage conn s cursor pagesRead with ⟨next, hgoes, _⟩ | hover | hended
    · exact (ih hgoes (by omega)).cons (Or.inl rfl) (step_page hphase)
    · exact ((settlesWithin_of_subscribing hover).mono (Nat.le_add_left 1 _)).cons
        (Or.inl rfl) (step_page hphase)
    · exact (settlesWithin_of_settled (Or.inr hended) _).cons (Or.inl rfl) (step_page hphase)

theorem settles (conn : SseConnection) (s : SseSystem) :
    conn.SettlesWithin (replayMaxPages + 1) s := by
  cases hphase : s.phase with
  | replaying _ pagesRead =>
    exact settlesWithin_of_replaying 9 hphase (Nat.le_add_left replayMaxPages pagesRead)
  | subscribing => exact (settlesWithin_of_subscribing hphase).mono (Nat.le_add_left 1 _)
  | live => exact settlesWithin_of_settled (Or.inl hphase) _
  | ended => exact settlesWithin_of_settled (Or.inr hphase) _

end SseConnection

/-! ## Concrete connections -/

/-- An event of the stream `t-0`. -/
def sampleStored (ledger : ℕ) (eventId : String) : StoredEvent :=
  ⟨⟨eventId, ledger, "C", "stream.updated", "t", 0, 0, 0, [], 0, "h"⟩, 0⟩

/-- A client that has seen the event `a`. -/
def sampleConnection : SseConnection where
  id := "t-0"
  lastSeen := (sampleStored 1 "a").returned
  streamOf event := deriveStreamId event.txHash event.eventIndex
  localeCompare := codePointCollation

/-- Two events are stored, and the client has seen the first one. -/
def sampleStore : InMemoryContractEventStore where
  records := [sampleStored 1 "a", sampleStored 2 "b"]
  nodup := by decide
  reorgLog := []

end Fluxora.Streams
