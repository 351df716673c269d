/-
# Replay over a socket

A client asks for the stored events after one that it names. They are read a page at a time and
queued for its socket as frames, and when the last page is through, another frame announces that
the replay is complete. While a page is read anything else may happen to the queues.

Whether a frame was taken into the queue is not looked at.
-/

import Fluxora.Indexer.EventPaging
import Fluxora.Lib.IsoInstant
import Fluxora.Lib.JsonStringify
import Fluxora.Ws.Backpressure

namespace Fluxora.Ws

open Lib Lib.IsoInstant Lib.JsonStringify Lib.Paging Lib.Transition Indexer

/-! ## Requests and stores -/

/-- A request as the schema of the messages lets it through. -/
structure ReplayRequest where
  afterEventId : Option String
  fromLedger : Option ℕ
  toledger : Option ℕ
  contractId : Option String
  topic : Option String
  limit : Option ℕ
  limit_pos : ∀ n ∈ limit, 0 < n

namespace ReplayRequest

variable (request : ReplayRequest)

def filter : StreamEventReplayFilter where
  fromLedger := request.fromLedger
  toledger := request.toledger
  contractId := request.contractId
  topic := request.topic
  limit := request.limit
  afterEventId := request.afterEventId

def pageSize : ℕ := min (request.limit.getD 100) 1000

/-- What the store is asked for at a cursor. -/
def pageFilter (cursor : Option String) : StreamEventReplayFilter :=
  { request.filter with afterEventId := cursor, limit := some request.pageSize }

end ReplayRequest

/-- The store of events that is attached to the hub. -/
inductive EventStore
  | memory (localeCompare : Collation) (store : InMemoryContractEventStore)
  | postgres (parseDate : String → Option ℤ) (store : PostgresContractEventStore)

namespace EventStore

def getEvents (filter : StreamEventReplayFilter) :
    EventStore → Except StoreError StreamEventReplayResult
  | .memory localeCompare store => store.getEvents localeCompare filter
  | .postgres parseDate store => store.getEvents parseDate filter

/-- The stored events in the order of the pages. -/
def ordered : EventStore → List StoredEvent
  | .memory localeCompare store => store.sorted localeCompare
  | .postgres _ store => store.rows.insertionSort store.collation.Precedes

/-- The events that match a request: those after the one it names that its filter admits. -/
def due (store : EventStore) (request : ReplayRequest) : List StreamEventRecord :=
  (((remaining StoredEvent.key store.ordered request.afterEventId).getD []).filter
    request.filter.admits).map StoredEvent.returned

end EventStore

/-! ## Frames -/

def errorFrame (code message : String) : Frame :=
  stringify (.object
    [("type", .string "error"), ("code", .string code), ("message", .string message)])

def replayFrame (event : StreamEventRecord) : Frame :=
  stringify (.object
    [("type", .string "stream_replay"),
     ("eventId", .string event.eventId),
     ("ledger", .number event.ledger),
     ("topic", .string event.topic),
     ("payload", .object event.payload),
     ("happenedAt", .string (toISOString event.happenedAt))])

def replayCompleteFrame : Frame :=
  stringify (.object [("type", .string "stream_replay_complete"), ("cursor", .null)])

/-! ## The replay -/

/-- Where the replay of a socket is. -/
inductive ReplayPhase
  | requested
  | reading (cursor : Option String)
  | announced
  | ended
  deriving DecidableEq

/-- An event that was queued: whether the queue had room for its frame, and whether the
frame was taken. -/
structure ReplaySend where
  event : StreamEventRecord
  hadRoom : Bool
  accepted : Bool

structure ReplayRun where
  outbound : OutboundBackpressure
  phase : ReplayPhase
  sends : List ReplaySend

/-- The replay begins, a page has been read, reading it has failed, or something else is done
to the queues. -/
inductive ReplayLabel
  | begin (peer : Peer)
  | page (peers : ℕ → Peer) (last : Peer)
  | readFails
  | other (label : OutboundLabel)

/-- The queue of a socket has room for a frame. -/
def OutboundBackpressure.HasRoom (s : OutboundBackpressure) (ceilings : QueueCeilings)
    (ws : Socket) (message : Frame) : Prop :=
  (s.queueOf ws).length < ceilings.maxQueuePerConnection ∧
    queuedBytes (s.queueOf ws) + byteLength message ≤ ceilings.maxQueueBytesPerConnection

instance (s : OutboundBackpressure) (ceilings : QueueCeilings) (ws : Socket) (message : Frame) :
    Decidable (s.HasRoom ceilings ws message) := instDecidableAnd

/-- Queue the events of a page: what was queued, and whether the socket stayed open. -/
def sendEvents (ceilings : QueueCeilings) (ws : Socket) :
    List StreamEventRecord → (ℕ → Peer) → OutboundBackpressure →
      (List ReplaySend × Bool) × OutboundBackpressure
  | [], _, s => (([], true), s)
  | event :: rest, peers, s =>
    if (peers 0 0).isOpen = false then (([], false), s)
    else
      let message := replayFrame event
      let queued := s.queueOutboundMessage ceilings ws message (peers 0)
      let others := sendEvents ceilings ws rest (fun i => peers (i + 1)) queued.2
      ((⟨event, s.HasRoom ceilings ws message, queued.1.1⟩ :: others.1.1, others.1.2), others.2)

namespace ReplayRun

variable (store : Option EventStore) (ceilings : QueueCeilings) (ws : Socket)
  (request : ReplayRequest)

def start (outbound : OutboundBackpressure) : ReplayRun := ⟨outbound, .requested, []⟩

/-- The head of the loop: a page is read only while the socket is open. -/
def nextRound (w : ReplayRun) (cursor : Option String) (peer : Peer) : ReplayRun :=
  { w with phase := if (peer 0).isOpen then .reading cursor else .ended }

def sendError (w : ReplayRun) (code message : String) (peer : Peer) : ReplayRun :=
  { w with
    outbound := (w.outbound.queueOutboundMessage ceilings ws (errorFrame code message) peer).2
    phase := .ended }

/-- The end of the loop. -/
def announce (w : ReplayRun) (peer : Peer) : ReplayRun :=
  if (peer 0).isOpen = false then { w with phase := .ended }
  else
    let queued := w.outbound.queueOutboundMessage ceilings ws replayCompleteFrame peer
    { w with outbound := queued.2, phase := if queued.1.1 then .announced else .ended }

/-- Queue the events of a page, and go on at its cursor. -/
def takePage (w : ReplayRun) (result : StreamEventReplayResult) (peers : ℕ → Peer)
    (last : Peer) : ReplayRun :=
  let sent := sendEvents ceilings ws result.events peers w.outbound
  let w := { w with outbound := sent.2, sends := w.sends ++ sent.1.1 }
  if sent.1.2 = false then { w with phase := .ended }
  else
    match result.nextCursor with
    | some cursor => w.nextRound (some cursor) last
    | none => w.announce ceilings ws last

def step (w : ReplayRun) : ReplayLabel → Option ReplayRun
  | .begin peer =>
    match w.phase, store with
    | .requested, none =>
      some (w.sendError ceilings ws "REPLAY_UNAVAILABLE" "Event store is not configured" peer)
    | .requested, some _ => some (w.nextRound request.afterEventId peer)
    | _, _ => none
  | .page peers last =>
    match w.phase, store with
    | .reading cursor, some store =>
      match store.getEvents (request.pageFilter cursor) with
      | .ok result => some (w.takePage ceilings ws result peers last)
      | .error (.staleCursor _) =>
        some (w.sendError ceilings ws "STALE_CURSOR"
          "Replay cursor no longer exists; resync from fromLedger" last)
      | .error (.rowMapping _) => some { w with phase := .ended }
    | _, _ => none
  | .readFails =>
    match w.phase with
    | .reading _ => some { w with phase := .ended }
    | _ => none
  | .other label => do
      let other ← OutboundRun.step ceilings ⟨w.outbound, []⟩ label
      some { w with outbound := other.outbound }

/-- The events whose frames were taken into the queue. -/
def acceptedEvents (w : ReplayRun) : List StreamEventRecord :=
  (w.sends.filter (·.accepted)).map (·.event)

/-- Every due event was taken into the queue, in order and once, and none was refused. -/
def Complete (store : EventStore) (request : ReplayRequest) (w : ReplayRun) : Prop :=
  w.acceptedEvents = store.due request ∧ ∀ send ∈ w.sends, send.accepted = true

/-- The queue had room for every event. Over the table, none was due. -/
def FitsQueue (store : EventStore) (request : ReplayRequest) (w : ReplayRun) : Prop :=
  match store with
  | .memory _ _ => ∀ send ∈ w.sends, send.hadRoom = true
  | .postgres parseDate store => (EventStore.postgres parseDate store).due request = []

end ReplayRun

/-! ## One page -/

section

variable {ceilings : QueueCeilings} {ws : Socket} {s : OutboundBackpressure}

theorem queueOutboundMessage_accepted {message : Frame} {peer : Peer}
    (hopen : (peer 0).isOpen ≠ false) :
    (s.queueOutboundMessage ceilings ws message peer).1.1 =
      decide (s.HasRoom ceilings ws message) := by
  rw [OutboundBackpressure.queueOutboundMessage, if_neg hopen]
  dsimp only
  split_ifs with hfull
  · rw [eq_comm, decide_eq_false_iff_not]
    rintro ⟨hnumber, hbytes⟩
    omega
  · obtain ⟨hnumber, hbytes⟩ := not_or.mp hfull
    rw [eq_comm, decide_eq_true_eq]
    exact ⟨not_le.mp hnumber, not_lt.mp hbytes⟩

variable {events : List StreamEventRecord} {peers : ℕ → Peer}

theorem accepted_of_mem_sendEvents {send : ReplaySend}
    (h : send ∈ (sendEvents ceilings ws events peers s).1.1) : send.accepted = send.hadRoom := by
  induction events generalizing peers s with
  | nil => cases h
  | cons _ _ ih =>
    rw [sendEvents] at h
    split_ifs at h with hclosed
    · cases h
    · rcases List.mem_cons.mp h with rfl | hrest
      · exact queueOutboundMessage_accepted hclosed
      · exact ih hrest

theorem events_sendEvents (hopen : (sendEvents ceilings ws events peers s).1.2 = true) :
    (sendEvents ceilings ws events peers s).1.1.map (·.event) = events := by
  induction events generalizing peers s with
  | nil => rfl
  | cons _ _ ih =>
    rw [sendEvents] at hopen ⊢
    split_ifs at hopen ⊢ with hclosed
    rw [List.map_cons, ih hopen]

end

theorem ReplayRequest.pageSize_pos (request : ReplayRequest) : 0 < request.pageSize := by
  rw [pageSize]
  cases hlimit : request.limit with
  | none => decide
  | some n => exact lt_min (request.limit_pos n hlimit) (by decide)

theorem getEvents_memory {localeCompare : Collation} {store : InMemoryContractEventStore}
    (request : ReplayRequest) {cursor : Option String} {rest : List StoredEvent}
    (hrest : remaining StoredEvent.key (store.sorted localeCompare) cursor = some rest) :
    ∃ result, store.getEvents localeCompare (request.pageFilter cursor) = .ok result ∧
      result.events = ((rest.filter request.filter.admits).take request.pageSize).map
        StoredEvent.returned ∧
      result.nextCursor =
        if request.pageSize < (rest.filter request.filter.admits).length then
          ((rest.filter request.filter.admits).take request.pageSize).getLast?.map StoredEvent.key
        else none := by
  have hlimit : (request.pageFilter cursor).pageLimit = request.pageSize :=
    min_eq_left (min_le_right _ _)
  have hget : store.getEvents localeCompare (request.pageFilter cursor) =
      .ok (InMemoryContractEventStore.resultOf (request.pageFilter cursor) 0
        (rest.filter request.filter.admits)) := by
    cases cursor with
    | none =>
      cases hrest
      rfl
    | some k =>
      have hafter : after StoredEvent.key k (store.sorted localeCompare) = some rest := hrest
      have hcursor : (request.pageFilter (some k)).afterEventId = some k := rfl
      rw [InMemoryContractEventStore.getEvents, hcursor]
      dsimp only
      rw [hafter]
      rfl
  refine ⟨_, hget, ?_, ?_⟩
  · rw [InMemoryContractEventStore.resultOf, hlimit, List.drop_zero]
  · rw [InMemoryContractEventStore.resultOf, hlimit, List.drop_zero]
    dsimp only
    by_cases hmore : request.pageSize < (rest.filter request.filter.admits).length
    · rw [if_pos hmore, if_pos ⟨List.length_take_of_le hmore.le, hmore⟩]
    · rw [if_neg hmore, if_neg fun h => hmore h.2]

/-! ## The whole replay -/

namespace ReplayRun

variable {ceilings : QueueCeilings} {ws : Socket} {request : ReplayRequest} {w w' : ReplayRun}

theorem sends_nextRound (w : ReplayRun) (cursor : Option String) (peer : Peer) :
    (w.nextRound cursor peer).sends = w.sends := rfl

theorem sends_announce (w : ReplayRun) (peer : Peer) :
    (w.announce ceilings ws peer).sends = w.sends := by
  rw [announce]
  split_ifs <;> rfl

theorem sends_takePage (w : ReplayRun) (result : StreamEventReplayResult) (peers : ℕ → Peer)
    (last : Peer) :
    (w.takePage ceilings ws result peers last).sends =
      w.sends ++ (sendEvents ceilings ws result.events peers w.outbound).1.1 := by
  rw [takePage]
  dsimp only
  split_ifs
  · rfl
  · cases result.nextCursor with
    | none => exact sends_announce _ last
    | some => exact sends_nextRound _ _ last

variable {label : ReplayLabel}

theorem step_cases {store : EventStore}
    (h : w.step (some store) ceilings ws request label = some w') :
    (∃ peer, w.phase = .requested ∧ w' = w.nextRound request.afterEventId peer) ∨
      (∃ cursor result peers last, w.phase = .reading cursor ∧
        store.getEvents (request.pageFilter cursor) = .ok result ∧
        w' = w.takePage ceilings ws result peers last) ∨
      (w'.phase = .ended ∧ w'.sends = w.sends) ∨ w'.phase = w.phase ∧ w'.sends = w.sends := by
  cases label with
  | begin peer =>
    cases hphase : w.phase with
    | requested =>
      simp only [step, hphase, Option.some.injEq] at h
      exact Or.inl ⟨peer, rfl, h.symm⟩
    | reading | announced | ended => simp [step, hphase] at h
  | page peers last =>
    cases hphase : w.phase with
    | requested => simp [step, hphase] at h
    | reading cursor =>
      simp only [step, hphase] at h
      cases hresult : store.getEvents (request.pageFilter cursor) with
      | ok result =>
        rw [hresult] at h
        cases h
        exact Or.inr (Or.inl ⟨cursor, result, peers, last, rfl, hresult, rfl⟩)
      | error error =>
        rw [hresult] at h
        cases error with
        | staleCursor | rowMapping =>
          cases h
          exact Or.inr (Or.inr (Or.inl ⟨rfl, rfl⟩))
    | announced | ended => simp [step, hphase] at h
  | readFails =>
    cases hphase : w.phase with
    | reading =>
      simp only [step, hphase, Option.some.injEq] at h
      subst h
      exact Or.inr (Or.inr (Or.inl ⟨rfl, rfl⟩))
    | requested | announced | ended => simp [step, hphase] at h
  | other =>
    obtain ⟨other, -, hnext⟩ := Option.bind_eq_some_iff.mp h
    cases hnext
    exact Or.inr (Or.inr (Or.inr ⟨rfl, rfl⟩))

/-- What was queued was taken if there was room, and what was queued and what is left to be
read are the due events. -/
structure OnTrack (localeCompare : Collation) (store : InMemoryContractEventStore)
    (request : ReplayRequest) (w : ReplayRun) : Prop where
  taken : ∀ send ∈ w.sends, send.accepted = send.hadRoom
  fresh : w.phase = .requested → w.sends = []
  left : ∀ cursor rest, w.phase = .reading cursor →
    remaining StoredEvent.key (store.sorted localeCompare) cursor = some rest →
      w.sends.map (·.event) ++ (rest.filter request.filter.admits).map StoredEvent.returned =
        (EventStore.memory localeCompare store).due request
  whole : w.phase = .announced →
    w.sends.map (·.event) = (EventStore.memory localeCompare store).due request

section

variable {localeCompare : Collation} {store : InMemoryContractEventStore}

theorem onTrack_start (outbound : OutboundBackpressure) :
    OnTrack localeCompare store request (start outbound) where
  taken send hsend := absurd hsend List.not_mem_nil
  fresh _ := rfl
  left cursor rest hphase := by cases hphase
  whole hphase := by cases hphase

theorem OnTrack.end (htaken : ∀ send ∈ w.sends, send.accepted = send.hadRoom)
    (hended : w.phase = .ended) : OnTrack localeCompare store request w where
  taken := htaken
  fresh hphase := by cases hended.symm.trans hphase
  left cursor rest hphase := by cases hended.symm.trans hphase
  whole hphase := by cases hended.symm.trans hphase

theorem OnTrack.nextRound (htaken : ∀ send ∈ w.sends, send.accepted = send.hadRoom)
    {cursor : Option String}
    (hleft : ∀ rest, remaining StoredEvent.key (store.sorted localeCompare) cursor = some rest →
      w.sends.map (·.event) ++ (rest.filter request.filter.admits).map StoredEvent.returned =
        (EventStore.memory localeCompare store).due request) (peer : Peer) :
    OnTrack localeCompare store request (w.nextRound cursor peer) := by
  rw [ReplayRun.nextRound]
  split_ifs with hopen
  · constructor
    case taken =>
      exact htaken
    case fresh =>
      intro hphase
      cases hphase
    case left =>
      intro own rest hphase hrest
      cases hphase
      exact hleft rest hrest
    case whole =>
      intro hphase
      cases hphase
  · exact OnTrack.end htaken rfl

theorem OnTrack.announce (htaken : ∀ send ∈ w.sends, send.accepted = send.hadRoom)
    (hwhole : w.sends.map (·.event) = (EventStore.memory localeCompare store).due request)
    (peer : Peer) : OnTrack localeCompare store request (w.announce ceilings ws peer) := by
  rw [ReplayRun.announce]
  dsimp only
  split_ifs with hclosed haccepted
  · exact OnTrack.end htaken rfl
  · constructor
    case taken =>
      exact htaken
    case fresh =>
      intro hphase
      cases hphase
    case left =>
      intro own rest hphase
      cases hphase
    case whole =>
      exact fun _ => hwhole
  · exact OnTrack.end htaken rfl

theorem OnTrack.page (h : OnTrack localeCompare store request w) {cursor : Option String}
    (hphase : w.phase = .reading cursor) {result : StreamEventReplayResult}
    (hresult : store.getEvents localeCompare (request.pageFilter cursor) = .ok result)
    (peers : ℕ → Peer) (last : Peer) :
    OnTrack localeCompare store request (w.takePage ceilings ws result peers last) := by
  have htaken : ∀ send ∈ w.sends ++ (sendEvents ceilings ws result.events peers w.outbound).1.1,
      send.accepted = send.hadRoom := fun send hsend => by
    rcases List.mem_append.mp hsend with hold | hnew
    · exact h.taken send hold
    · exact accepted_of_mem_sendEvents hnew
  rw [takePage]
  dsimp only
  split_ifs with hclosed
  · exact OnTrack.end htaken rfl
  · have hsent := events_sendEvents (Bool.eq_true_of_not_eq_false hclosed)
    obtain ⟨rest, hrest⟩ : ∃ rest,
        remaining StoredEvent.key (store.sorted localeCompare) cursor = some rest := by
      cases cursor with
      | none => exact ⟨_, rfl⟩
      | some k =>
        cases hafter : after StoredEvent.key k (store.sorted localeCompare) with
        | some rest => exact ⟨rest, hafter⟩
        | none =>
          have hcursor : (request.pageFilter (some k)).afterEventId = some k := rfl
          rw [InMemoryContractEventStore.getEvents, hcursor] at hresult
          dsimp only at hresult
          rw [hafter] at hresult
          cases hresult
    have hdue := h.left cursor rest hphase hrest
    obtain ⟨own, hown, hevents, hnext⟩ := getEvents_memory request hrest
    rw [hresult, Except.ok.injEq] at hown
    subst hown
    by_cases hmore : request.pageSize < (rest.filter request.filter.admits).length
    · have hnodup : ((store.sorted localeCompare).map StoredEvent.key).Nodup :=
        ((store.sorted_perm localeCompare).map _).nodup_iff.mpr store.nodup
      obtain ⟨row, back, hlast, hafter, hback⟩ := exists_remaining_of_more StoredEvent.key hnodup
        request.pageSize_pos (remaining_suffix StoredEvent.key hrest) hmore
      rw [if_pos hmore, hlast] at hnext
      rw [hnext]
      refine OnTrack.nextRound htaken (fun rest' hrest' => ?_) last
      have hsame : back = rest' := Option.some.inj (hafter.symm.trans hrest')
      subst hsame
      rw [List.map_append, hsent, hevents, hback, List.append_assoc, ← List.map_append,
        List.take_append_drop]
      exact hdue
    · rw [if_neg hmore] at hnext
      rw [hnext]
      refine OnTrack.announce htaken ?_ last
      rw [List.map_append, hsent, hevents, List.take_of_length_le (not_lt.mp hmore)]
      exact hdue

theorem OnTrack.step (h : OnTrack localeCompare store request w)
    (hstep : w.step (some (.memory localeCompare store)) ceilings ws request label = some w') :
    OnTrack localeCompare store request w' := by
  rcases step_cases hstep with ⟨peer, hphase, rfl⟩ |
    ⟨cursor, result, peers, last, hphase, hresult, rfl⟩ | ⟨hended, hsends⟩ | ⟨hphase, hsends⟩
  · refine OnTrack.nextRound h.taken (fun rest hrest => ?_) peer
    rw [h.fresh hphase, EventStore.due, EventStore.ordered, hrest]
    rfl
  · exact h.page hphase hresult peers last
  · exact OnTrack.end (hsends ▸ h.taken) hended
  · constructor
    case taken =>
      rw [hsends]
      exact h.taken
    case fresh =>
      rw [hsends, hphase]
      exact h.fresh
    case left =>
      rw [hsends, hphase]
      exact h.left
    case whole =>
      rw [hsends, hphase]
      exact h.whole

theorem OnTrack.complete_iff_room (h : OnTrack localeCompare store request w)
    (hannounced : w.phase = .announced) :
    w.Complete (.memory localeCompare store) request ↔ ∀ send ∈ w.sends, send.hadRoom = true := by
  apply Iff.intro
  · rintro ⟨-, haccepted⟩ send hsend
    rw [← h.taken send hsend]
    exact haccepted send hsend
  · intro hroom
    have haccepted : ∀ send ∈ w.sends, send.accepted = true := fun send hsend => by
      rw [h.taken send hsend]
      exact hroom send hsend
    refine ⟨?_, haccepted⟩
    rw [acceptedEvents, List.filter_eq_self.mpr haccepted]
    exact h.whole hannounced

end

section

variable {parseDate : String → Option ℤ} {store : PostgresContractEventStore}

theorem sends_postgres (h : w.sends = [])
    (hstep : w.step (some (.postgres parseDate store)) ceilings ws request label = some w') :
    w'.sends = [] := by
  rcases step_cases hstep with ⟨peer, hphase, rfl⟩ |
    ⟨cursor, result, peers, last, hphase, hresult, rfl⟩ | ⟨hended, hsends⟩ | ⟨hphase, hsends⟩
  · exact h
  · have hpage := PostgresContractEventStore.page_eq_nil hresult
    obtain ⟨own, hown, hevents, hnext⟩ :=
      (PostgresContractEventStore.getEvents_of_page_eq_nil hpage :
        ∃ own, store.getEvents parseDate (request.pageFilter cursor) = .ok own ∧ _)
    have hsame : own = result := Except.ok.inj (hown.symm.trans hresult)
    subst hsame
    rw [sends_takePage, hevents, h]
    rfl
  · rw [hsends]
    exact h
  · rw [hsends]
    exact h

end

/-- An announced replay is complete exactly if the queue had room for every event that was
read, and over the table if no event was due. -/
theorem announced_complete_iff (store : EventStore) (ceilings : QueueCeilings) (ws : Socket)
    (request : ReplayRequest) (outbound : OutboundBackpressure) (labels : List ReplayLabel)
    {w : ReplayRun}
    (hrun : run (step (some store) ceilings ws request) (start outbound) labels = some w)
    (hannounced : w.phase = .announced) :
    w.Complete store request ↔ w.FitsQueue store request := by
  cases store with
  | memory localeCompare store =>
    have htrack : OnTrack localeCompare store request w :=
      invariant_of_run (fun s label s' h hstep => h.step hstep) (onTrack_start outbound) hrun
    exact htrack.complete_iff_room hannounced
  | postgres =>
    have hnone : w.sends = [] :=
      invariant_of_run (fun s label s' h hstep => sends_postgres h hstep) rfl hrun
    rw [Complete, FitsQueue, acceptedEvents, hnone]
    apply Iff.intro
    · exact fun h => h.1.symm
    · exact fun h => ⟨h.symm, fun send hsend => absurd hsend List.not_mem_nil⟩

def everything : ReplayRequest where
  afterEventId := none
  fromLedger := none
  toledger := none
  contractId := none
  topic := none
  limit := none
  limit_pos n hn := by cases hn

/-- No queue, and thresholds that are never reached. -/
def idleOutbound : OutboundBackpressure :=
  ⟨1048576, 4194304, fun _ => none, ⟨0, 0, 0⟩, fun _ => none⟩

/-- The one page of a small store is read for a socket that keeps up. -/
def onePage : List ReplayLabel :=
  [.begin (OutboundRun.steadyPeer 0),
    .page (fun _ => OutboundRun.steadyPeer 0) (OutboundRun.steadyPeer 0)]

theorem announced_complete_iff_onePage :
    ∃ w, run (step (some (.memory codePointCollation oneEventStore)) ⟨128, 1048576⟩ 1 everything)
        (start idleOutbound) onePage = some w ∧
      (w.Complete (.memory codePointCollation oneEventStore) everything ↔
        w.FitsQueue (.memory codePointCollation oneEventStore) everything) :=
  ⟨_, rfl, announced_complete_iff _ ⟨128, 1048576⟩ 1 everything idleOutbound onePage rfl
    (by decide +kernel)⟩

/-- With a ceiling of 100 bytes the only event is refused, and the replay is announced as
complete. -/
theorem refusedEvent_announced :
    ¬ ∀ store ceilings ws request outbound labels w,
      run (step (some store) ceilings ws request) (start outbound) labels = some w →
        w.phase = .announced → w.Complete store request := by
  intro h
  obtain ⟨-, haccepted⟩ := h (.memory codePointCollation oneEventStore) ⟨128, 100⟩ 1 everything
    idleOutbound onePage _ rfl (by decide +kernel)
  have hrefused : ¬ ∀ send ∈ ((run
      (step (some (.memory codePointCollation oneEventStore)) ⟨128, 100⟩ 1 everything)
        (start idleOutbound) onePage).map (·.sends)).getD [], send.accepted = true := by
    decide +kernel
  exact hrefused haccepted

end ReplayRun

end Fluxora.Ws
