/-
# The order of the events of one stream

The events of a stream may arrive in any order. One that is reported as failed is delivered again
until it is reported as successful, and once every event has been reported so the row should be
the one that the events leave in the order of the chain.

A key that is live answers a redelivery with a success, so an event counts once, where it is
delivered first. An update that arrives before the creation finds no row, fails, and is answered
as a duplicate when it comes back: it is lost.
-/

import Mathlib.Data.List.Perm.Basic
import Fluxora.Streams.AppliedUpdate
import Fluxora.Streams.Redelivery

namespace Fluxora.Streams

open Lib Lib.Statements Lib.Transition

/-! ## Applying events -/

namespace StreamEvent

/-- The table after the event has been taken to the database, where nothing fails. -/
def applyTo (event : StreamEvent) (table : StreamsTable) : StreamsTable :=
  (event.program (Session.start table [])).2.store

/-- The update that an event makes to a stream that is there. -/
def change : StreamEvent → Option UpdateStreamInput
  | .created _ => none
  | .updated event => some event.update
  | .cancelled _ => some { status := some .cancelled }

/-- The place of an event in the chain. -/
def position (event : StreamEvent) : String × ℕ :=
  (event.transactionHash.text, event.eventIndex)

end StreamEvent

/-- Events applied one after the other. -/
def applyAll (events : List StreamEvent) (table : StreamsTable) : StreamsTable :=
  events.foldl (fun table event => event.applyTo table) table

theorem applyAll_append (first second : List StreamEvent) (table : StreamsTable) :
    applyAll (first ++ second) table = applyAll second (applyAll first table) :=
  List.foldl_append

theorem StreamsTable.ext_rows {table table' : StreamsTable} (h : table.rows = table'.rows) :
    table = table' := by
  cases table
  cases table'
  cases h
  rfl

theorem applyTo_created (event : StreamCreatedEvent) (table : StreamsTable) :
    ((StreamEvent.created event).applyTo table).rows = table.rows ++ [⟨event.input, .active⟩] ∧
        table.getById event.streamId = none ∨
      (StreamEvent.created event).applyTo table = table ∧ table.rows ≠ [] := by
  have hprogram : (StreamEvent.created event).applyTo table =
      (upsertStream event.input (Session.start table [])).2.store := by
    simp only [StreamEvent.applyTo, StreamEvent.program, StreamCreatedEvent.program, Bind.bind]
    cases upsertStream event.input (Session.start table []) with
    | mk r =>
      cases r with
      | ok | error => rfl
  rw [hprogram]
  rcases upsertStream_healthy (s := Session.start table []) rfl event.input with
    ⟨row, table', s', hinsert, hrun, hstore⟩ | ⟨hnone, hstore⟩
  · rcases table.insert_cases event.input with ⟨table'', hadded, _, hfree, hrows⟩ | ⟨hnone, _⟩
    · cases hinsert.symm.trans hadded
      rw [hrun]
      exact Or.inl ⟨(congrArg StreamsTable.rows hstore).trans hrows, hfree⟩
    · exact absurd hinsert (hnone _)
  · rcases table.insert_cases event.input with ⟨table'', hadded, _⟩ | ⟨_, htaken⟩
    · exact absurd hadded (hnone _)
    · refine Or.inr ⟨hstore, fun hempty => ?_⟩
      simp [StreamsTable.getById, hempty] at htaken

theorem applyTo_change {event : StreamEvent} {change : UpdateStreamInput}
    (hchange : event.change = some change) (table : StreamsTable) :
    (∃ row, table.updatable event.streamId change = some row ∧
      (event.applyTo table).rows =
        table.rows.map (StreamsTable.updateRow event.streamId row.status change)) ∨
    table.updatable event.streamId change = none ∧ event.applyTo table = table := by
  have hhealthy : (Session.start table []).Healthy := rfl
  -- what both handlers come to once the stream has been looked up
  have hupdate : ∀ (result : EventIngestionResult),
      event.applyTo table =
        ((do let _ ← updateStream event.streamId change; pure result)
          (Session.start table []).issue).2.store →
      (∃ row, table.updatable event.streamId change = some row ∧
        (event.applyTo table).rows =
          table.rows.map (StreamsTable.updateRow event.streamId row.status change)) ∨
      table.updatable event.streamId change = none ∧ event.applyTo table = table := by
    intro result happlied
    rcases updateStream_healthy hhealthy.issue event.streamId change with
      ⟨row, s', hrow, hrun, hrows⟩ | ⟨message, s', hnone, hrun, hstore⟩
    · simp only [Bind.bind, hrun] at happlied
      exact Or.inl ⟨row, hrow, (congrArg StreamsTable.rows happlied).trans hrows⟩
    · simp only [Bind.bind, hrun] at happlied
      exact Or.inr ⟨hnone, happlied.trans hstore⟩
  cases event with
  | created => cases hchange
  | cancelled event =>
    cases hchange
    exact hupdate ⟨event.eventId, event.streamId, .updated, true, none⟩ rfl
  | updated event =>
    cases hchange
    have hprogram : (StreamEvent.updated event).applyTo table =
        (event.program (Session.start table [])).2.store := rfl
    unfold StreamUpdatedEvent.program at hprogram
    rw [query_bind_healthy hhealthy] at hprogram
    cases hfound : table.getById event.streamId with
    | none =>
      refine Or.inr ⟨?_, ?_⟩
      · simp [StreamsTable.updatable, StreamEvent.streamId, hfound]
      · rw [hprogram]
        simp only [Session.start, hfound]
        rfl
    | some row =>
      simp only [Session.start, hfound] at hprogram
      by_cases hempty : event.update = {}
      · simp only [hempty, if_true] at hprogram
        refine Or.inl ⟨row, updatable_of_update_empty hempty hfound, ?_⟩
        rw [hprogram, hempty, map_updateRow_nothing]
        rfl
      · simp only [hempty, if_false] at hprogram
        exact hupdate ⟨event.eventId, event.streamId, .updated, true, none⟩ hprogram

theorem applyTo_of_absent {event : StreamEvent} {change : UpdateStreamInput}
    (hchange : event.change = some change) {table : StreamsTable}
    (habsent : table.getById event.streamId = none) : event.applyTo table = table := by
  rcases applyTo_change hchange table with ⟨row, hrow, _⟩ | ⟨_, hsame⟩
  · rw [StreamsTable.updatable, habsent] at hrow
    cases hrow
  · exact hsame

/-! ## Histories of a stream -/

/-- The events of one stream in the order of the chain. -/
structure StreamHistory where
  id : String
  events : List StreamEvent
  ofStream : ∀ event ∈ events, event.streamId = id
  positions : (events.map StreamEvent.position).Nodup

/-- Deliveries of the given events over a healthy connection, by a process that does
not restart and in which no key expires that was entered. -/
def Steady (events : List StreamEvent) (s : ServiceState) : ServiceLabel → Prop
  | .deliver event now outcomes =>
    event ∈ events ∧ outcomes = [] ∧
      ((∃ a ∈ s.log, a.event.Same event) → s.cache.isLive now event.key = true)
  | .restart => False

/-- Every event has been delivered, and reported as successful when it was delivered
last. -/
def Settled (events : List StreamEvent) (log : List Attempt) : Prop :=
  ∀ event ∈ events, (∃ a ∈ log, a.event.Same event) ∧ lastFailed log event = false

/-- However the events arrive, a stream that was not there before ends with the row
that they leave in the order of the chain. -/
def OrderIrrelevant (history : StreamHistory) : Prop :=
  ∀ (table : StreamsTable) (windowMs : ℕ) (s : ServiceState),
    table.getById history.id = none →
    Reaches serviceStep (Steady history.events) ⟨table, ⟨[], windowMs⟩, []⟩ s →
    Settled history.events s.log →
    s.table.getById history.id = (applyAll history.events table).getById history.id

/-- An event that has no effect on the row of a creation: it makes an active stream
active, or it repeats what the row has. -/
def StreamEvent.Idle (creation : StreamCreatedEvent) : StreamEvent → Prop
  | .updated event =>
    event.status = some .active ∨
      event.status = none ∧ event.update.Repeats ⟨creation.input, .active⟩
  | _ => False

theorem position_eq_of_streamId_eq {first second : StreamCreatedEvent}
    (h : first.streamId = second.streamId) :
    (StreamEvent.created first).position = (StreamEvent.created second).position := by
  have hkey : (StreamEvent.created first).key = (StreamEvent.created second).key := by
    show InMemoryDedupCache.cacheKey first.streamId first.streamId =
      InMemoryDedupCache.cacheKey second.streamId second.streamId
    rw [h]
  exact congrArg Prod.snd (StreamEvent.same_of_key_eq hkey)

namespace StreamHistory

variable {history : StreamHistory} {event other : StreamEvent}

theorem eq_of_position (hevent : event ∈ history.events) (hother : other ∈ history.events)
    (h : event.position = other.position) : event = other :=
  List.inj_on_of_nodup_map history.positions hevent hother h

theorem eq_of_same (hevent : event ∈ history.events) (hother : other ∈ history.events)
    (h : event.Same other) : event = other :=
  eq_of_position hevent hother (congrArg Prod.snd h)

theorem change_of_ne {creation : StreamCreatedEvent}
    (hcreation : .created creation ∈ history.events)
    (hevent : event ∈ history.events) (hne : event ≠ .created creation) :
    ∃ change, event.change = some change := by
  cases event with
  | updated | cancelled => exact ⟨_, rfl⟩
  | created =>
    refine absurd (eq_of_position hevent hcreation (position_eq_of_streamId_eq ?_)) hne
    exact (history.ofStream _ hevent).trans (history.ofStream _ hcreation).symm

end StreamHistory

theorem serviceStep_deliver {s s' : ServiceState} {event : StreamEvent} {now : ℕ}
    (hstep : serviceStep s (.deliver event now []) = some s') :
    (∃ a : Attempt, a.event = event ∧ s'.log = a :: s.log ∧
      (s.cache.isLive now event.key = true → a.result.success = true)) ∧
    s'.cache = (s.cache.add now event.streamId event.eventId).2 ∧
    s'.table = if s.cache.isLive now event.key = true then s.table else event.applyTo s.table := by
  simp only [serviceStep, processEvent_eq, processOnce] at hstep
  cases hlive : s.cache.isLive now event.key with
  | true =>
    have hsame : s.cache.add now event.streamId event.eventId = (false, s.cache) :=
      if_pos hlive
    rw [hsame] at hstep ⊢
    cases hstep
    exact ⟨⟨_, rfl, rfl, fun _ => rfl⟩, rfl, rfl⟩
  | false =>
    have hnew := s.cache.add_fst now event.streamId event.eventId
    rw [show s.cache.isLive now (InMemoryDedupCache.cacheKey event.streamId event.eventId) =
      false from hlive] at hnew
    cases hpair : s.cache.add now event.streamId event.eventId with
    | mk =>
      rw [hpair] at hnew hstep
      cases hnew
      have happly : event.applyTo s.table =
        (event.program (Session.start s.table [])).2.store := rfl
      cases hrun : event.program (Session.start s.table []) with
      | mk r =>
        rw [hrun] at happly
        simp only [hrun] at hstep
        cases r with
        | ok | error =>
          cases hstep
          exact ⟨⟨_, rfl, rfl, fun h => by cases h⟩, rfl, happly.symm⟩

/-! ## What counts is the order of the first deliveries -/

/-- The table is what the events that have been delivered leave, each applied once. -/
structure AppliedOnce (history : StreamHistory) (table : StreamsTable) (order : List StreamEvent)
    (s : ServiceState) : Prop where
  nodup : order.Nodup
  logged : ∀ event, event ∈ order ↔ ∃ a ∈ s.log, a.event = event
  ofHistory : ∀ event ∈ order, event ∈ history.events
  keys : ∀ key ∈ s.cache.seen.map Prod.fst, ∃ event ∈ order, event.key = key
  table : s.table = applyAll order table

namespace AppliedOnce

variable {history : StreamHistory} {table : StreamsTable} {order : List StreamEvent}
  {s s' : ServiceState} {event : StreamEvent} {now : ℕ}

theorem keys_deliver (h : AppliedOnce history table order s)
    (hstep : serviceStep s (.deliver event now []) = some s') {key : String}
    (hkey : key ∈ s'.cache.seen.map Prod.fst) :
    (∃ e ∈ order, e.key = key) ∨ key = event.key := by
  rw [(serviceStep_deliver hstep).2.1] at hkey
  rcases InMemoryDedupCache.mem_add hkey with hold | hnew
  · exact Or.inl (h.keys key hold)
  · exact Or.inr hnew

theorem again (h : AppliedOnce history table order s) (hlive : s.cache.isLive now event.key = true)
    (hdelivered : event ∈ order) (hstep : serviceStep s (.deliver event now []) = some s') :
    AppliedOnce history table order s' := by
  obtain ⟨⟨a, haevent, hlog, _⟩, _, htable⟩ := serviceStep_deliver hstep
  refine ⟨h.nodup, fun e => ?_, h.ofHistory, fun key hkey => ?_, ?_⟩
  · rw [h.logged, hlog]
    apply Iff.intro
    · rintro ⟨b, hb, hbevent⟩
      exact ⟨b, List.mem_cons_of_mem _ hb, hbevent⟩
    · rintro ⟨b, hb, hbevent⟩
      rcases List.mem_cons.mp hb with hnew | hold
      · rw [hnew, haevent] at hbevent
        exact (h.logged e).mp (hbevent ▸ hdelivered)
      · exact ⟨b, hold, hbevent⟩
  · rcases h.keys_deliver hstep hkey with hold | hnew
    · exact hold
    · exact ⟨event, hdelivered, hnew.symm⟩
  · rw [htable, if_pos hlive]
    exact h.table

theorem first (h : AppliedOnce history table order s) (hevent : event ∈ history.events)
    (hnew : event ∉ order) (hstep : serviceStep s (.deliver event now []) = some s') :
    AppliedOnce history table (order ++ [event]) s' := by
  obtain ⟨⟨a, haevent, hlog, _⟩, _, htable⟩ := serviceStep_deliver hstep
  have hlive : ¬ s.cache.isLive now event.key = true := by
    intro hlive
    obtain ⟨e, he, hkey⟩ := h.keys _ (InMemoryDedupCache.mem_of_isLive hlive)
    have hsame := StreamHistory.eq_of_same (h.ofHistory e he) hevent
      (StreamEvent.same_of_key_eq hkey)
    exact hnew (hsame ▸ he)
  refine ⟨h.nodup.append (List.nodup_singleton event) (List.disjoint_singleton.mpr hnew),
    fun e => ?_, fun e he => ?_, fun key hkey => ?_, ?_⟩
  · rw [List.mem_append, List.mem_singleton, h.logged, hlog]
    apply Iff.intro
    · rintro (⟨b, hb, hbevent⟩ | hlast)
      · exact ⟨b, List.mem_cons_of_mem _ hb, hbevent⟩
      · exact ⟨a, List.mem_cons_self, haevent.trans hlast.symm⟩
    · rintro ⟨b, hb, hbevent⟩
      rcases List.mem_cons.mp hb with hlast | hold
      · rw [hlast, haevent] at hbevent
        exact Or.inr hbevent.symm
      · exact Or.inl ⟨b, hold, hbevent⟩
  · rcases List.mem_append.mp he with hold | hlast
    · exact h.ofHistory e hold
    · rw [List.mem_singleton.mp hlast]
      exact hevent
  · rcases h.keys_deliver hstep hkey with ⟨e, he, heq⟩ | hlast
    · exact ⟨e, List.mem_append_left _ he, heq⟩
    · exact ⟨event, List.mem_append_right _ (List.mem_singleton.mpr rfl), hlast.symm⟩
  · rw [htable, if_neg hlive, h.table, applyAll_append]
    rfl

theorem step {label : ServiceLabel} (h : AppliedOnce history table order s)
    (hsteady : Steady history.events s label) (hstep : serviceStep s label = some s') :
    ∃ order', AppliedOnce history table order' s' := by
  cases label with
  | restart => exact hsteady.elim
  | deliver event =>
    obtain ⟨hevent, houtcomes, hknown⟩ := hsteady
    rw [houtcomes] at hstep
    by_cases hdelivered : event ∈ order
    · obtain ⟨a, ha, haevent⟩ := (h.logged event).mp hdelivered
      exact ⟨order, h.again (hknown ⟨a, ha, by rw [haevent]; rfl⟩) hdelivered hstep⟩
    · exact ⟨order ++ [event], h.first hevent hdelivered hstep⟩

theorem start (history : StreamHistory) (table : StreamsTable) (windowMs : ℕ) :
    AppliedOnce history table [] ⟨table, ⟨[], windowMs⟩, []⟩ :=
  ⟨List.nodup_nil, by simp, by simp, by simp, rfl⟩

end AppliedOnce

theorem exists_order_of_settled {history : StreamHistory} {table : StreamsTable} {windowMs : ℕ}
    {s : ServiceState}
    (hrun : Reaches serviceStep (Steady history.events) ⟨table, ⟨[], windowMs⟩, []⟩ s)
    (hsettled : Settled history.events s.log) :
    ∃ order, order.Perm history.events ∧ s.table = applyAll order table := by
  have hpreserved : ∀ s label s', (∃ order, AppliedOnce history table order s) →
      Steady history.events s label → serviceStep s label = some s' →
      ∃ order, AppliedOnce history table order s' := by
    rintro s label s' ⟨order, h⟩ hsteady hstep
    exact h.step hsteady hstep
  obtain ⟨order, h⟩ := Reaches.invariant hpreserved ⟨[], .start history table windowMs⟩ hrun
  have hnodup : history.events.Nodup := List.Nodup.of_map _ history.positions
  refine ⟨order, (List.perm_ext_iff_of_nodup h.nodup hnodup).mpr fun event => ?_, h.table⟩
  refine ⟨h.ofHistory event, fun hevent => ?_⟩
  obtain ⟨⟨a, ha, hsame⟩, _⟩ := hsettled event hevent
  have hmem : a.event ∈ order := (h.logged _).mpr ⟨a, ha, rfl⟩
  have heq : a.event = event := StreamHistory.eq_of_same (h.ofHistory _ hmem) hevent hsame
  exact heq ▸ hmem

theorem InMemoryDedupCache.isLive_add {cache : InMemoryDedupCache} {now : ℕ}
    {streamId eventId : String} (hwindow : 0 < cache.windowMs) :
    (cache.add now streamId eventId).2.isLive now (cacheKey streamId eventId) = true := by
  by_cases hlive : cache.isLive now (cacheKey streamId eventId) = true
  · rw [add, if_pos hlive]
    exact hlive
  · have hlookup : ∀ kept : List (String × ℕ),
        (∀ entry ∈ kept, entry.1 ≠ cacheKey streamId eventId) →
        (kept ++ [(cacheKey streamId eventId, now + cache.windowMs)]).lookup
          (cacheKey streamId eventId) = some (now + cache.windowMs) := by
      intro kept hkept
      have hnone : kept.lookup (cacheKey streamId eventId) = none := by
        rw [List.lookup_eq_none_iff]
        intro entry hentry
        simpa using fun h => hkept entry hentry h.symm
      rw [List.lookup_append, hnone, Option.none_or, List.lookup_cons_self]
    rw [add, if_neg hlive, isLive, hlookup]
    · simpa using hwindow
    · intro entry hentry
      have hmem : entry ∈ cache.seen.filter (·.1 ≠ cacheKey streamId eventId) := by
        split_ifs at hentry with hfull
        · exact List.mem_of_mem_tail hentry
        · exact hentry
      simpa using (List.mem_filter.mp hmem).2

theorem InMemoryDedupCache.windowMs_add (cache : InMemoryDedupCache) (now : ℕ)
    (streamId eventId : String) :
    (cache.add now streamId eventId).2.windowMs = cache.windowMs := by
  unfold add
  dsimp only
  split_ifs <;> rfl

theorem serviceStep_total (s : ServiceState) (label : ServiceLabel) :
    ∃ s', serviceStep s label = some s' := by
  cases label with
  | restart | deliver => exact ⟨_, rfl⟩

theorem lastFailed_cons_of_not_same {a : Attempt} {log : List Attempt} {event : StreamEvent}
    (h : ¬ a.event.Same event) : lastFailed (a :: log) event = lastFailed log event := by
  simp [lastFailed, h]

theorem AppliedOnce.twice {history : StreamHistory} {table : StreamsTable}
    {order : List StreamEvent} {s : ServiceState} {event : StreamEvent}
    (h : AppliedOnce history table order s) (hwindow : 0 < s.cache.windowMs)
    (hsettled : Settled order s.log) (hevent : event ∈ history.events) (hnew : event ∉ order) :
    ∃ s', Reaches serviceStep (Steady history.events) s s' ∧
      AppliedOnce history table (order ++ [event]) s' ∧ 0 < s'.cache.windowMs ∧
      Settled (order ++ [event]) s'.log := by
  have hfresh : ∀ e ∈ order, ¬ event.Same e := fun e he hsame =>
    hnew (StreamHistory.eq_of_same hevent (h.ofHistory e he) hsame ▸ he)
  obtain ⟨s₁, hfirst⟩ := serviceStep_total s (.deliver event 0 [])
  obtain ⟨⟨a, haevent, hlog, _⟩, hcache, _⟩ := serviceStep_deliver hfirst
  have happlied := h.first hevent hnew hfirst
  have hlive : s₁.cache.isLive 0 event.key = true := by
    rw [hcache]
    exact InMemoryDedupCache.isLive_add hwindow
  have hwindow₁ : 0 < s₁.cache.windowMs := by
    rw [hcache, InMemoryDedupCache.windowMs_add]
    exact hwindow
  obtain ⟨s₂, hsecond⟩ := serviceStep_total s₁ (.deliver event 0 [])
  obtain ⟨⟨b, hbevent, hlog₂, hsuccess⟩, hcache₂, _⟩ := serviceStep_deliver hsecond
  have hmem : event ∈ order ++ [event] := List.mem_append_right _ (List.mem_singleton.mpr rfl)
  have hunknown : ¬ ∃ a ∈ s.log, a.event.Same event := by
    rintro ⟨a, ha, hsame⟩
    have haorder : a.event ∈ order := (h.logged _).mpr ⟨a, ha, rfl⟩
    exact hfresh _ haorder hsame.symm
  refine ⟨s₂, ?_, happlied.again hlive hmem hsecond, ?_, fun e he => ?_⟩
  · have hrun := (Reaches.refl s).tail
      (show Steady history.events s (.deliver event 0 []) from
        ⟨hevent, rfl, fun hknown => absurd hknown hunknown⟩) hfirst
    exact hrun.tail
      (show Steady history.events s₁ (.deliver event 0 []) from
        ⟨hevent, rfl, fun _ => hlive⟩) hsecond
  · rw [hcache₂, InMemoryDedupCache.windowMs_add]
    exact hwindow₁
  · rw [hlog₂, hlog]
    rcases List.mem_append.mp he with hold | hlast
    · obtain ⟨⟨c, hc, hcsame⟩, hlastOk⟩ := hsettled e hold
      refine ⟨⟨c, List.mem_cons_of_mem _ (List.mem_cons_of_mem _ hc), hcsame⟩, ?_⟩
      rw [lastFailed_cons_of_not_same (hbevent ▸ hfresh e hold),
        lastFailed_cons_of_not_same (haevent ▸ hfresh e hold)]
      exact hlastOk
    · rw [List.mem_singleton.mp hlast]
      have hsame : b.event.Same event := by rw [hbevent]; rfl
      refine ⟨⟨b, List.mem_cons_self, hsame⟩, ?_⟩
      simp [lastFailed, hsame, hsuccess hlive]

theorem exists_settled_of_order {history : StreamHistory} {order : List StreamEvent}
    (horder : order.Perm history.events) (table : StreamsTable) :
    ∃ s, Reaches serviceStep (Steady history.events) ⟨table, ⟨[], 1⟩, []⟩ s ∧
      Settled history.events s.log ∧ s.table = applyAll order table := by
  have hnodup : order.Nodup :=
    horder.nodup_iff.mpr (List.Nodup.of_map _ history.positions)
  -- the induction is on what is still to be delivered
  have hrest : ∀ (rest done : List StreamEvent) (s : ServiceState),
      (∀ event ∈ rest, event ∈ history.events) → (done ++ rest).Nodup →
      AppliedOnce history table done s → 0 < s.cache.windowMs → Settled done s.log →
      ∃ s', Reaches serviceStep (Steady history.events) s s' ∧
        AppliedOnce history table (done ++ rest) s' ∧ Settled (done ++ rest) s'.log := by
    intro rest
    induction rest with
    | nil =>
      intro done s _ _ happlied _ hsettled
      rw [List.append_nil]
      exact ⟨s, Reaches.refl s, happlied, hsettled⟩
    | cons event _ ih =>
      intro done s hmem hnodup happlied hwindow hsettled
      have hnew : event ∉ done := fun h =>
        (List.nodup_append.mp hnodup).2.2 event h event List.mem_cons_self rfl
      rw [List.append_cons] at hnodup ⊢
      obtain ⟨s₁, hrun, happlied₁, hwindow₁, hsettled₁⟩ :=
        happlied.twice hwindow hsettled (hmem event List.mem_cons_self) hnew
      obtain ⟨s₂, hrun₂, happlied₂, hsettled₂⟩ := ih (done ++ [event]) s₁
        (fun e he => hmem e (List.mem_cons_of_mem _ he)) hnodup happlied₁ hwindow₁ hsettled₁
      exact ⟨s₂, hrun.trans hrun₂, happlied₂, hsettled₂⟩
  obtain ⟨s, hrun, happlied, hsettled⟩ := hrest order [] _ (fun e he => horder.mem_iff.mp he)
    hnodup (.start history table 1) Nat.one_pos (fun e he => absurd he List.not_mem_nil)
  exact ⟨s, hrun, fun e he => hsettled e (horder.mem_iff.mpr he), happlied.table⟩

theorem orderIrrelevant_iff_perm (history : StreamHistory) :
    OrderIrrelevant history ↔
      ∀ table : StreamsTable, table.getById history.id = none →
        ∀ order : List StreamEvent, order.Perm history.events →
          (applyAll order table).getById history.id =
            (applyAll history.events table).getById history.id := by
  apply Iff.intro
  · intro hirrelevant table habsent order horder
    obtain ⟨s, hrun, hsettled, htable⟩ := exists_settled_of_order horder table
    rw [← htable]
    exact hirrelevant table 1 s habsent hrun hsettled
  · intro hperm table windowMs s habsent hrun hsettled
    obtain ⟨order, horder, htable⟩ := exists_order_of_settled hrun hsettled
    rw [htable]
    exact hperm table habsent order horder

/-! ## When the order is irrelevant -/

theorem applyAll_eq_self {events : List StreamEvent} {table : StreamsTable}
    (h : ∀ event ∈ events, event.applyTo table = table) : applyAll events table = table := by
  induction events with
  | nil => rfl
  | cons event _ ih =>
    rw [applyAll, List.foldl_cons, h event List.mem_cons_self]
    exact ih fun e he => h e (List.mem_cons_of_mem _ he)

theorem applyAll_eq_of_others {events : List StreamEvent} {table : StreamsTable}
    {creation : StreamEvent} (hnodup : events.Nodup) (hmem : creation ∈ events)
    (hothers : ∀ event ∈ events, event ≠ creation → event.applyTo table = table ∧
      event.applyTo (creation.applyTo table) = creation.applyTo table) :
    applyAll events table = creation.applyTo table := by
  obtain ⟨before, after, hsplit⟩ := List.append_of_mem hmem
  rw [hsplit] at hnodup hothers ⊢
  rw [List.nodup_middle, List.nodup_cons, List.mem_append, not_or] at hnodup
  obtain ⟨⟨hbefore, hafter⟩, _⟩ := hnodup
  have hfirst : applyAll before table = table := applyAll_eq_self fun e he =>
    (hothers e (List.mem_append_left _ he) fun h => hbefore (h ▸ he)).1
  have hlast : applyAll after (creation.applyTo table) = creation.applyTo table :=
    applyAll_eq_self fun e he =>
      (hothers e (List.mem_append_right _ (List.mem_cons_of_mem _ he)) fun h =>
        hafter (h ▸ he)).2
  rw [applyAll_append, hfirst]
  exact hlast

theorem getById_applyTo_created (creation : StreamCreatedEvent) (table : StreamsTable) :
    (StreamEvent.created creation).applyTo table = table ∧ table.rows ≠ [] ∨
      ((StreamEvent.created creation).applyTo table).getById creation.streamId =
        some ⟨creation.input, .active⟩ := by
  rcases applyTo_created creation table with ⟨hrows, _⟩ | hsame
  · refine Or.inr (StreamsTable.getById_eq_some_iff.mpr ⟨?_, rfl⟩)
    rw [hrows]
    exact List.mem_append_right _ (List.mem_singleton.mpr rfl)
  · exact Or.inl hsame

theorem applyTo_idle {creation : StreamCreatedEvent} {event : StreamEvent} {table : StreamsTable}
    (hidle : event.Idle creation)
    (hrow : table.getById event.streamId = some ⟨creation.input, .active⟩) :
    event.applyTo table = table := by
  cases event with
  | created | cancelled => exact hidle.elim
  | updated event =>
    have hchange : (StreamEvent.updated event).change = some event.update := rfl
    rcases applyTo_change hchange table with ⟨row, hupdatable, hrows⟩ | ⟨_, hsame⟩
    · obtain ⟨hfound, hvalid⟩ := StreamsTable.updatable_eq_some_iff.mp hupdatable
      cases hrow.symm.trans hfound
      rcases hidle with hactive | ⟨hstatus, hrepeats⟩
      · -- an active stream is not made active
        have hstatus : event.update.status = some .active := hactive
        rw [hstatus] at hvalid
        cases hvalid
      · have hself : ∀ row' ∈ table.rows,
            StreamsTable.updateRow (StreamEvent.updated event).streamId .active event.update
              row' = row' := by
          intro row' hmem
          rw [StreamsTable.updateRow]
          split_ifs with hguard
          · have hsame := StreamsTable.getById_eq_some_iff.mpr ⟨hmem, hguard.1⟩
            cases hfound.symm.trans hsame
            exact assign_eq_self hstatus hrepeats
          · rfl
        apply StreamsTable.ext_rows
        rw [hrows, List.map_congr_left hself, List.map_id']
    · exact hsame

theorem idle_of_applyTo {creation : StreamCreatedEvent} {event : StreamEvent}
    {change : UpdateStreamInput} (hchange : event.change = some change) {table : StreamsTable}
    (hrow : table.getById event.streamId = some ⟨creation.input, .active⟩)
    (hsame : (event.applyTo table).getById event.streamId = some ⟨creation.input, .active⟩) :
    event.Idle creation := by
  have hassign : change.status.all (isValidStatusTransition .active) = true →
      StreamsTable.assign change ⟨creation.input, .active⟩ = ⟨creation.input, .active⟩ := by
    intro hvalid
    rcases applyTo_change hchange table with ⟨row, hupdatable, hrows⟩ | ⟨hnone, _⟩
    · cases hrow.symm.trans (StreamsTable.updatable_eq_some_iff.mp hupdatable).1
      rw [StreamsTable.getById_of_rows_map hrows, hrow, Option.map_some,
        StreamsTable.updateRow,
        if_pos ⟨(StreamsTable.getById_eq_some_iff.mp hrow).2, rfl⟩] at hsame
      exact Option.some.inj hsame
    · rw [StreamsTable.updatable, hrow, Option.filter_some, if_pos hvalid] at hnone
      cases hnone
  cases event with
  | created => cases hchange
  | cancelled =>
    cases hchange
    cases congrArg StreamRecord.status (hassign rfl)
  | updated event =>
    cases hchange
    cases hstatus : event.status with
    | some target =>
      by_cases hactive : target = .active
      · exact Or.inl (hactive ▸ hstatus)
      · have hvalid : event.update.status.all (isValidStatusTransition .active) = true := by
          rw [show event.update.status = some target from hstatus]
          cases target with
          | active => exact absurd rfl hactive
          | paused | completed | cancelled => rfl
        have hmoved := congrArg StreamRecord.status (hassign hvalid)
        rw [StreamsTable.assign, show event.update.status = some target from hstatus]
          at hmoved
        exact absurd hmoved hactive
    | none =>
      have hvalid : event.update.status.all (isValidStatusTransition .active) = true := by
        rw [show event.update.status = none from hstatus]
        rfl
      have hfields := hassign hvalid
      refine Or.inr ⟨hstatus, fun amount hamount => ?_, fun amount hamount => ?_,
        fun time htime => ?_⟩
      · have h := congrArg (·.streamedAmount) hfields
        simpa [StreamsTable.assign, Option.mem_def.mp hamount] using h
      · have h := congrArg (·.remainingAmount) hfields
        simpa [StreamsTable.assign, Option.mem_def.mp hamount] using h
      · have h := congrArg (·.endTime) hfields
        simpa [StreamsTable.assign, Option.mem_def.mp htime] using h

theorem exists_perm_cons_cons {α : Type} {first second : α} {events : List α}
    (hfirst : first ∈ events) (hsecond : second ∈ events) (hne : second ≠ first) :
    ∃ others, events.Perm (first :: second :: others) := by
  obtain ⟨before, after, hsplit⟩ := List.append_of_mem hfirst
  have hmem : second ∈ before ++ after := by
    rw [hsplit, List.mem_append, List.mem_cons] at hsecond
    rw [List.mem_append]
    exact hsecond.imp_right fun h => h.resolve_left hne
  obtain ⟨before', after', hsplit'⟩ := List.append_of_mem hmem
  refine ⟨before' ++ after', ?_⟩
  rw [hsplit]
  apply List.perm_middle.trans
  apply List.Perm.cons
  rw [hsplit']
  exact List.perm_middle

/-- An event that cancels the stream. -/
def cancellationSample : StreamEvent := .cancelled ⟨"C", ⟨"cd", rfl⟩, 1, "ab-0"⟩

/-- A stream that is created and then cancelled. -/
def cancelledHistory : StreamHistory where
  id := "ab-0"
  events := [createdSample, cancellationSample]
  ofStream := by
    intro event hevent
    rcases List.mem_cons.mp hevent with rfl | hevent
    · rfl
    · rw [List.mem_singleton.mp hevent]
      rfl
  positions := by decide

end Fluxora.Streams
