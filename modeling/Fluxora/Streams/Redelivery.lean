/-
# Redelivered events

An event is delivered again until it is reported as processed, so an answer that it is known
already must mean that it has been applied, and a delivery that failed must be tried when it comes
again.

The keys of the dedup cache are entered before the database is asked. The promise holds in every
history in which a failed event does not come back while its key is live, and in which no update
event is without a field that counts; such an update is answered as ignored and is not applied.
-/

import Fluxora.Lib.JsText
import Fluxora.Lib.Transition
import Fluxora.Streams.EventService

namespace Fluxora.Streams

open Lib Lib.Statements Lib.Transition

/-! ## The same event -/

namespace StreamEvent

def transactionHash : StreamEvent → TransactionHash
  | .created event => event.transactionHash
  | .updated event => event.transactionHash
  | .cancelled event => event.transactionHash

def eventIndex : StreamEvent → ℕ
  | .created event => event.eventIndex
  | .updated event => event.eventIndex
  | .cancelled event => event.eventIndex

def streamId : StreamEvent → String
  | .created event => event.streamId
  | .updated event => event.streamId
  | .cancelled event => event.streamId

def eventId (event : StreamEvent) : String :=
  deriveStreamEventId event.transactionHash.text event.eventIndex

def program : StreamEvent → Program StreamsTable EventIngestionResult
  | .created event => event.program
  | .updated event => event.program
  | .cancelled event => event.program

def failure : StreamEvent → String → EventIngestionResult
  | .created event => event.failure
  | .updated event => event.failure
  | .cancelled event => event.failure

/-- The transaction and the index of an event, with the stream it is about. -/
def identity (event : StreamEvent) : String × String × ℕ :=
  (event.streamId, event.transactionHash.text, event.eventIndex)

/-- Two deliveries of one event. -/
def Same (a b : StreamEvent) : Prop := a.identity = b.identity

instance (a b : StreamEvent) : Decidable (a.Same b) :=
  inferInstanceAs (Decidable (a.identity = b.identity))

/-- The key of an event in the dedup cache. -/
def key (event : StreamEvent) : String :=
  InMemoryDedupCache.cacheKey event.streamId event.eventId

/-- An update with a field that counts, or an event of another kind. -/
def carriesChange : StreamEvent → Bool
  | .updated event => event.update ≠ {}
  | _ => true

end StreamEvent

theorem TransactionHash.notMem_of_notHex {c : Char} (hash : TransactionHash)
    (hc : isHexDigit c = false) : c ∉ hash.text.toList := by
  intro hmem
  have hhex := List.all_eq_true.mp hash.hex c hmem
  exact absurd (hc.symm.trans hhex) Bool.false_ne_true

theorem StreamEvent.same_of_key_eq {a b : StreamEvent} (h : a.key = b.key) : a.Same b := by
  have hlist : ∀ e : StreamEvent, e.key.toList = e.streamId.toList ++ ':' ::
      (e.transactionHash.text.toList ++ '-' :: (toString e.eventIndex).toList) := by
    intro e
    simp [StreamEvent.key, InMemoryDedupCache.cacheKey, StreamEvent.eventId,
      deriveStreamEventId]
  -- neither separator occurs in a hash or in a number
  have hcolon : ∀ e : StreamEvent,
      ':' ∉ e.transactionHash.text.toList ++ '-' :: (toString e.eventIndex).toList := by
    intro e hmem
    rcases List.mem_append.mp hmem with hhash | hrest
    · exact e.transactionHash.notMem_of_notHex rfl hhash
    · rcases List.mem_cons.mp hrest with hdash | hdigit
      · exact absurd hdash (by decide)
      · exact absurd (DigitText.isDigit_of_mem_toString hdigit) (by decide)
  have hdash : ∀ e : StreamEvent, '-' ∉ (toString e.eventIndex).toList := fun e hmem =>
    absurd (DigitText.isDigit_of_mem_toString hmem) (by decide)
  have htext : a.key.toList = b.key.toList := by rw [h]
  rw [hlist, hlist] at htext
  obtain ⟨hstream, hrest⟩ := JsText.append_separator_inj (hcolon a) (hcolon b) htext
  obtain ⟨hhash, hindex⟩ := JsText.append_separator_inj (hdash a) (hdash b) hrest
  rw [StreamEvent.Same, StreamEvent.identity, StreamEvent.identity,
    String.toList_inj.mp hstream, String.toList_inj.mp hhash,
    DigitText.toString_nat_inj (String.toList_inj.mp hindex)]

/-! ## One delivery -/

/-- The event that a row stands for. -/
def StreamRecord.identity (row : StreamRecord) : String × String × ℕ :=
  (deriveStreamId row.transactionHash row.eventIndex, row.transactionHash, row.eventIndex)

theorem StreamRecord.identity_eq {row row' : StreamRecord} (h : row.position = row'.position) :
    row.identity = row'.identity := by
  have hhash : row.transactionHash = row'.transactionHash := congrArg Prod.fst h
  have hindex : row.eventIndex = row'.eventIndex := congrArg Prod.snd h
  rw [StreamRecord.identity, StreamRecord.identity, hhash, hindex]

theorem StreamRecord.identity_created {row : StreamRecord} {event : StreamCreatedEvent}
    (h : row.position = event.input.position) :
    row.identity = (StreamEvent.created event).identity := by
  have hhash : row.transactionHash = event.transactionHash.text := congrArg Prod.fst h
  have hindex : row.eventIndex = event.eventIndex := congrArg Prod.snd h
  rw [StreamRecord.identity, hhash, hindex]
  rfl

/-- The outcome of applying an event. An event that is reported as applied has been
written, and one that is ignored has its row in the table or carries nothing; a row
that was not there before is the event's own. -/
structure Processed (event : StreamEvent) (s : Session StreamsTable)
    (r : Except String EventIngestionResult) (s' : Session StreamsTable) : Prop where
  issued : s.issued < s'.issued
  rows : ∀ row ∈ s'.store.rows, (∃ row' ∈ s.store.rows, row'.identity = row.identity) ∨
    row.identity = event.identity ∧ s'.written = true
  ignored : ∀ result, r = .ok result → result.action = .ignored →
    (∃ row ∈ s.store.rows, row.identity = event.identity) ∨ event.carriesChange = false
  applied : ∀ result, r = .ok result → result.action ≠ .ignored → result.success = true →
    s'.written = true

theorem SamePositions.identities {before after : StreamsTable} (h : SamePositions before after)
    {row : StreamRecord} (hrow : row ∈ after.rows) :
    ∃ row' ∈ before.rows, row'.identity = row.identity := by
  have hposition : row.position ∈ before.rows.map StreamRecord.position := by
    rw [← h]
    exact List.mem_map_of_mem hrow
  obtain ⟨row', hrow', heq⟩ := List.mem_map.mp hposition
  exact ⟨row', hrow', StreamRecord.identity_eq heq⟩

theorem Processed.of_error {event : StreamEvent} {s s' : Session StreamsTable} {message : String}
    (hissued : s.issued < s'.issued)
    (hrows : ∀ row ∈ s'.store.rows, (∃ row' ∈ s.store.rows, row'.identity = row.identity) ∨
      row.identity = event.identity ∧ s'.written = true) :
    Processed event s (.error message) s' :=
  ⟨hissued, hrows, fun _ h => (by cases h), fun _ h => (by cases h)⟩

theorem processed_of_updated {event : StreamEvent} {s s₁ : Session StreamsTable}
    (hissued : s.issued ≤ s₁.issued) (hstore : s₁.store = s.store) {id : String}
    {change : UpdateStreamInput} {result : EventIngestionResult}
    (haction : result.action ≠ .ignored) :
    Ensures (do let _ ← updateStream id change; pure result) s₁ (Processed event s) := by
  apply Ensures.bind updateStream_spec
  · intro row s' hupdated
    have hpositions : SamePositions s.store s'.store := hstore ▸ hupdated.positions
    apply Ensures.pure
    refine ⟨Nat.lt_of_le_of_lt hissued hupdated.issued,
      fun row hr => Or.inl (hpositions.identities hr), ?_, ?_⟩
    · intro _ hresult hignored
      cases hresult
      exact absurd hignored haction
    · exact fun _ _ _ _ => hupdated.written row rfl
  · intro message s' hupdated
    have hpositions : SamePositions s.store s'.store := hstore ▸ hupdated.positions
    exact Processed.of_error (Nat.lt_of_le_of_lt hissued hupdated.issued)
      fun row hr => Or.inl (hpositions.identities hr)

theorem created_spec (event : StreamCreatedEvent) (s : Session StreamsTable) :
    Ensures event.program s (Processed (.created event) s) := by
  have hrows : ∀ s' : Session StreamsTable, (∀ row ∈ s'.store.rows, row ∈ s.store.rows ∨
      row.position = event.input.position ∧ s'.written = true) →
      ∀ row ∈ s'.store.rows, (∃ row' ∈ s.store.rows, row'.identity = row.identity) ∨
        row.identity = (StreamEvent.created event).identity ∧ s'.written = true := by
    intro s' h row hr
    rcases h row hr with hold | ⟨hposition, hwritten⟩
    · exact Or.inl ⟨row, hold, rfl⟩
    · exact Or.inr ⟨StreamRecord.identity_created hposition, hwritten⟩
  apply Ensures.bind upsertStream_spec
  · intro result s' hupserted
    apply Ensures.pure
    refine ⟨hupserted.issued, hrows s' hupserted.rows, ?_, ?_⟩
    · intro _ hresult hignored
      cases hresult
      cases hcreated : result.created with
      | true =>
        rw [hcreated] at hignored
        cases hignored
      | false =>
        obtain ⟨row, hrow, hposition⟩ := hupserted.existing result rfl hcreated
        exact Or.inl ⟨row, hrow, StreamRecord.identity_created hposition⟩
    · intro _ hresult happlied _
      cases hresult
      cases hcreated : result.created with
      | true => exact hupserted.created result rfl hcreated
      | false =>
        rw [hcreated] at happlied
        exact absurd rfl happlied
  · exact fun message s' hupserted =>
      Processed.of_error hupserted.issued (hrows s' hupserted.rows)

theorem program_spec (event : StreamEvent) (s : Session StreamsTable) :
    Ensures event.program s (Processed event s) := by
  have hunchanged : ∀ row ∈ s.store.rows, (∃ row' ∈ s.store.rows, row'.identity = row.identity) ∨
      row.identity = event.identity ∧ s.issue.written = true :=
    fun row hr => Or.inl ⟨row, hr, rfl⟩
  have hlater : s.issued ≤ s.issue.issued := Nat.le_succ _
  have herror : ∀ message, Processed event s (.error message) s.issue :=
    fun message => Processed.of_error (Nat.lt_succ_self _) hunchanged
  cases event with
  | created event => exact created_spec event s
  | updated =>
    apply Ensures.query_bind _ herror
    split
    · -- the stream is not there, which is a failure
      apply Ensures.pure
      refine ⟨Nat.lt_succ_self _, hunchanged, ?_, ?_⟩
      · intro _ hresult hignored
        cases hresult
        cases hignored
      · intro _ hresult _ hsuccess
        cases hresult
        cases hsuccess
    · split_ifs with hempty
      · apply Ensures.pure
        refine ⟨Nat.lt_succ_self _, hunchanged, fun _ _ _ => Or.inr ?_, ?_⟩
        · simp [StreamEvent.carriesChange, hempty]
        · intro _ hresult happlied
          cases hresult
          exact absurd rfl happlied
      · exact processed_of_updated hlater rfl Action.noConfusion
  | cancelled =>
    exact Ensures.query_bind (processed_of_updated hlater rfl Action.noConfusion) herror

theorem processEvent_eq (event : StreamEvent) :
    processEvent event =
      processOnce event.eventId event.streamId event.failure event.program := by
  cases event <;> rfl

theorem StreamEvent.failure_reported (event : StreamEvent) (message : String) :
    (event.failure message).action ≠ .ignored ∧ (event.failure message).success = false := by
  cases event with
  | created | updated | cancelled => exact ⟨Action.noConfusion, rfl⟩

/-! ## Histories -/

/-- One call in the history: what it answered, whether it went to the database and
whether it wrote. -/
structure Attempt where
  event : StreamEvent
  result : EventIngestionResult
  attempted : Bool
  applied : Bool

structure ServiceState where
  table : StreamsTable
  cache : InMemoryDedupCache
  log : List Attempt

inductive ServiceLabel
  /-- A call at a time, with what its statements will meet. -/
  | deliver (event : StreamEvent) (now : ℕ) (outcomes : List Outcome)
  /-- The process restarts and forgets the cache. -/
  | restart

def ServiceState.initial (windowMs : ℕ) : ServiceState := ⟨.empty, ⟨[], windowMs⟩, []⟩

def serviceStep (s : ServiceState) : ServiceLabel → Option ServiceState
  | .deliver event now outcomes =>
    let (result, cache, session) :=
      processEvent event now s.cache (Session.start s.table outcomes)
    some
      { table := session.store
        cache := cache
        log := ⟨event, result, 0 < session.issued, session.written⟩ :: s.log }
  | .restart => some { s with cache := { s.cache with seen := [] } }

/-- The latest call for an event has failed. -/
def lastFailed (log : List Attempt) (event : StreamEvent) : Bool :=
  (log.find? (·.event.Same event)).any (!·.result.success)

/-- What is promised of a call after earlier ones: it says that the event is known
only if one of them applied it, and it tries again what has failed. -/
structure Honest (attempt : Attempt) (earlier : List Attempt) : Prop where
  known : attempt.result.action = .ignored → attempt.result.success = true →
    ∃ a ∈ earlier, a.event.Same attempt.event ∧ a.applied = true
  retried : lastFailed earlier attempt.event = true → attempt.attempted = true

/-- Every call of a history keeps the promise. -/
def NothingSwallowed : List Attempt → Prop
  | [] => True
  | attempt :: earlier => Honest attempt earlier ∧ NothingSwallowed earlier

/-- The event that is delivered carries a change, and if its last call has failed, its
key is no longer live. -/
def RetriedWhenForgotten (s : ServiceState) : ServiceLabel → Prop
  | .deliver event now _ =>
    event.carriesChange = true ∧
      (lastFailed s.log event = true → s.cache.isLive now event.key = false)
  | .restart => True

/-- Every key was entered by a call, every row was written by one, and every success
goes back to a call that applied the event. -/
structure LogInv (s : ServiceState) : Prop where
  keys : ∀ key ∈ s.cache.seen.map Prod.fst, ∃ a ∈ s.log, a.event.key = key
  rows : ∀ row ∈ s.table.rows, ∃ a ∈ s.log, a.event.identity = row.identity ∧ a.applied = true
  successes : ∀ a ∈ s.log, a.result.success = true →
    ∃ b ∈ s.log, b.event.Same a.event ∧ b.applied = true
  honest : NothingSwallowed s.log

variable {s : ServiceState}

theorem LogInv.applied_of_called (h : LogInv s) {event : StreamEvent}
    (hcalled : ∃ a ∈ s.log, a.event.Same event) (hlast : lastFailed s.log event = false) :
    ∃ b ∈ s.log, b.event.Same event ∧ b.applied = true := by
  obtain ⟨last, hfound⟩ : ∃ last, s.log.find? (·.event.Same event) = some last := by
    obtain ⟨a, ha, hsame⟩ := hcalled
    rw [← Option.isSome_iff_exists, List.find?_isSome]
    exact ⟨a, ha, decide_eq_true hsame⟩
  have hsame : last.event.Same event := by simpa using List.find?_some hfound
  have hsuccess : last.result.success = true := by simpa [lastFailed, hfound] using hlast
  obtain ⟨b, hb, hbsame, happlied⟩ :=
    h.successes last (List.mem_of_find?_eq_some hfound) hsuccess
  exact ⟨b, hb, hbsame.trans hsame, happlied⟩

theorem LogInv.push (h : LogInv s) {attempt : Attempt} {table : StreamsTable}
    {cache : InMemoryDedupCache} (hkeys : ∀ key ∈ cache.seen.map Prod.fst,
      key ∈ s.cache.seen.map Prod.fst ∨ key = attempt.event.key)
    (hrows : ∀ row ∈ table.rows, (∃ row' ∈ s.table.rows, row'.identity = row.identity) ∨
      row.identity = attempt.event.identity ∧ attempt.applied = true)
    (happlied : attempt.result.action ≠ .ignored → attempt.result.success = true →
      attempt.applied = true)
    (hhonest : Honest attempt s.log) : LogInv ⟨table, cache, attempt :: s.log⟩ where
  keys key hkey := by
    rcases hkeys key hkey with hold | hnew
    · obtain ⟨a, ha, heq⟩ := h.keys key hold
      exact ⟨a, List.mem_cons_of_mem _ ha, heq⟩
    · exact ⟨attempt, List.mem_cons_self, hnew.symm⟩
  rows row hrow := by
    rcases hrows row hrow with ⟨row', hold, heq⟩ | ⟨hown, hwritten⟩
    · obtain ⟨a, ha, hidentity, hdone⟩ := h.rows row' hold
      exact ⟨a, List.mem_cons_of_mem _ ha, hidentity.trans heq, hdone⟩
    · exact ⟨attempt, List.mem_cons_self, hown.symm, hwritten⟩
  successes a ha hsuccess := by
    rcases List.mem_cons.mp ha with hnew | hold
    · rw [hnew] at hsuccess ⊢
      by_cases hignored : attempt.result.action = .ignored
      · obtain ⟨b, hb, hsame, hdone⟩ := hhonest.known hignored hsuccess
        exact ⟨b, List.mem_cons_of_mem _ hb, hsame, hdone⟩
      · exact ⟨attempt, List.mem_cons_self, rfl, happlied hignored hsuccess⟩
    · obtain ⟨b, hb, hsame, hdone⟩ := h.successes a hold hsuccess
      exact ⟨b, List.mem_cons_of_mem _ hb, hsame, hdone⟩
  honest := ⟨hhonest, h.honest⟩

theorem LogInv.duplicate (h : LogInv s) {event : StreamEvent} {now : ℕ}
    (hlive : s.cache.isLive now event.key = true) (hlast : lastFailed s.log event = false)
    {result : EventIngestionResult} (haction : result.action = .ignored) :
    LogInv ⟨s.table, s.cache, ⟨event, result, false, false⟩ :: s.log⟩ := by
  obtain ⟨a, ha, hkey⟩ := h.keys event.key (InMemoryDedupCache.mem_of_isLive hlive)
  have hcalled : ∃ a ∈ s.log, a.event.Same event :=
    ⟨a, ha, StreamEvent.same_of_key_eq hkey⟩
  apply h.push
  · exact fun key hk => Or.inl hk
  · exact fun row hr => Or.inl ⟨row, hr, rfl⟩
  · exact fun happlied => absurd haction happlied
  · refine ⟨fun _ _ => h.applied_of_called hcalled hlast, fun hfailed => ?_⟩
    exact absurd (hlast.symm.trans hfailed) Bool.false_ne_true

theorem LogInv.attempt (h : LogInv s) {event : StreamEvent} (hchange : event.carriesChange = true)
    {outcomes : List Outcome} {session : Session StreamsTable}
    {r : Except String EventIngestionResult}
    (hprocessed : Processed event (Session.start s.table outcomes) r session)
    {result : EventIngestionResult}
    (hresult : r = .ok result ∨ result.action ≠ .ignored ∧ result.success = false)
    {cache : InMemoryDedupCache} (hkeys : ∀ key ∈ cache.seen.map Prod.fst,
      key ∈ s.cache.seen.map Prod.fst ∨ key = event.key) :
    LogInv ⟨session.store, cache,
      ⟨event, result, 0 < session.issued, session.written⟩ :: s.log⟩ := by
  apply h.push hkeys hprocessed.rows
  · intro happlied hsuccess
    rcases hresult with hok | ⟨_, hfailed⟩
    · exact hprocessed.applied result hok happlied hsuccess
    · exact absurd (hfailed.symm.trans hsuccess) Bool.false_ne_true
  · refine ⟨fun hignored _ => ?_, fun _ => ?_⟩
    · rcases hresult with hok | ⟨hother, _⟩
      · rcases hprocessed.ignored result hok hignored with ⟨row, hrow, hidentity⟩ | hnothing
        · obtain ⟨a, ha, heq, hdone⟩ := h.rows row hrow
          exact ⟨a, ha, heq.trans hidentity, hdone⟩
        · exact absurd (hnothing.symm.trans hchange) Bool.false_ne_true
      · exact absurd hignored hother
    · exact decide_eq_true (Nat.lt_of_le_of_lt (Nat.zero_le _) hprocessed.issued)

theorem LogInv.step {s' : ServiceState} {label : ServiceLabel} (h : LogInv s)
    (hallowed : RetriedWhenForgotten s label) (hstep : serviceStep s label = some s') :
    LogInv s' := by
  cases label with
  | restart =>
    cases hstep
    exact ⟨fun _ hkey => absurd hkey List.not_mem_nil, h.rows, h.successes, h.honest⟩
  | deliver event now outcomes =>
    obtain ⟨hchange, hforgotten⟩ := hallowed
    simp only [serviceStep, processEvent_eq, processOnce] at hstep
    have hadd := s.cache.add_fst now event.streamId event.eventId
    cases hlive : s.cache.isLive now event.key with
    | true =>
      have hlast : lastFailed s.log event = false := by
        rw [Bool.eq_false_iff]
        exact fun hfailed => absurd (hlive.symm.trans (hforgotten hfailed)) (by decide)
      have hsame : s.cache.add now event.streamId event.eventId = (false, s.cache) :=
        if_pos hlive
      rw [hsame] at hstep
      cases hstep
      exact h.duplicate hlive hlast rfl
    | false =>
      have hnew : (s.cache.add now event.streamId event.eventId).1 = true := by
        rw [hadd]
        exact congrArg not hlive
      have hkeys : ∀ key ∈ (s.cache.add now event.streamId event.eventId).2.seen.map
          Prod.fst, key ∈ s.cache.seen.map Prod.fst ∨ key = event.key :=
        fun _ hkey => InMemoryDedupCache.mem_add hkey
      have hprocessed := program_spec event (Session.start s.table outcomes)
      unfold Ensures at hprocessed
      cases hpair : s.cache.add now event.streamId event.eventId with
      | mk =>
        rw [hpair] at hnew hkeys hstep
        cases hnew
        cases hrun : event.program (Session.start s.table outcomes) with
        | mk r =>
          rw [hrun] at hprocessed
          simp only [hrun] at hstep
          cases r with
          | ok =>
            cases hstep
            exact h.attempt hchange hprocessed (Or.inl rfl) hkeys
          | error message =>
            cases hstep
            exact h.attempt hchange hprocessed
              (Or.inr (event.failure_reported message)) hkeys

theorem LogInv.initial (windowMs : ℕ) : LogInv (.initial windowMs) where
  keys _ h := absurd h List.not_mem_nil
  rows _ h := absurd h List.not_mem_nil
  successes _ h := absurd h List.not_mem_nil
  honest := trivial

/-! ## All histories -/

/-- In every history in which a failed event comes back only when its key is no longer
live, and in which every update carries a change, no event is swallowed. -/
theorem nothing_swallowed (windowMs : ℕ) {s : ServiceState}
    (hrun : Reaches serviceStep RetriedWhenForgotten (.initial windowMs) s) :
    NothingSwallowed s.log :=
  (Reaches.invariant (fun _ _ _ h hallowed hstep => h.step hallowed hstep)
    (LogInv.initial windowMs) hrun).honest

/-- An event that creates a stream. -/
def createdSample : StreamEvent :=
  .created ⟨"C", ⟨"ab", rfl⟩, 0, "G1", "G2", "10", "1", 0, 10⟩

/-- A delivery that fails, one after the window of its key, which applies the event, and
one more, which is a duplicate. -/
theorem nothing_swallowed_retry :
    ∃ s, Reaches serviceStep RetriedWhenForgotten (.initial 1000) s ∧
      s.log.map (fun a => (a.result.action, a.result.success, a.attempted)) =
        [(.ignored, true, false), (.created, true, true), (.created, false, true)] ∧
      NothingSwallowed s.log := by
  have hfirst : RetriedWhenForgotten (.initial 1000)
      (.deliver createdSample 0 [.failed "connection refused"]) := ⟨rfl, fun _ => rfl⟩
  have hstart : Reaches serviceStep RetriedWhenForgotten (.initial 1000) (.initial 1000) :=
    Reaches.refl _
  have hone := hstart.tail hfirst rfl
  have htwo := hone.tail
    (show RetriedWhenForgotten _ (.deliver createdSample 1000 []) from ⟨rfl, fun _ => rfl⟩) rfl
  have hrun := htwo.tail
    (show RetriedWhenForgotten _ (.deliver createdSample 1500 []) from
      ⟨rfl, fun hfailed => absurd hfailed (by decide)⟩) rfl
  exact ⟨_, hrun, rfl, nothing_swallowed 1000 hrun⟩

/-- A delivery that fails and comes back one millisecond later is answered as ignored
and is not tried again. -/
theorem nothing_swallowed_fails :
    ¬ ∀ s, Reaches serviceStep (fun _ _ => True) (.initial 86400000) s →
      NothingSwallowed s.log := by
  intro hclaim
  have hrun := Reaches.of_run (fun _ _ _ => trivial)
    (show run serviceStep (.initial 86400000)
      [.deliver createdSample 0 [.failed "connection refused"],
       .deliver createdSample 1 []] = some _ from rfl)
  have hretried := (hclaim _ hrun).1.retried (by decide)
  exact absurd hretried (by decide)

end Fluxora.Streams
