/-
# Create requests and their idempotency keys

`POST /api/streams` looks its idempotency key up in a store, inserts the stream when nothing is
stored, and then stores the answer for the requests that come later. The lookup, the statements on
the database and the storing are separate steps, and the steps of different requests come in any
order, with any time between them.

A lookup does not reserve the key.
-/

import Fluxora.Lib.Transition
import Fluxora.Serialization.Stream
import Fluxora.Streams.CreateInput

namespace Fluxora.Streams

open Lib Lib.Statements Lib.Transition Serialization

/-! ## The idempotency store -/

/-- An answer that is kept for replays. -/
structure IdempotentEntry where
  requestFingerprint : String
  statusCode : ℕ
  body : Stream

/-- What is stored under a key. -/
inductive StoredValue
  | inProgress
  | entry (entry : IdempotentEntry)

/-- The values with their deadlines in milliseconds. -/
structure IdempotencyStore where
  values : String → Option (StoredValue × ℕ)

namespace IdempotencyStore

def empty : IdempotencyStore := ⟨fun _ => none⟩

def buildKey (key tenantId : String) : String :=
  "fluxora:idempotency:" ++ tenantId ++ ":" ++ key

/-- What is stored under a key and has not expired. -/
def get (store : IdempotencyStore) (now : ℕ) (fullKey : String) : Option StoredValue :=
  ((store.values fullKey).filter (now < ·.2)).map Prod.fst

/-- Keep an answer, from now until the time to live is over. -/
def set (store : IdempotencyStore) (now ttlSeconds : ℕ) (fullKey : String)
    (entry : IdempotentEntry) : IdempotencyStore :=
  let deadline := now + ttlSeconds * 1000
  if deadline ≤ now then store
  else ⟨fun key => if key = fullKey then some (.entry entry, deadline) else store.values key⟩

end IdempotencyStore

/-! ## Requests -/

/-- The digest and the configured time to live, which is at least a second. -/
structure CreateConfig where
  sha256 : String → String
  ttlSeconds : ℕ
  ttlSeconds_pos : 0 < ttlSeconds

structure CreateRequest where
  tenantId : String
  idempotencyKey : String
  body : Json

def CreateRequest.fullKey (request : CreateRequest) : String :=
  IdempotencyStore.buildKey request.idempotencyKey request.tenantId

inductive CreateAnswer
  /-- 201 with `Idempotency-Replayed: false`. -/
  | created (stream : Stream)
  /-- The stored status with `Idempotency-Replayed: true`. -/
  | replayed (statusCode : ℕ) (stream : Stream)
  /-- 409, an identical request is already being processed. -/
  | inProgress
  /-- 409, the key has already been used for a different request payload. -/
  | differentPayload
  /-- An error of the database. -/
  | failed (message : String)

/-- Where a request is: the step that comes next. -/
inductive CreatePhase
  | reading
  | inserting
  | findingById
  | findingByEvent
  | storing (row : StreamRecord)
  | answered (answer : CreateAnswer)

/-- A request whose body has been accepted. -/
structure CreateCall where
  request : CreateRequest
  input : ApiCreateStreamInput
  phase : CreatePhase

structure ApiState where
  now : ℕ
  table : StreamsTable
  store : IdempotencyStore
  calls : ℕ → Option CreateCall

section

variable (cfg : CreateConfig)

/-- What a lookup leads to. -/
def CreateCall.afterLookup (call : CreateCall) : Option StoredValue → CreatePhase
  | some .inProgress => .answered .inProgress
  | some (.entry entry) =>
    if entry.requestFingerprint ≠ call.input.fingerprintInput cfg.sha256 then
      .answered .differentPayload
    else .answered (.replayed entry.statusCode entry.body)
  | none => .inserting

/-- The answer that is kept for a row. -/
def CreateCall.entry (call : CreateCall) (row : StreamRecord) : IdempotentEntry where
  requestFingerprint := call.input.fingerprintInput cfg.sha256
  statusCode := 201
  body := toApiStream row

/-- The next step of a request: where it is then, with the table and the store. -/
def CreateCall.next (s : ApiState) (call : CreateCall) :
    Option (CreatePhase × StreamsTable × IdempotencyStore) :=
  match call.phase with
  | .reading =>
    some (call.afterLookup cfg (s.store.get s.now call.request.fullKey), s.table, s.store)
  | .inserting =>
    match s.table.insert (call.input.row cfg.sha256) with
    | .ok (some (row, table)) => some (.storing row, table, s.store)
    | .ok none => some (.findingById, s.table, s.store)
    | .error message => some (.answered (.failed message), s.table, s.store)
  | .findingById =>
    match s.table.getById (call.input.row cfg.sha256).id with
    | some row => some (.storing row, s.table, s.store)
    | none => some (.findingByEvent, s.table, s.store)
  | .findingByEvent =>
    match s.table.getByEvent (call.input.idHash cfg.sha256) 0 with
    | some row => some (.storing row, s.table, s.store)
    | none =>
      some (.answered (.failed
        "Idempotency conflict: stream not found after insert conflict"), s.table, s.store)
  | .storing row =>
    some (.answered (.created (toApiStream row)), s.table,
      s.store.set s.now cfg.ttlSeconds call.request.fullKey (call.entry cfg row))
  | .answered _ => none

/-! ## The system -/

inductive ApiLabel
  /-- Time passes. -/
  | tick (ms : ℕ)
  /-- A request arrives. -/
  | receive (call : ℕ) (request : CreateRequest)
  /-- The next step of a request. -/
  | advance (call : ℕ)
  /-- A guarded update by a cancellation or by another writer. -/
  | update (id : String) (guard : StreamStatus) (change : UpdateStreamInput)

/-- The state after a step of a request. -/
def ApiState.put (s : ApiState) (table : StreamsTable) (store : IdempotencyStore) (call : ℕ)
    (next : CreateCall) : ApiState :=
  { s with
    table
    store
    calls := fun other => if other = call then some next else s.calls other }

/-- A body that is refused is answered at once and leaves no trace. -/
def apiStep (s : ApiState) : ApiLabel → Option ApiState
  | .tick ms => some { s with now := s.now + ms }
  | .receive call request =>
    match s.calls call with
    | some _ => none
    | none =>
      match parseCreateStreamBody s.now request.body with
      | .error _ => some s
      | .ok input => some (s.put s.table s.store call ⟨request, input, .reading⟩)
  | .advance call =>
    (s.calls call).bind fun current =>
      (current.next cfg s).map fun (phase, table, store) =>
        s.put table store call { current with phase }
  | .update id guard change =>
    match s.table.guardedUpdate id guard change with
    | .ok (some (_, table)) => some { s with table }
    | _ => some s

end

/-! ## What a step can do -/

/-- The steps of a request that is not answered yet. -/
inductive Move (cfg : CreateConfig) (s : ApiState) (call : CreateCall) :
    CreatePhase → StreamsTable → IdempotencyStore → Prop
  | busy (phase : call.phase = .reading)
      (stored : s.store.get s.now call.request.fullKey = some .inProgress) :
      Move cfg s call (.answered .inProgress) s.table s.store
  | replay (entry : IdempotentEntry) (phase : call.phase = .reading)
      (stored : s.store.get s.now call.request.fullKey = some (.entry entry))
      (same : entry.requestFingerprint = call.input.fingerprintInput cfg.sha256) :
      Move cfg s call (.answered (.replayed entry.statusCode entry.body)) s.table s.store
  | refuse (entry : IdempotentEntry) (phase : call.phase = .reading)
      (stored : s.store.get s.now call.request.fullKey = some (.entry entry))
      (other : entry.requestFingerprint ≠ call.input.fingerprintInput cfg.sha256) :
      Move cfg s call (.answered .differentPayload) s.table s.store
  | miss (phase : call.phase = .reading)
      (absent : s.store.get s.now call.request.fullKey = none) :
      Move cfg s call .inserting s.table s.store
  | insert (table : StreamsTable) (phase : call.phase = .inserting)
      (free : (call.input.row cfg.sha256).position ∉ s.table.rows.map StreamRecord.position)
      (rows : table.rows = s.table.rows ++ [⟨call.input.row cfg.sha256, .active⟩]) :
      Move cfg s call (.storing ⟨call.input.row cfg.sha256, .active⟩) table s.store
  | conflict (phase : call.phase = .inserting)
      (taken : (call.input.row cfg.sha256).position ∈ s.table.rows.map StreamRecord.position) :
      Move cfg s call .findingById s.table s.store
  | idTaken (message : String) (phase : call.phase = .inserting)
      (free : (call.input.row cfg.sha256).position ∉ s.table.rows.map StreamRecord.position)
      (taken : (call.input.row cfg.sha256).id ∈ s.table.rows.map (·.id)) :
      Move cfg s call (.answered (.failed message)) s.table s.store
  | foundById (row : StreamRecord) (phase : call.phase = .findingById)
      (found : s.table.getById (call.input.row cfg.sha256).id = some row) :
      Move cfg s call (.storing row) s.table s.store
  | notById (phase : call.phase = .findingById)
      (absent : s.table.getById (call.input.row cfg.sha256).id = none) :
      Move cfg s call .findingByEvent s.table s.store
  | foundByEvent (row : StreamRecord) (phase : call.phase = .findingByEvent)
      (found : s.table.getByEvent (call.input.idHash cfg.sha256) 0 = some row) :
      Move cfg s call (.storing row) s.table s.store
  | notByEvent (message : String) (phase : call.phase = .findingByEvent)
      (absent : s.table.getByEvent (call.input.idHash cfg.sha256) 0 = none) :
      Move cfg s call (.answered (.failed message)) s.table s.store
  | store (row : StreamRecord) (phase : call.phase = .storing row) :
      Move cfg s call (.answered (.created (toApiStream row))) s.table
        (s.store.set s.now cfg.ttlSeconds call.request.fullKey (call.entry cfg row))

variable {cfg : CreateConfig} {s s' : ApiState}

theorem move_of_next {call : CreateCall} {phase : CreatePhase} {table : StreamsTable}
    {store : IdempotencyStore} (h : call.next cfg s = some (phase, table, store)) :
    Move cfg s call phase table store := by
  unfold CreateCall.next at h
  split at h
  · rename_i hphase
    cases h
    cases hstored : s.store.get s.now call.request.fullKey with
    | none => exact .miss hphase hstored
    | some value =>
      cases value with
      | inProgress => exact .busy hphase hstored
      | entry entry =>
        rw [CreateCall.afterLookup]
        split_ifs with hother
        · exact .refuse entry hphase hstored hother
        · exact .replay entry hphase hstored (not_not.mp hother)
  · rename_i hphase
    unfold StreamsTable.insert at h
    split_ifs at h with hposition hid
    · cases h
      exact .conflict hphase hposition
    · cases h
      exact .idTaken _ hphase hposition hid
    · cases h
      exact .insert _ hphase hposition rfl
  · rename_i hphase
    split at h
    · rename_i row hrow
      cases h
      exact .foundById row hphase hrow
    · rename_i hrow
      cases h
      exact .notById hphase hrow
  · rename_i hphase
    split at h
    · rename_i row hrow
      cases h
      exact .foundByEvent row hphase hrow
    · rename_i hrow
      cases h
      exact .notByEvent _ hphase hrow
  · rename_i row hphase
    cases h
    exact .store row hphase
  · cases h

/-- The steps of the system. -/
inductive ApiMove (cfg : CreateConfig) (s : ApiState) : ApiLabel → ApiState → Prop
  | tick (ms : ℕ) : ApiMove cfg s (.tick ms) { s with now := s.now + ms }
  | refused (call : ℕ) (request : CreateRequest) : ApiMove cfg s (.receive call request) s
  | accepted (call : ℕ) (request : CreateRequest) (input : ApiCreateStreamInput)
      (fresh : s.calls call = none)
      (parsed : parseCreateStreamBody s.now request.body = .ok input) :
      ApiMove cfg s (.receive call request) (s.put s.table s.store call ⟨request, input, .reading⟩)
  | advance (call : ℕ) (current : CreateCall) (phase : CreatePhase) (table : StreamsTable)
      (store : IdempotencyStore) (present : s.calls call = some current)
      (move : Move cfg s current phase table store) :
      ApiMove cfg s (.advance call) (s.put table store call { current with phase })
  | updated (id : String) (guard : StreamStatus) (change : UpdateStreamInput)
      (table : StreamsTable)
      (rows : table.rows = s.table.rows.map (StreamsTable.updateRow id guard change)) :
      ApiMove cfg s (.update id guard change) { s with table }
  | unchanged (id : String) (guard : StreamStatus) (change : UpdateStreamInput) :
      ApiMove cfg s (.update id guard change) s

theorem apiMove_of_step {label : ApiLabel} (h : apiStep cfg s label = some s') :
    ApiMove cfg s label s' := by
  cases label with
  | tick ms =>
    cases h
    exact .tick ms
  | receive call request =>
    simp only [apiStep] at h
    split at h
    · cases h
    · rename_i hfresh
      split at h
      · cases h
        exact .refused call request
      · rename_i input hparsed
        cases h
        exact .accepted call request input hfresh hparsed
  | advance call =>
    simp only [apiStep, Option.bind_eq_some_iff, Option.map_eq_some_iff] at h
    obtain ⟨current, hpresent, ⟨phase, table, store⟩, hnext, rfl⟩ := h
    exact .advance call current phase table store hpresent (move_of_next hnext)
  | update id guard change =>
    simp only [apiStep] at h
    rcases s.table.guardedUpdate_cases id guard change with
      ⟨row, table, _, _, hanswer, hrows⟩ | ⟨_, hanswer⟩
    · rw [hanswer] at h
      cases h
      exact .updated id guard change table hrows
    · rw [hanswer] at h
      cases h
      exact .unchanged id guard change

/-! ## Calls and keys after a step -/

theorem ApiState.calls_put_self (s : ApiState) (table : StreamsTable) (store : IdempotencyStore)
    (call : ℕ) (next : CreateCall) : (s.put table store call next).calls call = some next :=
  if_pos rfl

theorem ApiState.calls_put_of_ne {table : StreamsTable} {store : IdempotencyStore}
    {call other : ℕ} {next : CreateCall} (hne : other ≠ call) :
    (s.put table store call next).calls other = s.calls other := if_neg hne

theorem ApiState.calls_put {table : StreamsTable} {store : IdempotencyStore} {call other : ℕ}
    {next current : CreateCall} (h : (s.put table store call next).calls other = some current) :
    other = call ∧ current = next ∨ other ≠ call ∧ s.calls other = some current := by
  by_cases hother : other = call
  · rw [hother, calls_put_self] at h
    exact Or.inl ⟨hother, (Option.some.inj h).symm⟩
  · rw [calls_put_of_ne hother] at h
    exact Or.inr ⟨hother, h⟩

namespace IdempotencyStore

variable {store : IdempotencyStore} {now ttlSeconds : ℕ} {fullKey : String}

theorem get_eq_some_iff {value : StoredValue} :
    store.get now fullKey = some value ↔
      ∃ deadline, store.values fullKey = some (value, deadline) ∧ now < deadline := by
  rw [get]
  cases hstored : store.values fullKey with
  | none => simp
  | some stored =>
    obtain ⟨value', deadline⟩ := stored
    by_cases hlive : now < deadline
    · simp [Option.filter, hlive]
    · simp [Option.filter, hlive]

theorem values_set (httl : 0 < ttlSeconds) (entry : IdempotentEntry) :
    (store.set now ttlSeconds fullKey entry).values = fun key =>
      if key = fullKey then some (.entry entry, now + ttlSeconds * 1000)
      else store.values key := by
  have hlater : ¬ now + ttlSeconds * 1000 ≤ now := by omega
  simp only [set, if_neg hlater]

end IdempotencyStore

/-- Ids of the form the API gives belong to the digest they are made of. -/
def OwnIds (table : StreamsTable) : Prop :=
  ∀ row ∈ table.rows, ∀ hash, row.id = ApiCreateStreamInput.apiStreamId hash →
    row.position = (hash, 0)

theorem apiStreamId_inj {hash hash' : String}
    (h : ApiCreateStreamInput.apiStreamId hash = ApiCreateStreamInput.apiStreamId hash') :
    hash = hash' := by
  rw [ApiCreateStreamInput.apiStreamId, ApiCreateStreamInput.apiStreamId,
    ← String.toList_inj] at h
  apply String.toList_inj.mp
  simpa using h

theorem position_row_of_id {sha256 : String → String} {input input' : ApiCreateStreamInput}
    (h : (input.row sha256).id = (input'.row sha256).id) :
    (input.row sha256).position = (input'.row sha256).position :=
  congrArg (·, 0) (apiStreamId_inj h)

theorem OwnIds.insert {table table' : StreamsTable} (h : OwnIds table)
    {input : ApiCreateStreamInput}
    (hrows : table'.rows = table.rows ++ [⟨input.row cfg.sha256, .active⟩]) : OwnIds table' := by
  intro row hrow hash hid
  rw [hrows] at hrow
  rcases List.mem_append.mp hrow with hold | hnew
  · exact h row hold hash hid
  · rw [List.mem_singleton.mp hnew] at hid ⊢
    rw [← apiStreamId_inj hid]
    rfl

theorem OwnIds.update {table table' : StreamsTable} (h : OwnIds table) {id : String}
    {guard : StreamStatus} {change : UpdateStreamInput}
    (hrows : table'.rows = table.rows.map (StreamsTable.updateRow id guard change)) :
    OwnIds table' := by
  intro row hrow hash hid
  rw [hrows] at hrow
  obtain ⟨before, hbefore, rfl⟩ := List.mem_map.mp hrow
  obtain ⟨hsame, hposition⟩ := StreamsTable.updateRow_keys id guard change before
  rw [hsame] at hid
  rw [hposition]
  exact h before hbefore hash hid

theorem OwnIds.position_of_id {table : StreamsTable} (h : OwnIds table)
    {input : ApiCreateStreamInput} {row : StreamRecord}
    (hfound : table.getById (input.row cfg.sha256).id = some row) :
    row.position = (input.row cfg.sha256).position := by
  obtain ⟨hmem, hid⟩ := StreamsTable.getById_eq_some_iff.mp hfound
  exact h row hmem _ hid

theorem OwnIds.taken_of_id {table : StreamsTable} (h : OwnIds table)
    {input : ApiCreateStreamInput}
    (htaken : (input.row cfg.sha256).id ∈ table.rows.map (·.id)) :
    (input.row cfg.sha256).position ∈ table.rows.map StreamRecord.position := by
  obtain ⟨row, hrow, hid⟩ := List.mem_map.mp htaken
  exact List.mem_map.mpr ⟨row, hrow, h row hrow _ hid⟩

/-! ## A request on its own -/

theorem apiStep_receive {call : ℕ} {request : CreateRequest} {input : ApiCreateStreamInput}
    (hfresh : s.calls call = none)
    (hparsed : parseCreateStreamBody s.now request.body = .ok input) :
    apiStep cfg s (.receive call request) =
      some (s.put s.table s.store call ⟨request, input, .reading⟩) := by
  simp only [apiStep, hfresh, hparsed]

theorem apiStep_advance {call : ℕ} {current : CreateCall} {phase : CreatePhase}
    {table : StreamsTable} {store : IdempotencyStore} (hcall : s.calls call = some current)
    (hnext : current.next cfg s = some (phase, table, store)) :
    apiStep cfg s (.advance call) = some (s.put table store call { current with phase }) := by
  simp only [apiStep, hcall, Option.bind_some, hnext, Option.map_some]

/-- The steps that a request can still take, at most. -/
def CreatePhase.remaining : CreatePhase → ℕ
  | .reading => 5
  | .inserting => 4
  | .findingById => 3
  | .findingByEvent => 2
  | .storing _ => 1
  | .answered _ => 0

theorem CreateCall.next_total (cfg : CreateConfig) (s : ApiState) (call : CreateCall)
    (hopen : ∀ answer, call.phase ≠ .answered answer) :
    ∃ phase table store, call.next cfg s = some (phase, table, store) ∧
      phase.remaining < call.phase.remaining := by
  unfold CreateCall.next
  cases hphase : call.phase with
  | reading =>
    refine ⟨_, _, _, rfl, ?_⟩
    cases s.store.get s.now call.request.fullKey with
    | none => exact Nat.lt_succ_self 4
    | some value =>
      cases value with
      | inProgress => exact Nat.succ_pos 4
      | entry =>
        rw [CreateCall.afterLookup]
        split_ifs <;> exact Nat.succ_pos 4
  | inserting =>
    cases s.table.insert (call.input.row cfg.sha256) with
    | error => exact ⟨_, _, _, rfl, Nat.succ_pos 3⟩
    | ok result =>
      cases result with
      | none => exact ⟨_, _, _, rfl, Nat.lt_succ_self 3⟩
      | some => exact ⟨_, _, _, rfl, Nat.lt_add_of_pos_left (Nat.succ_pos 2)⟩
  | findingById =>
    cases s.table.getById (call.input.row cfg.sha256).id with
    | none => exact ⟨_, _, _, rfl, Nat.lt_succ_self 2⟩
    | some => exact ⟨_, _, _, rfl, Nat.lt_add_of_pos_left (Nat.succ_pos 1)⟩
  | findingByEvent =>
    cases s.table.getByEvent (call.input.idHash cfg.sha256) 0 with
    | none => exact ⟨_, _, _, rfl, Nat.succ_pos 1⟩
    | some => exact ⟨_, _, _, rfl, Nat.lt_succ_self 1⟩
  | storing => exact ⟨_, _, _, rfl, Nat.succ_pos 0⟩
  | answered answer => exact absurd hphase (hopen answer)

/-- With steps of its own the request gets to where `next` is, and the table is then as
given. -/
def Arrives (cfg : CreateConfig) (s : ApiState) (call : ℕ) (table : StreamsTable)
    (next : CreateCall) : Prop :=
  ∃ n s', run (apiStep cfg) s (List.replicate n (.advance call)) = some s' ∧
    s'.table = table ∧ s'.calls call = some next

theorem Arrives.here {call : ℕ} {next : CreateCall} (hcall : s.calls call = some next) :
    Arrives cfg s call s.table next :=
  ⟨0, s, rfl, rfl, hcall⟩

theorem Arrives.step {call : ℕ} {current next : CreateCall} {phase : CreatePhase}
    {table final : StreamsTable} {store : IdempotencyStore} (hcall : s.calls call = some current)
    (hnext : current.next cfg s = some (phase, table, store))
    (hrest : Arrives cfg (s.put table store call { current with phase }) call final next) :
    Arrives cfg s call final next := by
  obtain ⟨n, s', hrun, hlast⟩ := hrest
  refine ⟨n + 1, s', ?_, hlast⟩
  rw [List.replicate_succ, run_cons (apiStep_advance hcall hnext)]
  exact hrun

theorem Arrives.last {call : ℕ} {current : CreateCall} {phase : CreatePhase}
    {table final : StreamsTable} {store : IdempotencyStore} (hcall : s.calls call = some current)
    (hnext : current.next cfg s = some (phase, table, store)) (hfinal : final = table) :
    Arrives cfg s call final { current with phase } := by
  rw [hfinal]
  exact Arrives.step hcall hnext (Arrives.here (s.calls_put_self table store call _))

/-- Every request that has been accepted is answered when it takes its steps. -/
def Answerable (cfg : CreateConfig) (s : ApiState) : Prop :=
  ∀ call current, s.calls call = some current →
    ∃ table answer, Arrives cfg s call table { current with phase := .answered answer }

theorem answerable (cfg : CreateConfig) (s : ApiState) : Answerable cfg s := by
  intro call current hcall
  -- the induction is on the steps that remain
  induction hremaining : current.phase.remaining using Nat.strong_induction_on
    generalizing s current with
  | _ _ ih =>
    by_cases hanswered : ∃ answer, current.phase = .answered answer
    · obtain ⟨answer, hanswer⟩ := hanswered
      refine ⟨s.table, answer, Arrives.here ?_⟩
      rw [hcall, ← hanswer]
    · obtain ⟨phase, table, store, hnext, hless⟩ :=
        current.next_total cfg s fun answer h => hanswered ⟨answer, h⟩
      obtain ⟨final, answer, harrives⟩ :=
        ih phase.remaining (hremaining ▸ hless) _ { current with phase }
          (s.calls_put_self table store call { current with phase }) rfl
      exact ⟨final, answer, Arrives.step hcall hnext harrives⟩

/-- `createStreamFromApi`, over a connection. -/
def createStreamFromApi (sha256 : String → String) (input : ApiCreateStreamInput) :
    Program StreamsTable UpsertResult :=
  upsertStream (input.row sha256)

/-- Where the repository's answer takes a request. -/
def CreatePhase.ofUpsert : Except String UpsertResult → CreatePhase
  | .ok result => .storing result.stream
  | .error message => .answered (.failed message)

/-- What the program does after a conflict. -/
def findExisting (sha256 : String → String) (input : ApiCreateStreamInput) :
    Program StreamsTable UpsertResult := do
  match ← query (·.getById (input.row sha256).id) with
  | some existing => pure ⟨false, existing⟩
  | none =>
    match ← query (·.getByEvent (input.idHash sha256) 0) with
    | some byEvent => pure ⟨false, byEvent⟩
    | none => fail "Idempotency conflict: stream not found after insert conflict"

variable {session : Session StreamsTable} {call : ℕ} {current : CreateCall}

theorem findExisting_alone (hhealthy : session.Healthy) (hstore : session.store = s.table)
    (hcall : s.calls call = some current) (hphase : current.phase = .findingById) :
    Arrives cfg s call (findExisting cfg.sha256 current.input session).2.store
      { current with
        phase := .ofUpsert (findExisting cfg.sha256 current.input session).1 } := by
  unfold findExisting
  rw [query_bind_healthy hhealthy, hstore]
  cases hfound : s.table.getById (current.input.row cfg.sha256).id with
  | some row =>
    have hnext : current.next cfg s = some (.storing row, s.table, s.store) := by
      simp only [CreateCall.next, hphase, hfound]
    exact Arrives.last hcall hnext hstore
  | none =>
    have hnext : current.next cfg s = some (.findingByEvent, s.table, s.store) := by
      simp only [CreateCall.next, hphase, hfound]
    have hcall' := s.calls_put_self s.table s.store call
      { current with phase := .findingByEvent }
    apply Arrives.step hcall hnext
    dsimp only
    rw [query_bind_healthy hhealthy.issue, show session.issue.store = s.table from hstore]
    cases hevent : s.table.getByEvent (current.input.idHash cfg.sha256) 0 with
    | some row =>
      have hlast : ({ current with phase := .findingByEvent } : CreateCall).next cfg
          (s.put s.table s.store call { current with phase := .findingByEvent }) =
            some (.storing row, s.table, s.store) := by
        simp only [CreateCall.next, ApiState.put, hevent]
      have harrives := Arrives.last hcall' hlast hstore
      exact harrives
    | none =>
      have hlast : ({ current with phase := .findingByEvent } : CreateCall).next cfg
          (s.put s.table s.store call { current with phase := .findingByEvent }) =
            some (.answered (.failed
              "Idempotency conflict: stream not found after insert conflict"), s.table,
              s.store) := by
        simp only [CreateCall.next, ApiState.put, hevent]
      have harrives := Arrives.last hcall' hlast hstore
      exact harrives

theorem apiStep_miss (hcall : s.calls call = some current) (hphase : current.phase = .reading)
    (hstore : s.store.values current.request.fullKey = none) :
    apiStep cfg s (.advance call) =
      some (s.put s.table s.store call { current with phase := .inserting }) := by
  apply apiStep_advance hcall
  simp [CreateCall.next, hphase, IdempotencyStore.get, hstore, CreateCall.afterLookup]

theorem apiStep_insert (cfg : CreateConfig) (hcall : s.calls call = some current)
    (hphase : current.phase = .inserting)
    (hposition : (current.input.row cfg.sha256).position ∉ s.table.rows.map StreamRecord.position)
    (hid : s.table.getById (current.input.row cfg.sha256).id = none) :
    ∃ table, apiStep cfg s (.advance call) =
        some (s.put table s.store call
          { current with phase := .storing ⟨current.input.row cfg.sha256, .active⟩ }) ∧
      table.rows = s.table.rows ++ [⟨current.input.row cfg.sha256, .active⟩] := by
  rcases s.table.insert_cases (current.input.row cfg.sha256) with
    ⟨table, hinsert, _, _, hrows⟩ | ⟨_, htaken⟩
  · refine ⟨table, apiStep_advance hcall ?_, hrows⟩
    simp only [CreateCall.next, hphase, hinsert]
  · rcases htaken with htaken | htaken
    · exact absurd htaken hposition
    · exact absurd hid htaken

/-- A request that finds nothing stored and both keys free is carried out when it is left
alone: the row is added and the answer is kept. -/
theorem exists_carried_out (cfg : CreateConfig) {allowed : ApiState → ApiLabel → Prop}
    {request : CreateRequest} {input : ApiCreateStreamInput} (hfresh : s.calls call = none)
    (hparsed : parseCreateStreamBody s.now request.body = .ok input)
    (hstore : s.store.values request.fullKey = none)
    (hposition : (input.row cfg.sha256).position ∉ s.table.rows.map StreamRecord.position)
    (hid : s.table.getById (input.row cfg.sha256).id = none)
    (hallowed : ∀ s' label, label = .receive call request ∨ label = .advance call →
      s'.now = s.now → s'.store = s.store →
      (∀ other, other ≠ call → s'.calls other = s.calls other) →
      (∀ current, s'.calls call = some current → current.input = input ∧
        current.phase ≠ .findingById ∧ current.phase ≠ .findingByEvent) → allowed s' label) :
    ∃ s', Reaches (apiStep cfg) allowed s s' ∧ s'.now = s.now ∧
      (∀ other, other ≠ call → s'.calls other = s.calls other) ∧
      s'.calls call = some
        ⟨request, input, .answered (.created (toApiStream ⟨input.row cfg.sha256, .active⟩))⟩ ∧
      s'.table.rows = s.table.rows ++ [⟨input.row cfg.sha256, .active⟩] ∧
      s'.store.values = fun key => if key = request.fullKey then
        some (.entry ⟨input.fingerprintInput cfg.sha256, 201,
          toApiStream ⟨input.row cfg.sha256, .active⟩⟩, s.now + cfg.ttlSeconds * 1000)
        else s.store.values key := by
  have hsame : ∀ {s' : ApiState} {table : StreamsTable} {store : IdempotencyStore}
      {next : CreateCall}, (∀ other, other ≠ call → s'.calls other = s.calls other) →
      ∀ other, other ≠ call → (s'.put table store call next).calls other = s.calls other :=
    fun h other hne => (ApiState.calls_put_of_ne hne).trans (h other hne)
  have hothers : ∀ other, other ≠ call → s.calls other = s.calls other := fun _ _ => rfl
  -- a request that has met no conflict
  have hown : ∀ {s' : ApiState} {table : StreamsTable} {store : IdempotencyStore}
      {phase : CreatePhase}, phase ≠ .findingById → phase ≠ .findingByEvent →
      ∀ current, (s'.put table store call ⟨request, input, phase⟩).calls call = some current →
        current.input = input ∧ current.phase ≠ .findingById ∧
          current.phase ≠ .findingByEvent := by
    intro s' table store phase hById hByEvent current hcurrent
    cases (ApiState.calls_put_self _ _ _ _ _).symm.trans hcurrent
    exact ⟨rfl, hById, hByEvent⟩
  have hstart : Reaches (apiStep cfg) allowed s s := Reaches.refl s
  have hreceived := hstart.tail
    (hallowed s _ (Or.inl rfl) rfl rfl hothers fun current hcurrent => by
      cases hfresh.symm.trans hcurrent)
    (apiStep_receive hfresh hparsed)
  have hmissed := hreceived.tail
    (hallowed _ _ (Or.inr rfl) rfl rfl (hsame hothers)
      (hown CreatePhase.noConfusion CreatePhase.noConfusion))
    (apiStep_miss (ApiState.calls_put_self _ _ _ _ _) rfl hstore)
  obtain ⟨table, hinsert, hrows⟩ := apiStep_insert cfg
    (ApiState.calls_put_self (s.put s.table s.store call ⟨request, input, .reading⟩) s.table s.store
      call ⟨request, input, .inserting⟩) rfl hposition hid
  have hinserted := hmissed.tail
    (hallowed _ _ (Or.inr rfl) rfl rfl (hsame (hsame hothers))
      (hown CreatePhase.noConfusion CreatePhase.noConfusion)) hinsert
  have hcreated := hinserted.tail
    (hallowed _ _ (Or.inr rfl) rfl rfl (hsame (hsame (hsame hothers)))
      (hown CreatePhase.noConfusion CreatePhase.noConfusion))
    (apiStep_advance (ApiState.calls_put_self _ _ _ _ _) rfl)
  exact ⟨_, hcreated, rfl, hsame (hsame (hsame (hsame hothers))),
    ApiState.calls_put_self _ _ _ _ _, hrows,
    IdempotencyStore.values_set cfg.ttlSeconds_pos _⟩

/-! ## Sample requests -/

/-- A stream of ten from the given second on. -/
def sampleInput (startTime : ℕ) : ApiCreateStreamInput where
  sender := "GAAAAAAAAAAAAAAAAAAAAAAAAAAAAAAAAAAAAAAAAAAAAAAAAAAAAAAA"
  recipient := "GBBBBBBBBBBBBBBBBBBBBBBBBBBBBBBBBBBBBBBBBBBBBBBBBBBBBBBB"
  depositAmount := "10"
  ratePerSecond := "0"
  startTime := startTime
  endTime := 0

/-- A body for it, with or without the start. -/
def sampleBody (startTime : Option ℕ) : Json :=
  .object ([("sender", .string (sampleInput 0).sender),
    ("recipient", .string (sampleInput 0).recipient),
    ("depositAmount", .string "10")] ++
    startTime.toList.map fun time => ("startTime", .number time))

/-- A digest without collisions that is the SHA-256 digest of the texts of the streams
from the first two seconds on. -/
def sampleDigest : Equiv.Perm String :=
  (Equiv.swap (sampleInput 0).stringify
      "d384e0ed37675eef088fd6082f0f5a9df7ef0fe9335fbd7dbd821545d7844c5b").trans <|
  (Equiv.swap (sampleInput 1).stringify
      "f14d43936a8a7b98a378dc0bff8eddaf2150ccc55b65e89258ec46fb6a16ec8f").trans <|
  (Equiv.swap (sampleInput 0).canonicalizeBody
      "0724c3c0b38934394324eae49456100f31f759f7340aac2f7d2d679179651aca").trans <|
  Equiv.swap (sampleInput 1).canonicalizeBody
      "75666f27d7297393cad2892436d05bdf474c329239e94b924c8463b78e7e3cf2"

/-- A day of time to live. -/
def sampleConfig : CreateConfig := ⟨sampleDigest, 86400, Nat.succ_pos _⟩

/-- A request for the stream, with its start. -/
def sampleRequest (startTime : ℕ) : CreateRequest := ⟨"tenant", "key", sampleBody (some startTime)⟩

theorem parse_sampleRequest_zero (now : ℕ) :
    parseCreateStreamBody now (sampleRequest 0).body = .ok (sampleInput 0) :=
  parseCreateStreamBody_at (show parseCreateStreamBody 0 _ = .ok (sampleInput 0) from rfl) now

theorem parse_sampleRequest_one (now : ℕ) :
    parseCreateStreamBody now (sampleRequest 1).body = .ok (sampleInput 1) :=
  parseCreateStreamBody_at (show parseCreateStreamBody 0 _ = .ok (sampleInput 1) from rfl) now

theorem position_sampleInput_ne :
    ((sampleInput 1).row sampleDigest).position ≠ ((sampleInput 0).row sampleDigest).position := by
  intro hsame
  have hequal := ApiCreateStreamInput.position_row_inj sampleDigest.injective
    (plain_of_parseCreateStreamBody (parse_sampleRequest_one 0))
    (plain_of_parseCreateStreamBody (parse_sampleRequest_zero 0)) hsame
  cases congrArg ApiCreateStreamInput.startTime hequal

end Fluxora.Streams
