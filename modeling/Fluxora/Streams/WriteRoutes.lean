/-
# Who may write streams

The three routes that write streams put their middleware chains together one by one. A
creation needs a token and the scope to write. A cancellation needs the same and is kept
to the caller's own streams, unless the caller is an operator. A change of status has no
chain at all: its handler is registered as it is.
-/

import Fluxora.Auth.Csrf
import Fluxora.Streams.CreateHandler

namespace Fluxora.Streams

open Lib Lib.Fallible Lib.JsText Lib.Statements Auth Serialization

/-! ## Guards -/

def apiStreamStatusValues : List StreamStatus := [.active, .paused, .completed, .cancelled]

/-- Operators are not scoped; everyone else has their address attached. -/
def enforceStreamScope : Middleware := fun context =>
  match context.user with
  | none => .ok context
  | some user =>
    if user.role = "operator" then .ok context
    else if user.address = "" then
      .error ⟨500, .internalError, "Caller address missing", []⟩
    else .ok { context with callerAddress := some user.address }

/-- The state machine of the API, a second table beside the repository's. -/
def apiTransitions : StreamStatus → List StreamStatus
  | .active => [.paused, .completed, .cancelled]
  | .paused => [.active, .cancelled]
  | .completed => []
  | .cancelled => []

def transitionError (source target : StreamStatus) : Option String :=
  if (apiTransitions source).contains target then none
  else if source = target then
    let status := source.text
    some s!"Stream is already {status}"
  else if source = .completed then
    some "Stream is already completed and cannot be transitioned"
  else if source = .cancelled then
    some "Stream is already cancelled and cannot be transitioned"
  else
    let current := source.text
    let requested := target.text
    some s!"Cannot transition stream from '{current}' to '{requested}'"

/-- The conflict of a transition that the state machine forbids. -/
def assertApiTransition (id : String) (source target : StreamStatus)
    (includeRequestedStatus : Bool) : Except ApiError Unit :=
  match transitionError source target with
  | none => .ok ()
  | some message =>
    .error ⟨409, .conflict, message,
      [("streamId", id), ("currentStatus", source.text)] ++
        if includeRequestedStatus then [("requestedStatus", target.text)] else []⟩

def parseIdempotencyKeyHeader : Option String → Except ApiError String
  | none =>
    .error (validationError
      "Idempotency-Key header is required and must be a single string value")
  | some header =>
    let trimmed := trim header.toList
    if trimmed.length < 1 ∨ 128 < trimmed.length then
      .error (validationError "Idempotency-Key must be between 1 and 128 characters")
    else if trimmed.all (fun c => c.isAlphanum || c = ':' || c = '_' || c = '-') = false then
      .error (validationError
        "Idempotency-Key must contain only letters, digits, colon, underscore, or hyphen")
    else .ok (String.ofList trimmed)

def requireIdempotencyKey : Middleware := fun context =>
  (parseIdempotencyKeyHeader context.request.headers.idempotencyKey).map fun _ => context

/-! ## Handlers -/

/-- What the handlers consult besides the database. -/
structure WriteEnv extends AuthEnv where
  now : ℕ
  idempotencyHealthy : Bool
  idempotencyStore : IdempotencyStore
  create : CreateConfig

inductive WriteAnswer
  /-- An error of a middleware or of the handler. -/
  | refused (error : ApiError)
  /-- A body that is refused with status 400. -/
  | refusedBody (refusal : CreateRefusal)
  | create (answer : CreateAnswer)
  | cancelled (id : String)
  | updated (stream : Stream)
  /-- Not one of the routes that write. -/
  | passedOn

section

variable (env : WriteEnv)

/-- The request as the idempotency store sees it. -/
def createCall (context : Context) (idempotencyKey : String) (body : Json)
    (input : ApiCreateStreamInput) : CreateCall where
  request :=
    { tenantId := (context.callerAddress <|> context.keyId <|>
        context.user.map UserPayload.address).getD "anonymous"
      idempotencyKey
      body }
  input
  phase := .reading

/-- Create a stream, unless the answer is stored already. An answer that is given is then
stored, which does not concern the table. -/
def createStreamHandler (context : Context) : Program StreamsTable WriteAnswer :=
  match parseIdempotencyKeyHeader context.request.headers.idempotencyKey with
  | .error error => pure (.refused error)
  | .ok idempotencyKey =>
    if env.idempotencyHealthy = false then
      pure (.refused (serviceUnavailable ("Idempotency processing is temporarily unavailable. " ++
        "Retry after dependency health is restored.")))
    else
      let body := context.request.body.getD (.object [])
      match parseCreateStreamBody env.now body with
      | .error refusal => pure (.refusedBody refusal)
      | .ok input =>
        let call := createCall context idempotencyKey body input
        match call.afterLookup env.create
          (env.idempotencyStore.get env.now call.request.fullKey) with
        | .answered answer => pure (.create answer)
        | _ => do
            let created ← createStreamFromApi env.create.sha256 input
            pure (.create (.created (toApiStream created.stream)))

end

/-- Move a stream that has been looked up. An error of the repository is passed on. -/
def moveStream (record : StreamRecord) (id : String) (target : StreamStatus)
    (includeRequestedStatus : Bool) (answer : StreamRecord → WriteAnswer) :
    Program StreamsTable WriteAnswer :=
  match assertApiTransition id record.status target includeRequestedStatus with
  | .error error => pure (.refused error)
  | .ok () => do
      let updated ← updateStream id { status := some target }
      pure (answer updated)

/-- Cancel a stream. Another tenant's stream is reported as missing. -/
def cancelStreamHandler (id : String) (context : Context) : Program StreamsTable WriteAnswer :=
  if id = "" then pure (.refused (notFound "Stream" ""))
  else do
    match ← query (·.getById id) with
    | none => pure (.refused (notFound "Stream" id))
    | some record =>
      if context.callerAddress.any fun caller =>
        caller ≠ "" ∧ record.senderAddress ≠ caller then
        pure (.refused (notFound "Stream" id))
      else moveStream record id .cancelled false fun _ => .cancelled id

/-- The status a body asks for. -/
def requestedStatus (body : Option Json) : Option StreamStatus :=
  match property "status" (body.getD (.object [])) with
  | some (.string text) => apiStreamStatusValues.find? (·.text = text)
  | _ => none

/-- Transition a stream to a new status. -/
def updateStreamStatusHandler (id : String) (context : Context) :
    Program StreamsTable WriteAnswer :=
  if id = "" then pure (.refused (notFound "Stream" ""))
  else
    match requestedStatus context.request.body with
    | none =>
      pure (.refused (validationError
        "status must be one of: active, paused, completed, cancelled"))
    | some target => do
        match ← query (·.getById id) with
        | none => pure (.refused (notFound "Stream" id))
        | some record => moveStream record id target true fun row => .updated (toApiStream row)

/-! ## Routes -/

/-- A route: a chain of middlewares and a handler. -/
def route (links : List Middleware) (handler : Context → Program StreamsTable WriteAnswer)
    (context : Context) : Program StreamsTable WriteAnswer :=
  match through links context with
  | .error error => pure (.refused error)
  | .ok context => handler context

/-- `registerWriteRoutes`. -/
def writeRoutes (env : WriteEnv) (context : Context) : Program StreamsTable WriteAnswer :=
  match context.request.method, context.request.path with
  | .post, [] =>
    route [authenticate env.toAuthEnv, requireAuth, authenticateApiKey env.toAuthEnv,
      requireScope ["streams:write"], requireIdempotencyKey] (createStreamHandler env) context
  | .delete, [id] =>
    route [authenticate env.toAuthEnv, requireAuth, authenticateApiKey env.toAuthEnv,
      requireScope ["streams:write"], enforceStreamScope] (cancelStreamHandler id) context
  | .patch, [id, "status"] => route [] (updateStreamStatusHandler id) context
  | _, _ => pure .passedOn

/-- The router as it is mounted, behind the check of the double-submit token. -/
def streamsRouter (env : WriteEnv) (request : HttpRequest) : Program StreamsTable WriteAnswer :=
  route [csrfMiddleware env.toAuthEnv] (writeRoutes env) { request }

/-! ## What a request can do -/

/-- A stream has been moved to a status that its state machine allows. -/
def Moved (id : String) (target : StreamStatus) (before after : StreamsTable) : Prop :=
  ∃ row, before.getById id = some row ∧ isValidStatusTransition row.status target = true ∧
    after.rows = before.rows.map (StreamsTable.updateRow id row.status { status := some target })

section

variable {s : Session StreamsTable} {id : String} {context : Context}

theorem moveStream_effect {record : StreamRecord} {target : StreamStatus}
    {includeRequestedStatus : Bool} {answer : StreamRecord → WriteAnswer} :
    Ensures (moveStream record id target includeRequestedStatus answer) s fun _ s' =>
      s'.store = s.store ∨ Moved id target s.store s'.store := by
  unfold moveStream
  split
  · exact Ensures.pure (Or.inl rfl)
  · have hmoved : ∀ {s' : Session StreamsTable} {row : StreamRecord},
        s.store.updatable id { status := some target } = some row →
        s'.store.rows = s.store.rows.map
          (StreamsTable.updateRow id row.status { status := some target }) →
        Moved id target s.store s'.store := by
      intro s' row hupdatable hrows
      obtain ⟨hfound, hvalid⟩ := StreamsTable.updatable_eq_some_iff.mp hupdatable
      exact ⟨row, hfound, hvalid, hrows⟩
    apply Ensures.bind updateStream_effect
    · rintro row s' (⟨row, hupdatable, hrows⟩ | ⟨hsame, _⟩)
      · exact Ensures.pure (Or.inr (hmoved hupdatable hrows))
      · exact Ensures.pure (Or.inl hsame)
    · rintro message s' (⟨row, hupdatable, hrows⟩ | ⟨hsame, _⟩)
      · exact Or.inr (hmoved hupdatable hrows)
      · exact Or.inl hsame

theorem cancelStreamHandler_effect :
    Ensures (cancelStreamHandler id context) s fun _ s' =>
      s'.store = s.store ∨ Moved id .cancelled s.store s'.store ∧
        ∀ row, s.store.getById id = some row → ∀ caller, context.callerAddress = some caller →
          caller ≠ "" → row.senderAddress = caller := by
  unfold cancelStreamHandler
  split
  · exact Ensures.pure (Or.inl rfl)
  · apply Ensures.query_bind
    · split
      · exact Ensures.pure (Or.inl rfl)
      · rename_i record hrecord
        split
        · exact Ensures.pure (Or.inl rfl)
        · rename_i hown
          apply Ensures.imp moveStream_effect
          rintro r s' (hsame | hmoved)
          · exact Or.inl hsame
          · refine Or.inr ⟨hmoved, fun row hrow caller hcaller hpresent => ?_⟩
            cases hrecord.symm.trans hrow
            simpa [hcaller, hpresent] using hown
    · exact fun _ => Or.inl rfl

theorem updateStreamStatusHandler_effect :
    Ensures (updateStreamStatusHandler id context) s fun _ s' =>
      s'.store = s.store ∨ id ≠ "" ∧ ∃ target,
        requestedStatus context.request.body = some target ∧
          Moved id target s.store s'.store := by
  unfold updateStreamStatusHandler
  split
  · exact Ensures.pure (Or.inl rfl)
  · rename_i hid
    split
    · exact Ensures.pure (Or.inl rfl)
    · rename_i target htarget
      apply Ensures.query_bind
      · split
        · exact Ensures.pure (Or.inl rfl)
        · apply Ensures.imp moveStream_effect
          rintro r s' (hsame | hmoved)
          · exact Or.inl hsame
          · exact Or.inr ⟨hid, target, htarget, hmoved⟩
      · exact fun _ => Or.inl rfl

theorem createStreamHandler_effect {env : WriteEnv} :
    Ensures (createStreamHandler env context) s fun _ s' =>
      s'.store = s.store ∨ ∃ row, s'.store.rows = s.store.rows ++ [row] := by
  unfold createStreamHandler
  split
  · exact Ensures.pure (Or.inl rfl)
  · split
    · exact Ensures.pure (Or.inl rfl)
    · dsimp only
      split
      · exact Ensures.pure (Or.inl rfl)
      · split
        · exact Ensures.pure (Or.inl rfl)
        · apply Ensures.bind upsertStream_effect
          · rintro result s' (hrows | hsame)
            · exact Ensures.pure (Or.inr ⟨_, hrows⟩)
            · exact Ensures.pure (Or.inl hsame)
          · rintro message s' (hrows | hsame)
            · exact Or.inr ⟨_, hrows⟩
            · exact Or.inl hsame

end

theorem keepsPrincipal_requireIdempotencyKey : KeepsPrincipal requireIdempotencyKey := by
  intro context context' h
  unfold requireIdempotencyKey at h
  cases hkey : parseIdempotencyKeyHeader context.request.headers.idempotencyKey with
  | error =>
    rw [hkey] at h
    cases h
  | ok =>
    rw [hkey] at h
    cases h
    exact ⟨rfl, rfl⟩

theorem enforceStreamScope_ok {context context' : Context} {user : UserPayload}
    (huser : context.user = some user) (h : enforceStreamScope context = .ok context') :
    user.role = "operator" ∨ context'.callerAddress = some user.address ∧ user.address ≠ "" := by
  simp only [enforceStreamScope, huser] at h
  split_ifs at h with hrole haddress
  · exact Or.inl hrole
  · cases h
    exact Or.inr ⟨rfl, haddress⟩

/-! ## Authorised writes -/

/-- The table after a request, when the statements fare as given. -/
def afterRequest (env : WriteEnv) (table : StreamsTable) (request : HttpRequest)
    (outcomes : List Outcome) : StreamsTable :=
  (streamsRouter env request (Session.start table outcomes)).2.store

/-- The request carries a valid token of an operator or of the stream's sender. -/
def Authorised (env : WriteEnv) (request : HttpRequest) (row : StreamRecord) : Prop :=
  ∃ user, request.TokenOf env.toAuthEnv user ∧
    (user.role = "operator" ∨ user.address = row.senderAddress)

/-- Only an authorised request changes a stream, and one without a valid token leaves the
table as it was. -/
structure WritesAuthorised (env : WriteEnv) (table : StreamsTable) (request : HttpRequest) :
    Prop where
  changed : ∀ outcomes, ∀ row ∈ table.rows,
    (afterRequest env table request outcomes).getById row.id ≠ some row →
      Authorised env request row
  anonymous : (∀ user, ¬ request.TokenOf env.toAuthEnv user) →
    ∀ outcomes, afterRequest env table request outcomes = table

/-- The request asks for a change of status of the stream, which the state machine allows,
and does not fail the check of the double-submit token. -/
structure StatusRequest (env : WriteEnv) (table : StreamsTable) (request : HttpRequest)
    (id : String) (target : StreamStatus) (row : StreamRecord) : Prop where
  method : request.method = .patch
  path : request.path = [id, "status"]
  named : id ≠ ""
  csrf : csrfMiddleware env.toAuthEnv { request } = .ok { request }
  requested : requestedStatus request.body = some target
  found : table.getById id = some row
  valid : isValidStatusTransition row.status target = true

/-- The ways in which a request leaves the table. -/
inductive WriteEffect (env : WriteEnv) (table : StreamsTable) (request : HttpRequest)
    (after : StreamsTable) : Prop
  | unchanged (same : after = table)
  | created (user : UserPayload) (token : request.TokenOf env.toAuthEnv user)
      (row : StreamRecord) (rows : after.rows = table.rows ++ [row])
  | cancelled (id : String) (row : StreamRecord) (found : table.getById id = some row)
      (authorised : Authorised env request row) (moved : Moved id .cancelled table after)
  | moved (id : String) (target : StreamStatus) (row : StreamRecord)
      (asked : StatusRequest env table request id target row)
      (moved : Moved id target table after)

section

variable {env : WriteEnv} {table : StreamsTable} {request : HttpRequest} {s : Session StreamsTable}
  {target : StreamStatus}

theorem createRoute_effect (hstore : s.store = table) (links : List Middleware)
    (hlinks : ∀ link ∈ links, KeepsPrincipal link) :
    Ensures (route (authenticate env.toAuthEnv :: requireAuth :: links)
      (createStreamHandler env) { request }) s fun _ s' =>
        WriteEffect env table request s'.store := by
  unfold route
  split
  · exact Ensures.pure (.unchanged hstore)
  · rename_i context hthrough
    obtain ⟨user, htoken, _⟩ := exists_user_of_through hlinks hthrough
    apply Ensures.imp createStreamHandler_effect
    rintro r s' (hsame | ⟨row, hrows⟩)
    · exact .unchanged (hsame.trans hstore)
    · exact .created user htoken row (hstore ▸ hrows)

variable {id : String}

theorem cancelRoute_effect (hstore : s.store = table) :
    Ensures (route [authenticate env.toAuthEnv, requireAuth, authenticateApiKey env.toAuthEnv,
      requireScope ["streams:write"], enforceStreamScope] (cancelStreamHandler id) { request }) s
        fun _ s' => WriteEffect env table request s'.store := by
  unfold route
  split
  · exact Ensures.pure (.unchanged hstore)
  · rename_i context hthrough
    -- the scope is attached by the last link, to the user of the links before it
    have hscoped : ∃ user, request.TokenOf env.toAuthEnv user ∧ (user.role = "operator" ∨
        context.callerAddress = some user.address ∧ user.address ≠ "") := by
      rw [show [authenticate env.toAuthEnv, requireAuth, authenticateApiKey env.toAuthEnv,
        requireScope ["streams:write"], enforceStreamScope] =
          (authenticate env.toAuthEnv :: requireAuth :: [authenticateApiKey env.toAuthEnv,
            requireScope ["streams:write"]]) ++ [enforceStreamScope] from rfl,
        through_concat_eq_ok] at hthrough
      obtain ⟨unscoped, hothers, hlast⟩ := hthrough
      have hlinks : ∀ link ∈ [authenticateApiKey env.toAuthEnv, requireScope ["streams:write"]],
          KeepsPrincipal link := by
        simp only [List.mem_cons, List.not_mem_nil, or_false, forall_eq_or_imp, forall_eq]
        exact ⟨keepsPrincipal_authenticateApiKey, keepsPrincipal_requireScope _⟩
      obtain ⟨user, htoken, _, huser⟩ := exists_user_of_through hlinks hothers
      exact ⟨user, htoken, enforceStreamScope_ok huser hlast⟩
    obtain ⟨user, htoken, hscope⟩ := hscoped
    apply Ensures.imp cancelStreamHandler_effect
    rintro r s' (hsame | ⟨hmoved, hown⟩)
    · exact .unchanged (hsame.trans hstore)
    · rw [hstore] at hmoved hown
      have ⟨row, hfound, _⟩ := hmoved
      refine .cancelled id row hfound ⟨user, htoken, ?_⟩ hmoved
      rcases hscope with hrole | ⟨hcaller, hpresent⟩
      · exact Or.inl hrole
      · exact Or.inr (hown row hfound _ hcaller hpresent).symm

theorem writeRoutes_effect (hstore : s.store = table)
    (hcsrf : csrfMiddleware env.toAuthEnv { request } = .ok { request }) :
    Ensures (writeRoutes env { request }) s fun _ s' =>
      WriteEffect env table request s'.store := by
  unfold writeRoutes
  split
  · apply createRoute_effect hstore
    simp only [List.mem_cons, List.not_mem_nil, or_false, forall_eq_or_imp, forall_eq]
    exact ⟨keepsPrincipal_authenticateApiKey, keepsPrincipal_requireScope _,
      keepsPrincipal_requireIdempotencyKey⟩
  · exact cancelRoute_effect hstore
  · rename_i id hmethod hpath
    apply Ensures.imp updateStreamStatusHandler_effect
    rintro r s' (hsame | ⟨hid, target, htarget, hmoved⟩)
    · exact .unchanged (hsame.trans hstore)
    · rw [hstore] at hmoved
      have ⟨row, hfound, hvalid, _⟩ := hmoved
      exact .moved id target row ⟨hmethod, hpath, hid, hcsrf, htarget, hfound, hvalid⟩ hmoved
  · exact Ensures.pure (.unchanged hstore)

theorem writeEffect (env : WriteEnv) (table : StreamsTable) (request : HttpRequest)
    (outcomes : List Outcome) :
    WriteEffect env table request (afterRequest env table request outcomes) := by
  have heffect : Ensures (streamsRouter env request) (Session.start table outcomes) fun _ s' =>
      WriteEffect env table request s'.store := by
    unfold streamsRouter route
    split
    · exact Ensures.pure (.unchanged rfl)
    · rename_i context hthrough
      obtain ⟨passed, hcsrf, hrest⟩ := through_cons_eq_ok.mp hthrough
      cases hrest
      cases csrfMiddleware_ok hcsrf
      exact writeRoutes_effect rfl hcsrf
  exact heffect

/-! ## When the routes keep to it -/

variable {row : StreamRecord} {after : StreamsTable}

theorem Moved.found_of_changed (hmoved : Moved id target table after) (hrow : row ∈ table.rows)
    (hchanged : after.getById row.id ≠ some row) : table.getById id = some row := by
  obtain ⟨moved, _, _, hrows⟩ := hmoved
  have hself : table.getById row.id = some row :=
    StreamsTable.getById_eq_some_iff.mpr ⟨hrow, rfl⟩
  by_cases hid : row.id = id
  · rw [← hid]
    exact hself
  · rw [StreamsTable.getById_of_rows_map_of_ne hid hrows] at hchanged
    exact absurd hself hchanged

variable {source : StreamStatus}

theorem ne_of_isValidStatusTransition (h : isValidStatusTransition source target = true) :
    target ≠ source := by
  rintro rfl
  cases target <;> cases h

theorem Moved.changed (hmoved : Moved id target table after)
    (hfound : table.getById id = some row) :
    after.getById row.id ≠ some row := by
  obtain ⟨moved, hmovedRow, hvalid, hrows⟩ := hmoved
  cases hmovedRow.symm.trans hfound
  have hid : row.id = id := (StreamsTable.getById_eq_some_iff.mp hfound).2
  rw [hid, StreamsTable.getById_of_rows_map hrows, hfound, Option.map_some,
    StreamsTable.updateRow, if_pos ⟨hid, rfl⟩]
  intro hsame
  have hstatus : target = row.status := congrArg StreamRecord.status (Option.some.inj hsame)
  exact ne_of_isValidStatusTransition hvalid hstatus

theorem assertApiTransition_of_valid {includeRequestedStatus : Bool}
    (hvalid : isValidStatusTransition source target = true) :
    assertApiTransition id source target includeRequestedStatus = .ok () := by
  have htransitions : apiTransitions source = validApiTransitions source := by
    cases source <;> rfl
  have hallowed : (apiTransitions source).contains target = true := by
    rw [htransitions, List.contains_iff_mem]
    exact of_decide_eq_true hvalid
  rw [assertApiTransition, transitionError, if_pos hallowed]

theorem StatusRequest.applies (h : StatusRequest env table request id target row) :
    Moved id target table (afterRequest env table request []) := by
  have hhealthy : (Session.start table []).Healthy := rfl
  have hpassed : through [csrfMiddleware env.toAuthEnv] { request } = .ok { request } := by
    rw [through_cons, h.csrf]
    rfl
  have hroute : writeRoutes env { request } = updateStreamStatusHandler id { request } := by
    simp only [writeRoutes, h.method, h.path]
    rfl
  have hmoves : moveStream row id target true (fun row => .updated (toApiStream row)) =
      (do let updated ← updateStream id { status := some target }
          pure (.updated (toApiStream updated))) := by
    rw [moveStream, assertApiTransition_of_valid h.valid]
  rw [afterRequest, streamsRouter, route, hpassed]
  simp only [hroute]
  rw [updateStreamStatusHandler, if_neg h.named]
  simp only [h.requested]
  rw [query_bind_healthy hhealthy, show (Session.start table []).store = table from rfl, h.found]
  simp only [hmoves]
  rcases updateStream_healthy hhealthy.issue id { status := some target } with
    ⟨moved, s', hupdatable, hanswer, hrows⟩ | ⟨_, _, hnone, _⟩
  · obtain ⟨hfound, hvalid⟩ := StreamsTable.updatable_eq_some_iff.mp hupdatable
    simp only [Bind.bind, hanswer]
    exact ⟨moved, hfound, hvalid, hrows⟩
  · have hupdatable : table.updatable id { status := some target } = some row :=
      StreamsTable.updatable_eq_some_iff.mpr ⟨h.found, h.valid⟩
    cases hnone.symm.trans hupdatable

theorem writesAuthorised_iff (env : WriteEnv) (table : StreamsTable) (request : HttpRequest) :
    WritesAuthorised env table request ↔
      ∀ id target row, StatusRequest env table request id target row →
        Authorised env request row := by
  apply Iff.intro
  · intro hauthorised id target row hasked
    have hrow : row ∈ table.rows := (StreamsTable.getById_eq_some_iff.mp hasked.found).1
    exact hauthorised.changed [] row hrow (hasked.applies.changed hasked.found)
  · intro hstatus
    constructor
    · intro outcomes row hrow hchanged
      have hself : table.getById row.id = some row :=
        StreamsTable.getById_eq_some_iff.mpr ⟨hrow, rfl⟩
      cases writeEffect env table request outcomes with
      | unchanged hsame =>
        rw [hsame] at hchanged
        exact absurd hself hchanged
      | created _ _ _ hrows =>
        have hkept : row ∈ (afterRequest env table request outcomes).rows := by
          rw [hrows]
          exact List.mem_append_left _ hrow
        exact absurd (StreamsTable.getById_eq_some_iff.mpr ⟨hkept, rfl⟩) hchanged
      | cancelled _ _ hfound hauthorised hmoved =>
        cases (hmoved.found_of_changed hrow hchanged).symm.trans hfound
        exact hauthorised
      | moved id target _ hasked hmoved =>
        cases (hmoved.found_of_changed hrow hchanged).symm.trans hasked.found
        exact hstatus id target row hasked
    · intro hanonymous outcomes
      cases writeEffect env table request outcomes with
      | unchanged hsame => exact hsame
      | created user htoken => exact absurd htoken (hanonymous user)
      | cancelled _ _ _ hauthorised =>
        obtain ⟨user, htoken, _⟩ := hauthorised
        exact absurd htoken (hanonymous user)
      | moved id target row hasked =>
        obtain ⟨user, htoken, _⟩ := hstatus id target row hasked
        exact absurd htoken (hanonymous user)

/-- An environment in which no token and no key is valid. -/
def closedEnv : WriteEnv where
  verifyToken _ := none
  redisExists := none
  apiKeys := .ok []
  apiKeyPepper := none
  apiKeyPepperPrevious := none
  hmacSha256 _ text := text
  now := 0
  idempotencyHealthy := true
  idempotencyStore := .empty
  create := sampleConfig

/-- `PATCH /api/streams/ab-0/status` without any header. -/
def anonymousCancellation : HttpRequest where
  method := .patch
  path := ["ab-0", "status"]
  headers := {}
  body := some (.object [("status", .string "cancelled")])

/-- A request without any credential cancels a stream. -/
theorem writesAuthorised_fails :
    ¬ ∀ env table request, WritesAuthorised env table request := by
  intro hall
  have hasked : StatusRequest closedEnv (.single streamSample) anonymousCancellation "ab-0"
      .cancelled streamSample :=
    ⟨rfl, rfl, by decide, rfl, rfl, rfl, rfl⟩
  have hanonymous : ∀ user, ¬ anonymousCancellation.TokenOf closedEnv.toAuthEnv user := by
    rintro user ⟨token, payload, _, hpayload, _⟩
    cases hpayload
  have hsame := (hall closedEnv (.single streamSample) anonymousCancellation).anonymous
    hanonymous []
  have hchanged := hasked.applies.changed hasked.found
  rw [hsame] at hchanged
  exact hchanged hasked.found

end

end Fluxora.Streams
