/-
# Who may read streams

The routes that read streams require a scope, which only an API key brings along: none of them
looks at the token of a request. The list and the export attach the address of the caller and keep
a scoped caller to their own streams, but the caller is never known, and the other routes do not
ask.
-/

import Fluxora.Streams.SseFrame
import Fluxora.Streams.SseResume
import Fluxora.Streams.WriteRoutes

namespace Fluxora.Streams

open Lib Lib.Fallible Lib.JsText Lib.JsonStringify Auth Serialization

/-! ## Requests -/

/-- A read, with the parameters of its query and the headers that only reads look at. -/
structure ReadRequest extends HttpRequest where
  query : List (String × Json) := []
  ifNoneMatch : Option String := none
  lastEventId : Option Json := none

structure PaginationQuery where
  cursor : Option String
  limit : ℕ
  status : Option StreamStatus
  sender : Option String
  recipient : Option String
  includeTotal : Bool

def defaultPageLimit : ℕ := 20

def maxPageLimit : ℕ := 100

/-- The type of a value in the message about a text that was expected. -/
def expectedString (value : Json) : String :=
  let received := jsonTypeName value
  s!"Invalid input: expected string, received {received}"

def cursorField : Json → Except String String
  | .string text => if text = "" then .error "cursor must be a non-empty string" else .ok text
  | value => .error (expectedString value)

def limitField : Json → Except String ℕ
  | .string text =>
    let digits := text.toList
    if digits = [] ∨ digits.all Char.isDigit = false then
      .error "limit must be a positive integer"
    else
      let parsed := DigitText.value digits
      if 2 ^ 53 - 1 < parsed then .error "limit must be an integer"
      else if parsed < 1 then .error "limit must be at least 1"
      else if maxPageLimit < parsed then .error "limit must be at most 100"
      else .ok parsed
  | value => .error (expectedString value)

def statusField (value : Json) : Except String StreamStatus :=
  let refusal := "Invalid option: expected one of \"active\"|\"paused\"|\"completed\"|\"cancelled\""
  match value with
  | .string text =>
    match apiStreamStatusValues.find? (·.text = text) with
    | some status => .ok status
    | none => .error refusal
  | _ => .error refusal

def addressField : Json → Except String String
  | .string text => .ok text
  | value => .error (expectedString value)

def includeTotalField : Json → Except String Bool
  | .string "true" => .ok true
  | .string "false" => .ok false
  | _ => .error "Invalid option: expected one of \"true\"|\"false\""

/-- A parameter that may be absent. -/
def optionalParam {α : Type} (read : Json → Except String α) :
    Option Json → Except String (Option α)
  | none => .ok none
  | some value => (read value).map some

def paginationKeys : List String :=
  ["cursor", "limit", "status", "sender", "recipient", "include_total"]

/-- The message about keys that the schema does not have. -/
def unrecognizedKeys (keys : List String) : String :=
  let quoted := ", ".intercalate (keys.map fun key => "\"" ++ key ++ "\"")
  if keys.length = 1 then s!"Unrecognized key: {quoted}" else s!"Unrecognized keys: {quoted}"

/-- `PaginationSchema`, with the message of its first issue. -/
def paginationSchema (query : List (String × Json)) : Except String PaginationQuery := do
  let cursor ← optionalParam cursorField (query.lookup "cursor")
  let limit ← optionalParam limitField (query.lookup "limit")
  let status ← optionalParam statusField (query.lookup "status")
  let sender ← optionalParam addressField (query.lookup "sender")
  let recipient ← optionalParam addressField (query.lookup "recipient")
  let includeTotal ← optionalParam includeTotalField (query.lookup "include_total")
  let unknown := (query.map Prod.fst).filter (paginationKeys.contains · = false)
  if unknown ≠ [] then .error (unrecognizedKeys unknown)
  else
    .ok { cursor, limit := limit.getD defaultPageLimit, status, sender, recipient,
          includeTotal := includeTotal.getD false }

/-! ## Cursors -/

structure OpaqueCursor where
  lastId : String
  scope : Option String

def invalidCursorMessage : String := "cursor must be a valid opaque pagination token"

def cursorLastIdMaxLength : ℕ := 200

def cursorScopeMaxLength : ℕ := 500

/-- `decodeCursor`, after base64url and JSON. -/
def decodeCursor (decodeJson : String → Option Json) (cursor : String) :
    Except ApiError OpaqueCursor :=
  let invalid := validationError invalidCursorMessage
  match decodeJson cursor with
  | some (.object entries) =>
    match entries.lookup "v", entries.lookup "lastId", entries.lookup "scope" with
    | some (.number version), some (.string lastId), scope =>
      if version ≠ 1 ∨ trim lastId.toList = [] ∨
          cursorLastIdMaxLength < (codeUnits lastId.toList).length then .error invalid
      else
        match scope with
        | none => .ok ⟨lastId, none⟩
        | some (.string text) =>
          if cursorScopeMaxLength < (codeUnits text.toList).length then .error invalid
          else .ok ⟨lastId, some text⟩
        | some _ => .error invalid
    | _, _, _ => .error invalid
  | _ => .error invalid

def parseCursorParam (decodeJson : String → Option Json) :
    Option String → Except ApiError (Option OpaqueCursor)
  | none => .ok none
  | some text =>
    if trim text.toList = [] then .error (validationError invalidCursorMessage)
    else (decodeCursor decodeJson text).map some

/-- What a cursor is bound to. -/
def streamCursorScope (status : Option StreamStatus)
    (sender recipient callerAddress : Option String) : String :=
  let orNull (text : Option String) : Json := (text.map Json.string).getD .null
  String.ofList (stringify (.object [("v", .number 1),
    ("status", orNull (status.map StreamStatus.text)), ("sender", orNull sender),
    ("recipient", orNull recipient), ("caller", orNull callerAddress),
    ("order", .string "id:asc")]))

def unscopedStreamCursor : String := "streams:v1"

/-- A scoped caller lists the streams they send or receive. -/
def assertCallerMayList (callerAddress sender recipient : Option String) :
    Except ApiError Unit :=
  match configured callerAddress with
  | none => .ok ()
  | some caller =>
    if configured sender = none ∧ configured recipient = none then
      .error (forbidden "Scoped users must filter by sender or recipient matching their address")
    else if (configured sender).any (· ≠ caller) then
      .error (forbidden "You are not authorized to query streams for this sender")
    else if (configured recipient).any (· ≠ caller) then
      .error (forbidden "You are not authorized to query streams for this recipient")
    else .ok ()

/-! ## The database -/

inductive DbError
  | poolExhausted
  | other

def rethrowDbError : DbError → ApiError
  | .poolExhausted =>
    serviceUnavailable "Database is temporarily unavailable. Please retry shortly."
  | .other => internalError

/-- What the routes consult besides what the middlewares do. -/
structure ReadEnv extends AuthEnv where
  /-- The table as the queries of the request find it, one after the other. -/
  database : ℕ → Except DbError StreamsTable
  collation : Indexer.Collation
  /-- The digest under which an address is stored beside its ciphertext. -/
  addressHash : String → String
  decodeJson : String → Option Json
  listingHealthy : Bool
  weakEntityTag : StreamRecord → String
  now : ℤ
  wsAuthRequired : Bool
  jwtSecret : Option String
  /-- Whether a token has a valid signature under a secret. -/
  verifySignature : String → String → Bool
  /-- The answer of the connection limiter, if it rejects. -/
  sseRejection : Option ApiError
  /-- What the connection comes to write. -/
  sseFrames : List SseFrame

structure StreamFilter where
  status : Option StreamStatus := none
  senderAddress : Option String := none
  recipientAddress : Option String := none

structure StreamPage where
  streams : List StreamRecord
  hasMore : Bool
  total : Option ℕ

/-- By the digest, or by the text for rows that are not encrypted. -/
def addressCondition (env : ReadEnv) (filter : Option String) (address : String) : Bool :=
  (configured filter).all fun wanted =>
    env.addressHash address = env.addressHash wanted || address = wanted

def StreamFilter.selects (env : ReadEnv) (filter : StreamFilter) (row : StreamRecord) : Bool :=
  filter.status.all (row.status = ·) &&
    addressCondition env filter.senderAddress row.senderAddress &&
    addressCondition env filter.recipientAddress row.recipientAddress

def maxStreamLimit : ℕ := 100

/-- The rows after an id in the order of the ids, and whether there are more of them. -/
def findWithCursor (env : ReadEnv) (table : StreamsTable) (filter : StreamFilter) (limit : ℕ)
    (afterId : Option String) (includeTotal : Bool) : StreamPage :=
  let effectiveLimit := min (max limit 1) maxStreamLimit
  let matching := table.rows.filter (filter.selects env)
  let found := ((matching.filter fun row =>
    (configured afterId).all fun cursor => !env.collation.le row.id cursor).insertionSort
      fun a b => env.collation.le a.id b.id = true).take (effectiveLimit + 1)
  { streams := found.take effectiveLimit
    hasMore := effectiveLimit < found.length
    total := if includeTotal then some matching.length else none }

/-! ## Answers -/

structure StreamListPage where
  streams : List Stream
  hasMore : Bool
  nextCursor : Option OpaqueCursor
  total : Option ℕ

def toStreamListPage (page : StreamPage) (cursorScope : String) (includeTotal : Bool) :
    StreamListPage :=
  let streams := page.streams.map toApiStream
  { streams
    hasMore := page.hasMore
    nextCursor :=
      if page.hasMore then streams.getLast?.map fun last => ⟨last.id, some cursorScope⟩
      else none
    total := if includeTotal then page.total else none }

inductive ExportLine
  | stream (stream : Stream)
  | resumptionCursor (cursor : OpaqueCursor)

def toExportNdjsonLines (records : List StreamRecord) : List ExportLine :=
  records.map (fun record => .stream (toApiStream record)) ++
    (records.getLast?.map fun last =>
      ExportLine.resumptionCursor ⟨last.id, some unscopedStreamCursor⟩).toList

/-- A stream as a linked-data document. The amounts are normalised. -/
structure StreamJsonLd where
  resource : String
  identifier : String
  sender : String
  recipient : String
  depositAmount : String
  streamedAmount : String
  remainingAmount : String
  ratePerSecond : String
  startTime : ℤ
  endTime : ℤ
  status : StreamStatus
  contractId : String
  transactionHash : String

def fluxoraStreamBaseUri : String := "https://fluxora.dev/streams"

/-- The status at a time. What has been settled or paused stays. -/
def deriveStreamStatusFromSchedule (startTime endTime : ℤ) (status : StreamStatus) (now : ℤ) :
    StreamStatus :=
  match status with
  | .active =>
    if ¬ startTime ≤ now then .active
    else if endTime ≠ 0 ∧ endTime ≤ now then .completed
    else .active
  | settled => settled

def toStreamJsonLd (now : ℤ) (record : StreamRecord) :
    Except DecimalSerializationError StreamJsonLd := do
  let decimal (text field : String) : Except DecimalSerializationError String :=
    (requireDecimalString text.toList (some field)).map String.ofList
  let depositAmount ← decimal record.amount "depositAmount"
  let streamedAmount ← decimal record.streamedAmount "streamedAmount"
  let remainingAmount ← decimal record.remainingAmount "remainingAmount"
  let ratePerSecond ← decimal record.ratePerSecond "ratePerSecond"
  .ok
    { resource := fluxoraStreamBaseUri ++ "/" ++ record.id
      identifier := record.id
      sender := record.senderAddress
      recipient := record.recipientAddress
      depositAmount, streamedAmount, remainingAmount, ratePerSecond
      startTime := record.startTime
      endTime := record.endTime
      status := deriveStreamStatusFromSchedule record.startTime record.endTime record.status now
      contractId := record.contractId
      transactionHash := record.transactionHash }

inductive ReadAnswer
  | refused (error : ApiError)
  | listed (page : StreamListPage) (cacheControl : String)
  /-- The lines that were written, and the error that ended the export, if any. -/
  | exported (lines : List ExportLine) (failure : Option ApiError)
  /-- The answer to a request for the headers only. -/
  | checked (statusCode : ℕ)
  | notModified
  | found (stream : Stream) (cacheControl : String)
  | linkedData (document : StreamJsonLd) (cacheControl : String)
  /-- The updates of a stream, which is the row that was looked up. -/
  | events (record : StreamRecord) (frames : List SseFrame)
  /-- Not one of the routes that read. -/
  | passedOn

/-! ## Handlers -/

section

variable (env : ReadEnv)

def cursorMismatchMessage : String :=
  "cursor does not match the requested tenant, filters, or sort order"

/-- List streams, a page at a time. -/
def listStreamsHandler (req : ReadRequest) (context : Context) : Except ApiError ReadAnswer :=
  match paginationSchema req.query with
  | .error message => .error (validationError message)
  | .ok query => do
      let cursor ← parseCursorParam env.decodeJson query.cursor
      let cursorScope :=
        streamCursorScope query.status query.sender query.recipient context.callerAddress
      if (cursor.bind OpaqueCursor.scope).any (· ≠ cursorScope) then
        .error (validationError cursorMismatchMessage)
      else if env.listingHealthy = false then
        .error (serviceUnavailable
          "Stream list is temporarily unavailable. Retry when dependency health is restored.")
      else do
        assertCallerMayList context.callerAddress query.sender query.recipient
        match env.database 0 with
        | .error e => .error (rethrowDbError e)
        | .ok table =>
          let page := findWithCursor env table
            ⟨query.status, query.sender, query.recipient⟩ query.limit
            (cursor.map OpaqueCursor.lastId) query.includeTotal
          .ok (.listed (toStreamListPage page cursorScope query.includeTotal)
            (streamCacheControl (page.streams.map StreamRecord.status)))

def maxExportPages : ℕ := 1000

def exportPageSize : ℕ := 100

/-- The pages an export fetches, by the `n`-th query and the following ones, and the error
that ends it. -/
def exportPages : ℕ → ℕ → Option String → List StreamPage × Option DbError
  | 0, _, _ => ([], none)
  | pagesLeft + 1, n, afterId =>
    match env.database n with
    | .error e => ([], some e)
    | .ok table =>
      let page := findWithCursor env table {} exportPageSize afterId false
      if page.hasMore then
        let lastId := page.streams.getLast?.map fun record => record.id
        let (pages, failure) := exportPages pagesLeft (n + 1) (lastId <|> afterId)
        (page :: pages, failure)
      else ([page], none)

/-- The id an export is resumed after. -/
def resumeFrom (req : ReadRequest) : Except ApiError (Option String) :=
  match req.query.lookup "resume_from" with
  | none => .ok none
  | some (.string text) => do
      let cursor ← parseCursorParam env.decodeJson (configured (some text))
      .ok (cursor.map OpaqueCursor.lastId)
  | some _ =>
    .error (validationError "resume_from must be a single valid opaque pagination token")

/-- Export all streams. -/
def exportStreamsHandler (req : ReadRequest) (context : Context) :
    Except ApiError ReadAnswer := do
  let afterId ← resumeFrom env req
  if configured context.callerAddress ≠ none then
    .error (forbidden "Scoped users are not authorized to use the full export endpoint")
  else
    let (pages, failure) := exportPages env maxExportPages 0 afterId
    .ok (.exported (pages.flatMap fun page => toExportNdjsonLines page.streams)
      (failure.map rethrowDbError))

/-- The row of an id, or the answer that there is none. -/
def lookUp (id : String) : Except ApiError StreamRecord :=
  if id = "" then .error (notFound "Stream" "")
  else
    match env.database 0 with
    | .error e => .error (rethrowDbError e)
    | .ok table =>
      match table.getById id with
      | none => .error (notFound "Stream" id)
      | some record => .ok record

def headStreamHandler (id : String) : Except ApiError ReadAnswer :=
  if id = "" then .ok (.checked 404)
  else
    match env.database 0 with
    | .error .poolExhausted => .ok (.checked 503)
    | .error .other => .error internalError
    | .ok table => .ok (.checked (if (table.getById id).isSome then 200 else 404))

/-- `W/` is dropped in either case. -/
def normalizeTag : List Char → List Char
  | c :: '/' :: rest => if c = 'W' ∨ c = 'w' then rest else c :: '/' :: rest
  | tag => tag

def matchesIfNoneMatch (ifNoneMatch etag : String) : Bool :=
  trim ifNoneMatch.toList = ['*'] ||
    ((trim ifNoneMatch.toList).splitOn ',').any fun tag =>
      normalizeTag (trim tag) = normalizeTag etag.toList

def respondNotModified (req : ReadRequest) (record : StreamRecord) : Bool :=
  req.ifNoneMatch.any (matchesIfNoneMatch · (env.weakEntityTag record))

/-- Get a single stream. -/
def getStreamHandler (req : ReadRequest) (id : String) : Except ApiError ReadAnswer := do
  let record ← lookUp env id
  if respondNotModified env req record then .ok .notModified
  else .ok (.found (toApiStream record) (streamCacheControl [record.status]))

/-- Export a single stream as a linked-data document. -/
def exportStreamJsonLdHandler (req : ReadRequest) (id : String) : Except ApiError ReadAnswer := do
  let record ← lookUp env id
  if respondNotModified env req record then .ok .notModified
  else
    match toStreamJsonLd env.now record with
    | .error _ => .error internalError
    | .ok document => .ok (.linkedData document (streamCacheControl [record.status]))

/-- The token of a header or of the query, first match wins. -/
def realtimeToken (req : ReadRequest) : Option (List Char) :=
  match (req.headers.authorization.filter fun text => text.startsWith "Bearer ") with
  | some text => some (trim (text.toList.drop 7))
  | none =>
    match req.query.lookup "token" with
    | some (.string text) => some (trim text.toList)
    | some (.array (.string text :: _)) => some (trim text.toList)
    | _ => none

inductive WsAuthFailureCode
  | missingToken
  | invalidToken
  | authNotConfigured
  deriving DecidableEq

def WsAuthFailureCode.text : WsAuthFailureCode → String
  | .missingToken => "MISSING_TOKEN"
  | .invalidToken => "INVALID_TOKEN"
  | .authNotConfigured => "AUTH_NOT_CONFIGURED"

def verifyWsToken (req : ReadRequest) : Option WsAuthFailureCode :=
  match configured env.jwtSecret with
  | none => some .authNotConfigured
  | some secret =>
    match (realtimeToken req).filter (· ≠ []) with
    | none => some .missingToken
    | some token =>
      if env.verifySignature (String.ofList token) secret then none
      else some .invalidToken

/-- The realtime token policy. -/
def rejectUnauthorizedRealtimeRequest (req : ReadRequest) : Except ApiError Unit :=
  match verifyWsToken env req with
  | none => .ok ()
  | some code =>
    if env.wsAuthRequired then
      let reason := code.text
      .error (unauthorized s!"Authentication required: {reason}")
    else if code = .invalidToken then
      .error (unauthorized "Invalid or expired authentication token")
    else .ok ()

/-- Open a connection to the updates of a stream. -/
def streamEventsHandler (req : ReadRequest) (id : String) : Except ApiError ReadAnswer :=
  if id = "" then .error (notFound "Stream" "")
  else do
    rejectUnauthorizedRealtimeRequest env req
    match env.sseRejection with
    | some rejection => .error rejection
    | none =>
      let record ← lookUp env id
      let _ ← parseLastEventIdHeader req.lastEventId
      .ok (.events record env.sseFrames)

end

/-! ## Routes -/

/-- A chain of middlewares and a handler, whose errors are answered. -/
def readRoute (links : List Middleware) (handler : Context → Except ApiError ReadAnswer)
    (context : Context) : ReadAnswer :=
  match through links context >>= handler with
  | .error error => .refused error
  | .ok answer => answer

/-- `registerReadRoutes` and `registerSseRoutes`. -/
def readRoutes (env : ReadEnv) (req : ReadRequest) (context : Context) : ReadAnswer :=
  match req.method, req.path with
  | .get, [] =>
    readRoute [authenticateApiKey env.toAuthEnv, requireScope ["streams:read"],
      enforceStreamScope] (listStreamsHandler env req) context
  | .get, ["export"] =>
    readRoute [authenticateApiKey env.toAuthEnv, requireScope ["streams:read"],
      enforceStreamScope] (exportStreamsHandler env req) context
  | .head, [id] => readRoute [] (fun _ => headStreamHandler env id) context
  | .get, [id] =>
    readRoute [authenticateApiKey env.toAuthEnv, requireScope ["streams:read"]]
      (fun _ => getStreamHandler env req id) context
  | .get, [id, "export.jsonld"] =>
    readRoute [authenticateApiKey env.toAuthEnv, requireScope ["streams:read"]]
      (fun _ => exportStreamJsonLdHandler env req id) context
  | .get, [id, "events"] =>
    readRoute [authenticateApiKey env.toAuthEnv, requireScope ["streams:read"]]
      (fun _ => streamEventsHandler env req id) context
  | _, _ => .passedOn

/-- The router as it is mounted, behind the check of the double-submit token. -/
def streamsReadRouter (env : ReadEnv) (req : ReadRequest) : ReadAnswer :=
  match csrfMiddleware env.toAuthEnv { request := req.toHttpRequest } with
  | .error error => .refused error
  | .ok context => readRoutes env req context

/-! ## What an answer shows -/

def ExportLine.parties? : ExportLine → Option (String × String)
  | .stream shown => some (shown.sender, shown.recipient)
  | .resumptionCursor _ => none

/-- The sender and the recipient of each stream whose data an answer contains. A connection
contains data of its stream once an update is written. -/
def ReadAnswer.parties : ReadAnswer → List (String × String)
  | .listed page _ => page.streams.map fun stream => (stream.sender, stream.recipient)
  | .exported lines _ => lines.filterMap ExportLine.parties?
  | .found stream _ => [(stream.sender, stream.recipient)]
  | .linkedData document _ => [(document.sender, document.recipient)]
  | .events record frames =>
    if frames.filterMap SseFrame.event? = [] then []
    else [(record.senderAddress, record.recipientAddress)]
  | _ => []

/-- A viewer who is not an operator sees the streams they send or receive. -/
def ViewerScoped (env : ReadEnv) (req : ReadRequest) : Prop :=
  ∀ user, req.toHttpRequest.TokenOf env.toAuthEnv user → user.role ≠ "operator" →
    ∀ stream ∈ (streamsReadRouter env req).parties,
      stream.1 = user.address ∨ stream.2 = user.address

/-- The request comes with the key of an active record that may read streams. -/
def HasReadKey (env : AuthEnv) (request : HttpRequest) : Prop :=
  ∃ rawKey record, configured request.headers.xApiKey = some rawKey ∧
    findRecordByRawKey env rawKey = .ok (some record) ∧ record.active = true ∧
    "streams:read" ∈ record.scopes

/-- The list is asked for, and this is what its parameters say. -/
structure ListQuery (env : ReadEnv) (req : ReadRequest) (query : PaginationQuery)
    (cursor : Option OpaqueCursor) : Prop where
  path : req.path = []
  parsed : paginationSchema req.query = .ok query
  decoded : parseCursorParam env.decodeJson query.cursor = .ok cursor
  bound : (cursor.bind OpaqueCursor.scope).any
    (· ≠ streamCursorScope query.status query.sender query.recipient none) = false
  healthy : env.listingHealthy = true

/-- The rows of the database that a request asks for, whoever asks. -/
inductive AsksFor (env : ReadEnv) (req : ReadRequest) (row : StreamRecord) : Prop
  | listed (query : PaginationQuery) (cursor : Option OpaqueCursor) (table : StreamsTable)
      (asked : ListQuery env req query cursor) (read : env.database 0 = .ok table)
      (mem : row ∈ (findWithCursor env table ⟨query.status, query.sender, query.recipient⟩
        query.limit (cursor.map OpaqueCursor.lastId) query.includeTotal).streams)
  | exported (afterId : Option String) (page : StreamPage) (path : req.path = ["export"])
      (resumed : resumeFrom env req = .ok afterId)
      (fetched : page ∈ (exportPages env maxExportPages 0 afterId).1) (mem : row ∈ page.streams)
  | found (id : String) (path : req.path = [id]) (named : id ≠ "export")
      (read : lookUp env id = .ok row) (modified : respondNotModified env req row = false)
  | linkedData (id : String) (path : req.path = [id, "export.jsonld"])
      (read : lookUp env id = .ok row) (modified : respondNotModified env req row = false)
      (decimal : (toStreamJsonLd env.now row).isOk = true)
  | events (id : String) (path : req.path = [id, "events"]) (named : id ≠ "")
      (token : rejectUnauthorizedRealtimeRequest env req = .ok ())
      (admitted : env.sseRejection = none) (read : lookUp env id = .ok row)
      (header : (parseLastEventIdHeader req.lastEventId).isOk = true)
      (written : env.sseFrames.filterMap SseFrame.event? ≠ [])

/-! ## The chain -/

section

variable {env : ReadEnv} {req : ReadRequest} {stream : String × String} {id : String}
  {context context' : Context}

theorem authenticateApiKey_ok {env : AuthEnv} (h : authenticateApiKey env context = .ok context') :
    context' = context ∨ ∃ rawKey record,
      configured context.request.headers.xApiKey = some rawKey ∧
      findRecordByRawKey env rawKey = .ok (some record) ∧ record.active = true ∧
      context' = { context with keyScopes := some record.scopes, keyId := some record.id } := by
  unfold authenticateApiKey at h
  split at h
  · cases h
    exact Or.inl rfl
  · rename_i rawKey hraw
    split at h
    · cases h
    · cases h
    · rename_i record hrecord
      split_ifs at h with hactive
      cases h
      rw [Bool.not_eq_false] at hactive
      exact Or.inr ⟨rawKey, record, hraw, hrecord, hactive, rfl⟩

theorem requireScope_ok {requiredScopes : List String}
    (h : requireScope requiredScopes context = .ok context') : context' = context := by
  simp only [requireScope] at h
  split_ifs at h
  all_goals
    cases h
    rfl

theorem through_readKey
    (h : through [authenticateApiKey env.toAuthEnv, requireScope ["streams:read"]] { request :=
      req.toHttpRequest } = .ok context) :
    HasReadKey env.toAuthEnv req.toHttpRequest ∧ context.user = none ∧
      context.callerAddress = none := by
  obtain ⟨keyed, hkey, hrest⟩ := through_cons_eq_ok.mp h
  obtain ⟨passed, hscope, hlast⟩ := through_cons_eq_ok.mp hrest
  cases hlast
  rcases authenticateApiKey_ok hkey with rfl | ⟨rawKey, record, hraw, hrecord, hactive, rfl⟩
  · cases hscope
  · by_cases hread : "streams:read" ∈ record.scopes
    · cases requireScope_ok hscope
      exact ⟨⟨rawKey, record, hraw, hrecord, hactive, hread⟩, rfl, rfl⟩
    · simp [requireScope, hread] at hscope
      split_ifs at hscope

theorem exists_through_of_hasReadKey (h : HasReadKey env.toAuthEnv req.toHttpRequest) :
    ∃ context, through [authenticateApiKey env.toAuthEnv, requireScope ["streams:read"]]
        { request := req.toHttpRequest } = .ok context ∧ context.user = none ∧
      context.callerAddress = none := by
  obtain ⟨rawKey, record, hraw, hrecord, hactive, hscope⟩ := h
  have hkey : authenticateApiKey env.toAuthEnv { request := req.toHttpRequest } =
      .ok ⟨req.toHttpRequest, none, some record.scopes, some record.id, none⟩ := by
    simp only [authenticateApiKey, hraw, hrecord, hactive, Bool.true_eq_false, if_false]
  have hne : record.scopes ≠ [] := List.ne_nil_of_mem hscope
  have hpass : requireScope ["streams:read"]
      ⟨req.toHttpRequest, none, some record.scopes, some record.id, none⟩ =
        .ok ⟨req.toHttpRequest, none, some record.scopes, some record.id, none⟩ := by
    simp [requireScope, hne, hscope]
  exact ⟨_, through_cons_eq_ok.mpr ⟨_, hkey, through_cons_eq_ok.mpr ⟨_, hpass, rfl⟩⟩, rfl, rfl⟩

theorem through_readScope_iff :
    through [authenticateApiKey env.toAuthEnv, requireScope ["streams:read"],
        enforceStreamScope] { request := req.toHttpRequest } = .ok context ↔
      through [authenticateApiKey env.toAuthEnv, requireScope ["streams:read"]]
        { request := req.toHttpRequest } = .ok context := by
  rw [show [authenticateApiKey env.toAuthEnv, requireScope ["streams:read"],
      enforceStreamScope] = [authenticateApiKey env.toAuthEnv, requireScope ["streams:read"]] ++
        [enforceStreamScope] from rfl, through_concat_eq_ok]
  have hpass : ∀ passed : Context, passed.user = none → enforceStreamScope passed = .ok passed := by
    intro passed huser
    simp only [enforceStreamScope, huser]
  apply Iff.intro
  · rintro ⟨passed, hthrough, hscope⟩
    rw [hpass passed (through_readKey hthrough).2.1] at hscope
    cases hscope
    exact hthrough
  · intro hthrough
    exact ⟨context, hthrough, hpass context (through_readKey hthrough).2.1⟩

theorem mem_parties_readRoute {links : List Middleware}
    {handler : Context → Except ApiError ReadAnswer}
    (hlinks : ∀ context, through links { request := req.toHttpRequest } = .ok context ↔
      through [authenticateApiKey env.toAuthEnv, requireScope ["streams:read"]]
        { request := req.toHttpRequest } = .ok context) {P : Prop}
    (hhandler : ∀ context : Context, context.callerAddress = none →
      ((∃ answer, handler context = .ok answer ∧ stream ∈ answer.parties) ↔ P)) :
    stream ∈ (readRoute links handler { request := req.toHttpRequest }).parties ↔
      HasReadKey env.toAuthEnv req.toHttpRequest ∧ P := by
  apply Iff.intro
  · intro hmem
    rw [readRoute] at hmem
    split at hmem
    · cases hmem
    · rename_i answer hanswer
      obtain ⟨context, hthrough, hhandled⟩ := bind_eq_ok.mp hanswer
      obtain ⟨hkey, _, hcaller⟩ := through_readKey ((hlinks context).mp hthrough)
      exact ⟨hkey, (hhandler context hcaller).mp ⟨answer, hhandled, hmem⟩⟩
  · rintro ⟨hkey, hP⟩
    obtain ⟨context, hthrough, _, hcaller⟩ := exists_through_of_hasReadKey hkey
    obtain ⟨answer, hhandled, hmem⟩ := (hhandler context hcaller).mpr hP
    rw [readRoute, bind_eq_ok.mpr ⟨context, (hlinks context).mpr hthrough, hhandled⟩]
    exact hmem

/-! ## What the handlers show -/

/-- The sender and the recipient of a row. -/
def StreamRecord.parties (row : StreamRecord) : String × String :=
  (row.senderAddress, row.recipientAddress)

theorem listStreamsHandler_eq_ok_iff (hpath : req.path = [])
    (hcaller : context.callerAddress = none) {answer : ReadAnswer} :
    listStreamsHandler env req context = .ok answer ↔
      ∃ query cursor table, ListQuery env req query cursor ∧ env.database 0 = .ok table ∧
        answer =
          let page := findWithCursor env table ⟨query.status, query.sender, query.recipient⟩
            query.limit (cursor.map OpaqueCursor.lastId) query.includeTotal
          .listed (toStreamListPage page
            (streamCursorScope query.status query.sender query.recipient none)
            query.includeTotal) (streamCacheControl (page.streams.map StreamRecord.status)) := by
  have hassert : ∀ sender recipient, assertCallerMayList none sender recipient = .ok () :=
    fun _ _ => rfl
  apply Iff.intro
  · intro h
    unfold listStreamsHandler at h
    split at h
    · cases h
    · rename_i query hparsed
      obtain ⟨cursor, hcursor, h⟩ := bind_eq_ok.mp h
      dsimp only at h
      rw [hcaller] at h
      split_ifs at h with hbound hhealthy
      obtain ⟨_, _, h⟩ := bind_eq_ok.mp h
      split at h
      · cases h
      · rename_i table htable
        cases h
        exact ⟨query, cursor, table, ⟨hpath, hparsed, hcursor, Bool.eq_false_iff.mpr hbound,
          Bool.not_eq_false _ ▸ hhealthy⟩, htable, rfl⟩
  · rintro ⟨query, cursor, table, hquery, htable, rfl⟩
    simp only [listStreamsHandler, hquery.parsed, hquery.decoded, hcaller, hquery.healthy, hassert,
      htable, bind, Except.bind, hquery.bound, Bool.false_eq_true, Bool.true_eq_false, if_false]

theorem shown_list (hpath : req.path = []) (hcaller : context.callerAddress = none) :
    (∃ answer, listStreamsHandler env req context = .ok answer ∧ stream ∈ answer.parties) ↔
      ∃ row, AsksFor env req row ∧ row.parties = stream := by
  apply Iff.intro
  · rintro ⟨answer, hanswer, hmem⟩
    obtain ⟨query, cursor, table, hquery, htable, rfl⟩ :=
      (listStreamsHandler_eq_ok_iff hpath hcaller).mp hanswer
    obtain ⟨shown, hshown, rfl⟩ := List.mem_map.mp hmem
    obtain ⟨row, hrow, rfl⟩ := List.mem_map.mp hshown
    exact ⟨row, .listed query cursor table hquery htable hrow, rfl⟩
  · rintro ⟨row, hasks, rfl⟩
    cases hasks with
    | listed query cursor table hquery htable hrow =>
      refine ⟨_, (listStreamsHandler_eq_ok_iff hpath hcaller).mpr
        ⟨query, cursor, table, hquery, htable, rfl⟩, ?_⟩
      exact List.mem_map.mpr ⟨toApiStream row, List.mem_map_of_mem hrow, rfl⟩
    | exported _ _ hother | found _ hother | linkedData _ hother | events _ hother =>
      cases hpath.symm.trans hother

theorem parties_toExportNdjsonLines (records : List StreamRecord) :
    (toExportNdjsonLines records).filterMap ExportLine.parties? =
      records.map StreamRecord.parties := by
  have hstreams : (records.map fun record => ExportLine.stream (toApiStream record)).filterMap
      ExportLine.parties? = records.map StreamRecord.parties := by
    rw [List.filterMap_map]
    exact congrFun List.filterMap_eq_map records
  have hcursor : (records.getLast?.map fun last => ExportLine.resumptionCursor
      ⟨last.id, some unscopedStreamCursor⟩).toList.filterMap ExportLine.parties? = [] := by
    cases records.getLast? <;> rfl
  rw [toExportNdjsonLines, List.filterMap_append, hstreams, hcursor, List.append_nil]

theorem shown_export (hpath : req.path = ["export"]) (hcaller : context.callerAddress = none) :
    (∃ answer, exportStreamsHandler env req context = .ok answer ∧ stream ∈ answer.parties) ↔
      ∃ row, AsksFor env req row ∧ row.parties = stream := by
  have hanswer : ∀ {afterId}, resumeFrom env req = .ok afterId →
      exportStreamsHandler env req context = .ok (.exported
        ((exportPages env maxExportPages 0 afterId).1.flatMap fun page =>
          toExportNdjsonLines page.streams)
        ((exportPages env maxExportPages 0 afterId).2.map rethrowDbError)) := by
    intro afterId hresume
    simp only [exportStreamsHandler, hresume, hcaller, bind, Except.bind, configured,
      Option.filter_none, ne_eq, not_true_eq_false, if_false]
  apply Iff.intro
  · rintro ⟨answer, hok, hmem⟩
    obtain ⟨afterId, hresume, _⟩ := bind_eq_ok.mp hok
    cases (hanswer hresume).symm.trans hok
    rw [ReadAnswer.parties, List.filterMap_flatMap, List.mem_flatMap] at hmem
    obtain ⟨page, hpage, hshown⟩ := hmem
    rw [parties_toExportNdjsonLines] at hshown
    obtain ⟨row, hrow, hparties⟩ := List.mem_map.mp hshown
    exact ⟨row, .exported afterId page hpath hresume hpage hrow, hparties⟩
  · rintro ⟨row, hasks, rfl⟩
    cases hasks with
    | exported _ page _ hresume hpage hrow =>
      refine ⟨_, hanswer hresume, ?_⟩
      rw [ReadAnswer.parties, List.filterMap_flatMap, List.mem_flatMap]
      refine ⟨page, hpage, ?_⟩
      rw [parties_toExportNdjsonLines]
      exact List.mem_map_of_mem hrow
    | listed _ _ _ hquery => cases hpath.symm.trans hquery.path
    | found _ hother hnamed =>
      cases hpath.symm.trans hother
      exact absurd rfl hnamed
    | linkedData _ hother | events _ hother => cases hpath.symm.trans hother

theorem fields_toStreamJsonLd {now : ℤ} {row : StreamRecord} {document : StreamJsonLd}
    (h : toStreamJsonLd now row = .ok document) :
    document.sender = row.senderAddress ∧ document.recipient = row.recipientAddress ∧
      document.status =
        deriveStreamStatusFromSchedule row.startTime row.endTime row.status now := by
  obtain ⟨_, _, h⟩ := bind_eq_ok.mp h
  obtain ⟨_, _, h⟩ := bind_eq_ok.mp h
  obtain ⟨_, _, h⟩ := bind_eq_ok.mp h
  obtain ⟨_, _, h⟩ := bind_eq_ok.mp h
  cases h
  exact ⟨rfl, rfl, rfl⟩

theorem shown_get (hpath : req.path = [id]) (hnamed : id ≠ "export") :
    (∃ answer, getStreamHandler env req id = .ok answer ∧ stream ∈ answer.parties) ↔
      ∃ row, AsksFor env req row ∧ row.parties = stream := by
  apply Iff.intro
  · rintro ⟨answer, hok, hmem⟩
    obtain ⟨row, hread, hrest⟩ := bind_eq_ok.mp hok
    split_ifs at hrest with hmodified
    · cases hrest
      cases hmem
    · cases hrest
      exact ⟨row, .found id hpath hnamed hread (Bool.eq_false_iff.mpr hmodified),
        (List.mem_singleton.mp hmem).symm⟩
  · rintro ⟨row, hasks, rfl⟩
    cases hasks with
    | found _ hpath' _ hread hmodified =>
      cases hpath.symm.trans hpath'
      refine ⟨_, bind_eq_ok.mpr ⟨row, hread, if_neg ?_⟩, List.mem_singleton_self _⟩
      exact Bool.eq_false_iff.mp hmodified
    | listed _ _ _ hquery => cases hpath.symm.trans hquery.path
    | exported _ _ hother =>
      cases hpath.symm.trans hother
      exact absurd rfl hnamed
    | linkedData _ hother | events _ hother => cases hpath.symm.trans hother

theorem shown_linkedData (hpath : req.path = [id, "export.jsonld"]) :
    (∃ answer, exportStreamJsonLdHandler env req id = .ok answer ∧ stream ∈ answer.parties) ↔
      ∃ row, AsksFor env req row ∧ row.parties = stream := by
  apply Iff.intro
  · rintro ⟨answer, hok, hmem⟩
    obtain ⟨row, hread, hrest⟩ := bind_eq_ok.mp hok
    split_ifs at hrest with hmodified
    · cases hrest
      cases hmem
    · split at hrest
      · cases hrest
      · rename_i document hdocument
        cases hrest
        refine ⟨row, .linkedData id hpath hread (Bool.eq_false_iff.mpr hmodified)
          (by rw [hdocument]; rfl), ?_⟩
        rw [List.mem_singleton.mp hmem, (fields_toStreamJsonLd hdocument).1,
          (fields_toStreamJsonLd hdocument).2.1]
        rfl
  · rintro ⟨row, hasks, rfl⟩
    cases hasks with
    | linkedData _ hpath' hread hmodified hdecimal =>
      cases hpath.symm.trans hpath'
      cases hdocument : toStreamJsonLd env.now row with
      | error =>
        rw [hdocument] at hdecimal
        cases hdecimal
      | ok document =>
        refine ⟨.linkedData document (streamCacheControl [row.status]),
          bind_eq_ok.mpr ⟨row, hread, ?_⟩, ?_⟩
        · rw [if_neg (Bool.eq_false_iff.mp hmodified), hdocument]
        · rw [ReadAnswer.parties, (fields_toStreamJsonLd hdocument).1,
            (fields_toStreamJsonLd hdocument).2.1]
          exact List.mem_singleton_self _
    | listed _ _ _ hquery => cases hpath.symm.trans hquery.path
    | exported _ _ hother | found _ hother => cases hpath.symm.trans hother
    | events _ hother => exact absurd (hpath.symm.trans hother) (by simp)

theorem shown_events (hpath : req.path = [id, "events"]) :
    (∃ answer, streamEventsHandler env req id = .ok answer ∧ stream ∈ answer.parties) ↔
      ∃ row, AsksFor env req row ∧ row.parties = stream := by
  apply Iff.intro
  · rintro ⟨answer, hok, hmem⟩
    unfold streamEventsHandler at hok
    split_ifs at hok with hnamed
    obtain ⟨_, htoken, hok⟩ := bind_eq_ok.mp hok
    split at hok
    · cases hok
    · rename_i hadmitted
      obtain ⟨row, hread, hok⟩ := bind_eq_ok.mp hok
      obtain ⟨lastEventId, hheader, hok⟩ := bind_eq_ok.mp hok
      cases hok
      by_cases hwritten : env.sseFrames.filterMap SseFrame.event? = []
      · rw [ReadAnswer.parties, if_pos hwritten] at hmem
        cases hmem
      · rw [ReadAnswer.parties, if_neg hwritten] at hmem
        exact ⟨row, .events id hpath hnamed htoken hadmitted hread (by rw [hheader]; rfl) hwritten,
          (List.mem_singleton.mp hmem).symm⟩
  · rintro ⟨row, hasks, rfl⟩
    cases hasks with
    | events _ hpath' hnamed htoken hadmitted hread hheader hwritten =>
      cases hpath.symm.trans hpath'
      cases hparsed : parseLastEventIdHeader req.lastEventId with
      | error =>
        rw [hparsed] at hheader
        cases hheader
      | ok =>
        refine ⟨.events row env.sseFrames, ?_, ?_⟩
        · simp only [streamEventsHandler, hnamed, htoken, hadmitted, hread, hparsed, bind,
            Except.bind, if_false]
        · rw [ReadAnswer.parties, if_neg hwritten]
          exact List.mem_singleton_self _
    | listed _ _ _ hquery => cases hpath.symm.trans hquery.path
    | exported _ _ hother | found _ hother => cases hpath.symm.trans hother
    | linkedData _ hother => exact absurd (hpath.symm.trans hother) (by simp)

end

/-! ## When a viewer is scoped -/

theorem parties_eq_nil {env : ReadEnv} {req : ReadRequest} (hget : req.method ≠ .get) :
    (streamsReadRouter env req).parties = [] := by
  rw [streamsReadRouter]
  split
  · rfl
  · rename_i context _
    unfold readRoutes
    split
    next hmethod _ => exact absurd hmethod hget
    next hmethod _ => exact absurd hmethod hget
    next id _ _ =>
      -- only the status of a row is told
      have hhead : ∀ answer, headStreamHandler env id = .ok answer → answer.parties = [] := by
        intro answer hanswer
        unfold headStreamHandler at hanswer
        split_ifs at hanswer
        · cases hanswer
          rfl
        · split at hanswer <;> cases hanswer <;> rfl
      rw [readRoute]
      split
      · rfl
      · rename_i answer hanswer
        obtain ⟨_, _, hhandled⟩ := bind_eq_ok.mp hanswer
        exact hhead answer hhandled
    next hmethod _ => exact absurd hmethod hget
    next hmethod _ => exact absurd hmethod hget
    next hmethod _ => exact absurd hmethod hget
    next => rfl

theorem mem_parties_iff {env : ReadEnv} {req : ReadRequest} {stream : String × String} :
    stream ∈ (streamsReadRouter env req).parties ↔ req.method = .get ∧
      HasReadKey env.toAuthEnv req.toHttpRequest ∧
        ∃ row, AsksFor env req row ∧ row.parties = stream := by
  by_cases hget : req.method = .get
  · have hpass : csrfMiddleware env.toAuthEnv { request := req.toHttpRequest } =
        .ok { request := req.toHttpRequest } := by
      simp [csrfMiddleware, hget, isMutatingMethod]
    rw [streamsReadRouter, hpass, and_iff_right hget]
    dsimp only
    unfold readRoutes
    split
    next hpath =>
      exact mem_parties_readRoute (fun _ => through_readScope_iff)
        fun _ hcaller => shown_list hpath hcaller
    next hpath =>
      exact mem_parties_readRoute (fun _ => through_readScope_iff)
        fun _ hcaller => shown_export hpath hcaller
    next hhead _ => cases hget.symm.trans hhead
    next id hnamed _ hpath =>
      exact mem_parties_readRoute (fun _ => Iff.rfl) fun _ _ => shown_get hpath hnamed
    next hpath =>
      exact mem_parties_readRoute (fun _ => Iff.rfl) fun _ _ => shown_linkedData hpath
    next hpath =>
      exact mem_parties_readRoute (fun _ => Iff.rfl) fun _ _ => shown_events hpath
    next hlist hexport _ hsingle hlinked hevents =>
      apply Iff.intro
      · intro hmem
        cases hmem
      · rintro ⟨_, row, hasks, _⟩
        cases hasks with
        | listed _ _ _ hquery => exact (hlist hget hquery.path).elim
        | exported _ _ hpath => exact (hexport hget hpath).elim
        | found id hpath => exact (hsingle id hget hpath).elim
        | linkedData id hpath => exact (hlinked id hget hpath).elim
        | events id hpath => exact (hevents id hget hpath).elim
  · rw [parties_eq_nil hget]
    apply Iff.intro
    · intro hmem
      cases hmem
    · rintro ⟨hmethod, _⟩
      exact absurd hmethod hget

/-- Viewers are scoped exactly when no key that may read streams comes with their request or
what it asks for is theirs. -/
theorem viewerScoped_iff (env : ReadEnv) (req : ReadRequest) :
    ViewerScoped env req ↔
      ∀ user, req.toHttpRequest.TokenOf env.toAuthEnv user → user.role ≠ "operator" →
        req.method = .get → HasReadKey env.toAuthEnv req.toHttpRequest →
          ∀ row, AsksFor env req row →
            row.senderAddress = user.address ∨ row.recipientAddress = user.address := by
  apply Iff.intro
  · intro hscoped user htoken hrole hget hkey row hasks
    exact hscoped user htoken hrole row.parties
      (mem_parties_iff.mpr ⟨hget, hkey, row, hasks, rfl⟩)
  · intro hown user htoken hrole stream hmem
    obtain ⟨hget, hkey, row, hasks, rfl⟩ := mem_parties_iff.mp hmem
    exact hown user htoken hrole hget hkey row hasks

/-- A table with one stream, from `G1` to `G2`, a key that may read and tokens of the viewer
`G9`. -/
def keyedEnv : ReadEnv where
  verifyToken _ := some (.object [("address", .string "G9"), ("role", .string "viewer"),
    ("permissions", .array [])])
  redisExists := none
  apiKeys := .ok [⟨"1", "00000000000000000000000000000000" ++
    "00000000000000000000000000000000", "salt", "flx_test", true, ["streams:read"]⟩]
  apiKeyPepper := some "pepper"
  apiKeyPepperPrevious := none
  hmacSha256 _ _ := "00000000000000000000000000000000" ++ "00000000000000000000000000000000"
  database _ := .ok (.single streamSample)
  collation := Indexer.codePointCollation
  addressHash text := text
  decodeJson _ := none
  listingHealthy := true
  weakEntityTag record := record.id
  now := 0
  wsAuthRequired := false
  jwtSecret := none
  verifySignature _ _ := false
  sseRejection := none
  sseFrames := []

/-- `GET /api/streams/ab-0` with a token and a key. -/
def keyedRead : ReadRequest where
  method := .get
  path := ["ab-0"]
  headers := { authorization := some "Bearer token", xApiKey := some "flx_test_key" }
  body := none

/-- A viewer with a key reads the stream of others. -/
theorem viewerScoped_fails : ¬ ∀ env req, ViewerScoped env req := by
  intro hall
  have htoken : keyedRead.toHttpRequest.TokenOf keyedEnv.toAuthEnv ⟨"G9", "viewer", []⟩ :=
    ⟨"token", _, by decide, rfl, by decide, by rfl⟩
  have hkey : HasReadKey keyedEnv.toAuthEnv keyedRead.toHttpRequest :=
    ⟨"flx_test_key", _, by decide, by rfl, by rfl, by decide⟩
  have hasks : AsksFor keyedEnv keyedRead streamSample :=
    .found "ab-0" rfl (by decide) (by rfl) (by rfl)
  have hshown : streamSample.parties ∈ (streamsReadRouter keyedEnv keyedRead).parties :=
    mem_parties_iff.mpr ⟨rfl, hkey, streamSample, hasks, rfl⟩
  have hown := hall keyedEnv keyedRead _ htoken (by decide) _ hshown
  exact absurd hown (by decide)

end Fluxora.Streams
