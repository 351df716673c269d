/-
# Authentication of requests

A request passes through a chain of middlewares, each of which answers it, or attaches
something to it and calls the next one. `authenticate` attaches the user of a valid
token and lets a request without one go on, so that it is `requireAuth` that refuses the
anonymous ones. API keys only bring scopes along.

The signature check of a token, the revocation list and the digests are parameters.
-/

import Fluxora.Lib.Fallible
import Fluxora.Lib.JsText
import Fluxora.Lib.Json

namespace Fluxora.Auth

open Lib Lib.Fallible Lib.JsText

/-! ## Requests -/

inductive Method
  | get
  | head
  | options
  | post
  | put
  | patch
  | delete
  deriving DecidableEq

/-- The headers that are looked at. -/
structure Headers where
  authorization : Option String := none
  xApiKey : Option String := none
  cookie : Option String := none
  xCsrfToken : Option String := none
  idempotencyKey : Option String := none

/-- A request, with the segments of its path below the mount point. -/
structure HttpRequest where
  method : Method
  path : List String
  headers : Headers
  body : Option Json

/-! ## Errors -/

inductive ApiErrorCode
  | validationError
  | notFound
  | conflict
  | unauthorized
  | forbidden
  | tooManyRequests
  | serviceUnavailable
  | internalError
  deriving DecidableEq

structure ApiError where
  statusCode : ℕ
  code : ApiErrorCode
  message : String
  details : List (String × String) := []
  deriving DecidableEq

def notFound (resource id : String) : ApiError :=
  ⟨404, .notFound, s!"{resource} '{id}' not found", []⟩

def validationError (message : String) : ApiError := ⟨400, .validationError, message, []⟩

def serviceUnavailable (message : String) : ApiError := ⟨503, .serviceUnavailable, message, []⟩

def unauthorized (message : String) : ApiError := ⟨401, .unauthorized, message, []⟩

def forbidden (message : String) : ApiError := ⟨403, .forbidden, message, []⟩

/-- The answer to an error that is not an API error. -/
def internalError : ApiError := ⟨500, .internalError, "Internal server error", []⟩

/-! ## Users and keys -/

inductive Permission
  | streamsRead
  | streamsWrite
  | adminPause
  | adminReindex
  | indexerReplay
  | dlqList
  | dlqRead
  | dlqReplay
  | dlqDelete
  | dlqConsumerResume
  | auditRead
  | auditWrite
  deriving DecidableEq

def Permission.text : Permission → String
  | .streamsRead => "streams:read"
  | .streamsWrite => "streams:write"
  | .adminPause => "admin:pause"
  | .adminReindex => "admin:reindex"
  | .indexerReplay => "indexer:replay"
  | .dlqList => "dlq:list"
  | .dlqRead => "dlq:read"
  | .dlqReplay => "dlq:replay"
  | .dlqDelete => "dlq:delete"
  | .dlqConsumerResume => "dlq:consumer:resume"
  | .auditRead => "audit:read"
  | .auditWrite => "audit:write"

def Permission.all : List Permission :=
  [.streamsRead, .streamsWrite, .adminPause, .adminReindex, .indexerReplay, .dlqList, .dlqRead,
    .dlqReplay, .dlqDelete, .dlqConsumerResume, .auditRead, .auditWrite]

/-- The principal of a token. -/
structure UserPayload where
  address : String
  role : String
  permissions : List Permission
  deriving DecidableEq

/-- What is stored of an API key. -/
structure ApiKeyRecord where
  id : String
  keyHash : String
  salt : String
  keyPrefix : String
  active : Bool
  scopes : List String

/-- What the middlewares consult: the signature check of `jsonwebtoken`, the connection to
Redis with what is stored there, the keys in the database and the digest. -/
structure AuthEnv where
  /-- The payload of a token with a valid signature, issuer, audience and expiry. -/
  verifyToken : String → Option Json
  /-- `EXISTS`, over a connection that may not come up and may fail. -/
  redisExists : Option (String → Except String Bool)
  apiKeys : Except String (List ApiKeyRecord)
  apiKeyPepper : Option String
  apiKeyPepperPrevious : Option String
  /-- The hex digest of a text under a key. -/
  hmacSha256 : String → String → String

/-- A request with what the middlewares have attached to it. -/
structure Context where
  request : HttpRequest
  user : Option UserPayload := none
  keyScopes : Option (List String) := none
  keyId : Option String := none
  callerAddress : Option String := none

/-- A middleware answers with an error or calls the next one. -/
abbrev Middleware := Context → Except ApiError Context

/-! ## Tokens -/

/-- Whether a value counts as true. -/
def truthy : Option Json → Bool
  | none => false
  | some .null => false
  | some (.bool b) => b
  | some (.number q) => q ≠ 0
  | some (.string text) => text ≠ ""
  | some (.array _) => true
  | some (.object _) => true

/-- A property of a payload, which is absent where the payload is not an object. -/
def property (key : String) : Json → Option Json
  | .object entries => entries.lookup key
  | _ => none

/-- The permissions a payload lists. Any other entry refuses the whole list. -/
def permissionList : Option Json → Option (List Permission)
  | some (.array items) =>
    items.mapM fun item =>
      match item with
      | .string text => Permission.all.find? (·.text = text)
      | _ => none
  | _ => none

/-- `tokenSchema`. -/
def tokenSchema (payload : Json) : Option UserPayload :=
  match property "address" payload, property "role" payload,
      permissionList (property "permissions" payload), property "jti" payload with
  | some (.string address), some (.string role), some permissions, none =>
    some { address, role, permissions }
  | some (.string address), some (.string role), some permissions, some (.string _) =>
    some { address, role, permissions }
  | _, _, _, _ => none

/-- The token of an authorization header: what follows the scheme, trimmed. -/
def bearerToken (header : Option String) : Option String :=
  let text := (header.getD "").toList
  let token := trim ((text.dropWhile (· ≠ ' ')).drop 1)
  if text.takeWhile (· ≠ ' ') = "Bearer".toList ∧ token ≠ [] then some (String.ofList token)
  else none

section

variable (env : AuthEnv)

/-- Whether a token id has been revoked. An id that is not a text counts as revoked, and
so does one that cannot be looked up; without a connection there is an error. -/
def isRevoked (jti : Json) : Option Bool :=
  match jti with
  | .string text =>
    if text = "" then some true
    else
      env.redisExists.map fun answer =>
        match answer ("jwt:revoked:" ++ text) with
        | .ok revoked => revoked
        | .error _ => true
  | _ => some true

/-- Attach the user of a token. -/
def authenticate : Middleware := fun context =>
  match bearerToken context.request.headers.authorization with
  | none => .ok context
  | some token =>
    let invalid := unauthorized "Invalid or expired authentication token"
    match env.verifyToken token with
    | none => .error invalid
    | some payload =>
      let jti := property "jti" payload
      match if truthy jti then isRevoked env (jti.getD .null) else some false with
      | none => .error invalid
      | some true => .error (unauthorized "token_revoked")
      | some false =>
        match tokenSchema payload with
        | none => .error invalid
        | some user => .ok { context with user := some user }

def requireAuth : Middleware := fun context =>
  match context.user with
  | none => .error (unauthorized "Authentication required to access this resource")
  | some _ => .ok context

/-! ## API keys -/

/-- A configured text that is empty counts as missing. -/
def configured (text : Option String) : Option String := text.filter (· ≠ "")

def hashWithPepper (rawKey salt pepper : String) : String :=
  env.hmacSha256 pepper (salt ++ rawKey)

def digestBytes : ℕ := 32

def hashesMatch (a b : String) : Bool :=
  hexBytes a.toList = hexBytes b.toList ∧ (hexBytes a.toList).length = digestBytes

/-- Whether a key has the digest of a candidate, under the current or the previous
pepper. -/
def keyMatches (rawKey pepper : String) (candidate : ApiKeyRecord) : Bool :=
  hashesMatch (hashWithPepper env rawKey candidate.salt pepper) candidate.keyHash ||
    (configured env.apiKeyPepperPrevious).any fun previous =>
      hashesMatch (hashWithPepper env rawKey candidate.salt previous) candidate.keyHash

/-- The active record of a raw key. All candidates are compared, and the last one that
matches is the result. The pepper is needed only when there is a candidate. -/
def findRecordByRawKey (rawKey : String) : Except String (Option ApiKeyRecord) := do
  let start := String.ofList (rawKey.toList.take 8)
  let keys ← if trim start.toList = [] then pure [] else env.apiKeys
  match keys.filter fun key => key.keyPrefix = start ∧ key.active with
  | [] => .ok none
  | candidates =>
    match configured env.apiKeyPepper with
    | none => .error "API_KEY_PEPPER is required to hash and validate API keys"
    | some pepper => .ok (candidates.reverse.find? (keyMatches env rawKey pepper))

/-- Attach the scopes of an API key. -/
def authenticateApiKey : Middleware := fun context =>
  match configured context.request.headers.xApiKey with
  | none => .ok context
  | some rawKey =>
    match findRecordByRawKey env rawKey with
    | .error _ => .error (unauthorized "Authentication failed")
    | .ok none => .error (unauthorized "Invalid API key")
    | .ok (some record) =>
      if record.active = false then .error (unauthorized "API key has been revoked")
      else .ok { context with keyScopes := some record.scopes, keyId := some record.id }

end

/-- One of the scopes is required, of the key if there is one and else of the user. -/
def requireScope (requiredScopes : List String) : Middleware := fun context =>
  if context.keyId = none ∧ context.user = none then
    .error (unauthorized "Authentication required to access this resource")
  else
    let scopes :=
      if context.keyId ≠ none then context.keyScopes.getD []
      else (context.user.map fun user => user.permissions.map Permission.text).getD []
    if scopes = [] then .error (forbidden "Principal does not have required scopes")
    else if requiredScopes.any scopes.contains then .ok context
    else
      let required := " or ".intercalate requiredScopes
      .error (forbidden s!"Insufficient scopes. Required: {required}")

/-! ## Principals -/

section

variable {env : AuthEnv}

/-- The request carries a valid token of the user. -/
def HttpRequest.TokenOf (env : AuthEnv) (request : HttpRequest) (user : UserPayload) : Prop :=
  ∃ token payload, bearerToken request.headers.authorization = some token ∧
    env.verifyToken token = some payload ∧
    (truthy (property "jti" payload) = true →
      isRevoked env ((property "jti" payload).getD .null) = some false) ∧
    tokenSchema payload = some user

/-- The middleware leaves the request and its user alone. -/
def KeepsPrincipal (link : Middleware) : Prop :=
  ∀ context context', link context = .ok context' →
    context'.request = context.request ∧ context'.user = context.user

theorem keepsPrincipal_authenticateApiKey : KeepsPrincipal (authenticateApiKey env) := by
  intro context context' h
  unfold authenticateApiKey at h
  split at h
  · cases h
    exact ⟨rfl, rfl⟩
  · split at h
    · cases h
    · cases h
    · split_ifs at h
      cases h
      exact ⟨rfl, rfl⟩

theorem keepsPrincipal_requireScope (requiredScopes : List String) :
    KeepsPrincipal (requireScope requiredScopes) := by
  intro context context' h
  simp only [requireScope] at h
  split_ifs at h
  all_goals
    cases h
    exact ⟨rfl, rfl⟩

variable {context : Context}

theorem authenticate_ok {context' : Context} (hanonymous : context.user = none)
    (h : authenticate env context = .ok context') :
    context'.request = context.request ∧
      ∀ user, context'.user = some user → context.request.TokenOf env user := by
  unfold authenticate at h
  split at h
  · cases h
    exact ⟨rfl, fun user huser => by rw [hanonymous] at huser; cases huser⟩
  · rename_i token htoken
    dsimp only at h
    split at h
    · cases h
    · rename_i payload hpayload
      split at h
      · cases h
      · cases h
      · rename_i hrevoked
        split at h
        · cases h
        · rename_i user huser
          cases h
          refine ⟨rfl, fun user' huser' => ?_⟩
          cases huser'
          refine ⟨token, payload, htoken, hpayload, fun hjti => ?_, huser⟩
          rwa [if_pos hjti] at hrevoked

theorem exists_user_of_through {links : List Middleware}
    (hlinks : ∀ link ∈ links, KeepsPrincipal link) {request : HttpRequest}
    (hthrough : through (authenticate env :: requireAuth :: links) { request } = .ok context) :
    ∃ user, request.TokenOf env user ∧ context.request = request ∧ context.user = some user := by
  obtain ⟨first, hfirst, hthrough⟩ := through_cons_eq_ok.mp hthrough
  obtain ⟨second, hsecond, hthrough⟩ := through_cons_eq_ok.mp hthrough
  obtain ⟨hrequest, htoken⟩ := authenticate_ok rfl hfirst
  unfold requireAuth at hsecond
  split at hsecond
  · cases hsecond
  · rename_i user huser
    cases hsecond
    have hkeep : ∀ link ∈ links, ∀ a b : Context,
        (a.request = request ∧ a.user = some user) → link a = .ok b →
          b.request = request ∧ b.user = some user := by
      intro link hlink a b ⟨hsame, hof⟩ hstep
      obtain ⟨hrequest', huser'⟩ := hlinks link hlink a b hstep
      exact ⟨hrequest'.trans hsame, huser'.trans hof⟩
    obtain ⟨hsame, hof⟩ := through_invariant hkeep ⟨hrequest, huser⟩ hthrough
    exact ⟨user, htoken user huser, hsame, hof⟩

end

end Fluxora.Auth
