/-
# The idempotency middleware

A POST request with an idempotency key looks up what is kept under its key, answers with it,
or claims the key and lets the handler run. The answer of the handler goes to the client and,
if it is a success, to the store.

Look-up, claim, answer and storing are steps of their own, and those of different requests
come in any order. The requests of a key may reach different instances of the service: Redis
is shared, while each instance keeps deadlines of its own.
-/

import Fluxora.Auth.Middleware
import Fluxora.Idempotency.CanonicalBody
import Fluxora.Idempotency.StoreAgreement
import Fluxora.Lib.IsoInstant
import Fluxora.Lib.Transition

namespace Fluxora.Idempotency

open Auth Lib Lib.IsoInstant Lib.TtlTable

/-! ## Requests and replies -/

structure IdempotentRequest where
  method : String
  /-- The `Idempotency-Key` header, if it has a single value. -/
  idempotencyKey : Option String
  keyId : Option String
  userAddress : Option String
  body : Json
  correlationId : Option String

structure HttpReply where
  statusCode : ℕ
  headers : List (String × String)
  body : Json

/-- `errorResponse` for a code that is one of the API's. -/
def errorResponse (code message : String) (details : Option Json) (requestId : Option String) :
    Json :=
  .object [
    ("success", .bool false),
    ("error", .object (
      [("code", .string code), ("message", .string message)] ++
        (details.map fun value => ("details", value)).toList ++
        (requestId.map fun id => ("requestId", .string id)).toList))]

def idempotentReplayResponse (now : ℤ) (data : Json) (requestId : Option String) : Json :=
  .object [
    ("success", .bool true),
    ("data", data),
    ("meta", .object (
      [("timestamp", .string (toISOString now))] ++
        ((configured requestId).map fun id => ("requestId", .string id)).toList ++
        [("idempotencyReplayed", .bool true)]))]

namespace IdempotentRequest

variable (request : IdempotentRequest)

def tenantId : String :=
  ((configured request.keyId).or (configured request.userAddress)).getD "anonymous"

/-- The tenant and the key of a request to which the middleware applies. -/
def scope : Option (String × String) :=
  if request.method = "POST" then
    (configured request.idempotencyKey).map fun key => (request.tenantId, key)
  else none

def inProgressConflict : HttpReply where
  statusCode := 409
  headers := []
  body := errorResponse "IDEMPOTENCY_CONFLICT"
    "A request with this idempotency key is already in progress." none request.correlationId

def fingerprintConflict (storedHash incomingHash : String) : HttpReply where
  statusCode := 409
  headers := []
  body := errorResponse "IDEMPOTENCY_CONFLICT"
    "Request body does not match the original request for this idempotency key."
    (some (.object [("storedHash", .string storedHash), ("incomingHash", .string incomingHash)]))
    request.correlationId

end IdempotentRequest

/-- `body?.data ?? body`. -/
def responseData (body : Json) : Json :=
  match body with
  | .object entries =>
    match entries.lookup "data" with
    | none | some .null => body
    | some data => data
  | _ => body

/-- The answer with a stored response. -/
def replayReply (now : ℤ) (key : String) (request : IdempotentRequest) (statusCode : ℕ)
    (body : Json) : HttpReply where
  statusCode := statusCode
  headers := [("Idempotency-Key", key), ("Idempotency-Replayed", "true")]
  body := idempotentReplayResponse now (responseData body) request.correlationId

/-- The answer of the handler, with the headers that the middleware sets. -/
def firstReply (key : String) (statusCode : ℕ) (body : Json) : HttpReply where
  statusCode := statusCode
  headers := [("Idempotency-Key", key), ("Idempotency-Replayed", "false")]
  body := body

/-! ## A request on its way -/

inductive Progress
  | arrived
  /-- The look-up has found nothing. -/
  | missed
  /-- The claim is acquired and the handler runs. -/
  | running
  /-- The handler has answered, with nothing stored yet. -/
  | responded (statusCode : ℕ) (body : Json)
  /-- The response of the handler has gone to the store. -/
  | stored (statusCode : ℕ) (body : Json)
  | answered (reply : HttpReply)

def Progress.reply (key : String) : Progress → Option HttpReply
  | .responded statusCode body | .stored statusCode body => some (firstReply key statusCode body)
  | .answered reply => some reply
  | _ => none

/-- The handler has been called. -/
def Progress.Executed : Progress → Prop
  | .running | .responded _ _ | .stored _ _ => True
  | _ => False

def isSuccess (statusCode : ℕ) : Prop := 200 ≤ statusCode ∧ statusCode < 300

instance : DecidablePred isSuccess := fun _ => inferInstanceAs (Decidable (_ ∧ _))

/-- The requests of a tenant with a key, and the instance of the service that each has
reached. -/
structure KeyedRequests where
  tenantId : String
  key : String
  request : ℕ → IdempotentRequest
  host : ℕ → ℕ
  inScope : ∀ i, (request i).scope = some (tenantId, key)

namespace KeyedRequests

variable (requests : KeyedRequests) (sha256 : String → String)

def fullKey : String := RedisIdempotencyStore.buildKey requests.key requests.tenantId

def incomingHash (i : ℕ) : String := hashBody sha256 (requests.request i).body

/-- What the middleware does with the result of its look-up. -/
def afterGet (now : ℤ) (i : ℕ) : Option Kept → Progress
  | none => .missed
  | some .inProgress => .answered (requests.request i).inProgressConflict
  | some (.entry existing) =>
    if existing.requestFingerprint ≠ requests.incomingHash sha256 i then
      .answered ((requests.request i).fingerprintConflict existing.requestFingerprint
        (requests.incomingHash sha256 i))
    else
      .answered (replayReply now requests.key (requests.request i) existing.statusCode
        existing.body)

/-- What it does with the result of its claim. -/
def afterStart (i : ℕ) (lockAcquired : Bool) : Progress :=
  if lockAcquired then .running else .answered (requests.request i).inProgressConflict

/-- What it stores. -/
def entryOf (i : ℕ) (statusCode : ℕ) (body : Json) : IdempotentEntry where
  version := envelopeVersion
  requestFingerprint := requests.incomingHash sha256 i
  statusCode := statusCode
  body := body

end KeyedRequests

/-! ## All requests -/

/-- Redis, the deadlines that each instance keeps aside, and the requests. -/
structure IdempotencySystem where
  clock : ℤ
  values : Table String Kept := fun _ => none
  expiryByKey : ℕ → String → Option ℤ := fun _ _ => none
  progress : ℕ → Progress := fun _ => .arrived

inductive IdempotencyEvent
  /-- The look-up of a request is carried out. -/
  | lookUp (i : ℕ)
  /-- So is its claim. -/
  | claim (i : ℕ)
  /-- The handler answers. -/
  | respond (i : ℕ) (statusCode : ℕ) (body : Json)
  /-- Its answer is stored. -/
  | save (i : ℕ)
  /-- An instance carries out an operation on another key. -/
  | elsewhere (instanceId : ℕ) (operation : IdempotencyOperation)

def IdempotencyOperation.fullKey : IdempotencyOperation → String
  | .start key tenantId _ | .get key tenantId | .set key tenantId _ _ =>
    RedisIdempotencyStore.buildKey key tenantId

namespace IdempotencySystem

variable (s : IdempotencySystem)

/-- The store as an instance has it. -/
def storeAt (instanceId : ℕ) : RedisIdempotencyStore where
  values := s.values
  expiryByKey := s.expiryByKey instanceId

def withStore (instanceId : ℕ) (store : RedisIdempotencyStore) : IdempotencySystem :=
  { s with
    values := store.values
    expiryByKey := Function.update s.expiryByKey instanceId store.expiryByKey }

def withProgress (i : ℕ) (progress : Progress) : IdempotencySystem :=
  { s with progress := Function.update s.progress i progress }

variable (requests : KeyedRequests) (sha256 : String → String) (ttlSeconds : ℕ)

/-- An event at the time of the clock. -/
def handle : IdempotencyEvent → Option IdempotencySystem
  | .lookUp i =>
    match s.progress i with
    | .arrived =>
      let (existing, store) :=
        (s.storeAt (requests.host i)).get s.clock requests.key requests.tenantId
      some ((s.withStore (requests.host i) store).withProgress i
        (requests.afterGet sha256 s.clock i existing))
    | _ => none
  | .claim i =>
    match s.progress i with
    | .missed =>
      let (lockAcquired, store) :=
        (s.storeAt (requests.host i)).start s.clock requests.key requests.tenantId ttlSeconds
      some ((s.withStore (requests.host i) store).withProgress i
        (requests.afterStart i lockAcquired))
    | _ => none
  | .respond i statusCode body =>
    match s.progress i with
    | .running => some (s.withProgress i (.responded statusCode body))
    | _ => none
  | .save i =>
    match s.progress i with
    | .responded statusCode body =>
      if isSuccess statusCode then
        let store := (s.storeAt (requests.host i)).set s.clock requests.key
          requests.tenantId (requests.entryOf sha256 i statusCode body) ttlSeconds
        some ((s.withStore (requests.host i) store).withProgress i (.stored statusCode body))
      else none
    | _ => none
  | .elsewhere instanceId operation =>
    if operation.fullKey = requests.fullKey then none
    else some (s.withStore instanceId ((s.storeAt instanceId).perform s.clock operation).2)

def later (elapsed : ℕ) : IdempotencySystem := { s with clock := s.clock + elapsed }

/-- An event some time after the one before. -/
def step (label : ℕ × IdempotencyEvent) : Option IdempotencySystem :=
  (s.later label.1).handle requests sha256 ttlSeconds label.2

/-- Redis takes the window of a claim, and what it has under the key is not over. -/
def Undisturbed (label : ℕ × IdempotencyEvent) : Prop :=
  ttlSeconds ≠ 0 ∧ ∀ entry ∈ s.values requests.fullKey, s.clock + label.1 ≤ entry.expireAt

instance : DecidablePred (s.Undisturbed requests ttlSeconds) := fun _ =>
  inferInstanceAs (Decidable (_ ∧ _))

end IdempotencySystem

end Fluxora.Idempotency
