/-
# The rate limiter

Each request with an API key is counted under a key of the store that is made of the digest of the
API key and the path. The tier of the API keys, or the override of the tenant, says how many
requests are let through in its window; the budget of a route takes the place of that number, but
not of the window.
-/

import Mathlib.Data.Rat.Floor
import Fluxora.Auth.Middleware
import Fluxora.RateLimit.TenantOverride

namespace Fluxora.RateLimit

open Auth (Method)
open Lib.JsText Lib.SlidingWindow

/-! ## Keys of the store -/

inductive PrincipalType
  | ip
  | apikey
  | admin
  deriving DecidableEq

def PrincipalType.text : PrincipalType → List Char
  | .ip => "ip".toList
  | .apikey => "apikey".toList
  | .admin => "admin".toList

/-- A SHA-256 digest in hexadecimal digits. -/
abbrev Digest := {text : List Char // text.length = 64}

inductive Client
  | ip (address : List Char)
  | apiKey (key : List Char)
  deriving DecidableEq

structure Request where
  now : ℤ
  client : Client
  /-- The key that has been authenticated, from the context of the request. -/
  keyId : Option String
  path : List Char
  method : Method
  /-- What `getOverride` answers for that key, or the message of its failure. -/
  override : Except String (Option RateLimitOverride)

/-- A question for the status of a client. -/
structure StatusQuery where
  now : ℤ
  client : Client
  keyId : Option String
  path : Option (List Char)
  method : Option Method
  override : Except String (Option RateLimitOverride)

structure RateLimitHeaderValues where
  limit : ℕ
  remaining : ℕ
  reset : ℤ
  retryAfter : Option ℤ
  deriving DecidableEq

structure RateLimitStatus where
  limit : ℕ
  remaining : ℕ
  resetsAt : ℤ
  degraded : Bool

/-- The request is handed on, with headers if it has been counted, or it is refused. -/
inductive Outcome
  | next (headers : Option RateLimitHeaderValues)
  | tooManyRequests (headers : RateLimitHeaderValues) (message : String)
  deriving DecidableEq

def Outcome.isNext : Outcome → Bool
  | .next _ => true
  | .tooManyRequests _ _ => false

/-- The settings of a limiter, with the digest of keys and the canonical form of
addresses. -/
structure Limiter where
  ip : RateLimitConfig
  apiKey : RateLimitConfig
  admin : RateLimitConfig
  adminKeys : List (List Char)
  allowlistIps : List (List Char)
  sha256Hex : List Char → Digest
  normaliseIp : List Char → List Char

def exemptPaths : List (List Char) := ["/".toList, "/health".toList, "/api/rate-limits".toList]

def aggregateRoute : List Char := "global".toList

def maxRouteSegmentLength : ℕ := 96

def isAsciiAlphanumeric (c : Char) : Bool := c.isDigit || c.isUpper || c.isLower

/-- A character of a path in a key: a letter or a digit, or its first code unit in
hexadecimal digits. -/
def encodeChar (c : Char) : List Char :=
  if isAsciiAlphanumeric c then [c]
  else
    let digits := Nat.toDigits 16 ((codeUnits [c]).headD 0)
    '_' :: (List.replicate (2 - digits.length) '0' ++ digits)

def getRemainingRequests (count max : ℕ) : ℕ := max - count

def secondsUntil (now resetAt : ℤ) : ℤ := max 0 ⌈((resetAt - now : ℤ) : ℚ) / 1000⌉

def isWriteMethod (method : Method) : Bool := method ∈ [.post, .put, .patch, .delete]

/-- The limit of a request, and whether its route is exempt. -/
def resolveEffectiveLimit (baseConfig : RateLimitConfig)
    (routeConfig : Option RouteRateLimitConfig) (method : Method) : ℕ × Bool :=
  match routeConfig with
  | none => (baseConfig.max, false)
  | some route =>
    if route.exempt then (baseConfig.max, true)
    else
      let effectiveLimit := if route.baseLimit > 0 then route.baseLimit else baseConfig.max
      if isWriteMethod method && route.writeLimit > 0 then (route.writeLimit, false)
      else (effectiveLimit, false)

namespace Limiter

variable (l : Limiter)

/-- The route segment of a key. -/
def routeKeyFromPath (path : Option (List Char)) : List Char :=
  match path with
  | none => aggregateRoute
  | some path =>
    let cleaned := (path.dropWhile (· = '/')).rdropWhile (· = '/')
    if cleaned = [] then aggregateRoute
    else
      let encoded := cleaned.flatMap encodeChar
      if encoded.length ≤ maxRouteSegmentLength then encoded
      else "h_".toList ++ (l.sha256Hex cleaned).1

def principalTypeFor : Client → PrincipalType
  | .ip _ => .ip
  | .apiKey key => if key ∈ l.adminKeys then .admin else .apikey

def principalKey : Client → List Char
  | .ip address => l.normaliseIp address
  | .apiKey key => (l.sha256Hex key).1

/-- `v1:{principalType}:{principalKey}:{routeKey}` -/
def buildStoreKey (client : Client) (routeKey : List Char) : List Char :=
  "v1:".toList ++ ((l.principalTypeFor client).text ++
    (':' :: (l.principalKey client ++ (':' :: routeKey))))

def isAllowlisted : Client → Bool
  | .ip address => l.allowlistIps.contains address
  | .apiKey _ => false

/-- The tier of a client. -/
def tierFor (client : Client) : RateLimitConfig :=
  match l.principalTypeFor client with
  | .admin => l.admin
  | .apikey => l.apiKey
  | .ip => l.ip

/-- The tier of a client, with the limit and the window of the override if there is one.
When the lookup fails it is the tier itself. -/
def configFor (client : Client) (keyId : Option String)
    (override : Except String (Option RateLimitOverride)) : RateLimitConfig :=
  let config := l.tierFor client
  if l.principalTypeFor client = .apikey ∧ keyId.any (· ≠ "") then
    match override with
    | .ok (some tenantOverride) =>
      { config with max := tenantOverride.maxRequests, windowMs := tenantOverride.windowMs }
    | _ => config
  else config

/-- The client has an API key with the digest, and it is not one of the admin keys. -/
def isTenant (tenant : Digest) : Client → Prop
  | .ip _ => False
  | .apiKey key => key ∉ l.adminKeys ∧ l.sha256Hex key = tenant

instance (tenant : Digest) : DecidablePred (l.isTenant tenant)
  | .ip _ => inferInstanceAs (Decidable False)
  | .apiKey key =>
    inferInstanceAs (Decidable (key ∉ l.adminKeys ∧ l.sha256Hex key = tenant))

/-- The key of the store under which a tenant is counted on a route. -/
def tenantStoreKey (tenant : Digest) (routeKey : List Char) : List Char :=
  "v1:".toList ++ (PrincipalType.apikey.text ++ (':' :: (tenant.1 ++ (':' :: routeKey))))

/-- Count a request and answer it, with the store after it. -/
def count (s : InMemoryStore) (r : Request) (windowMs effectiveLimit : ℕ) :
    InMemoryStore × Outcome :=
  let storeKey := l.buildStoreKey r.client (l.routeKeyFromPath (some r.path))
  let aggregateKey := l.buildStoreKey r.client aggregateRoute
  match s.increment storeKey windowMs r.now with
  | .error _ => (s, .next none)
  | .ok ((count, resetAt), s) =>
    -- The aggregate is not enforced, and its failures are swallowed.
    let s :=
      match s.increment aggregateKey windowMs r.now with
      | .error _ => s
      | .ok (_, s) => s
    let reset := ⌈(resetAt : ℚ) / 1000⌉
    if count > effectiveLimit then
      let retryAfter := secondsUntil r.now resetAt
      (s, .tooManyRequests ⟨effectiveLimit, 0, reset, some retryAfter⟩
        s!"Too many requests. Retry after {retryAfter} seconds.")
    else
      (s, .next (some ⟨effectiveLimit, getRemainingRequests count effectiveLimit, reset, none⟩))

/-- The answer to a request, and the store after it. -/
def handle (s : InMemoryStore) (r : Request) : InMemoryStore × Outcome :=
  if !l.ip.enabled && !l.apiKey.enabled then (s, .next none)
  else if r.path ∈ exemptPaths then (s, .next none)
  else if l.isAllowlisted r.client then (s, .next none)
  else
    let config := l.configFor r.client r.keyId r.override
    if !config.enabled then (s, .next none)
    else
      let (effectiveLimit, isExempt) :=
        resolveEffectiveLimit config (getRouteRateLimitConfig r.path) r.method
      if isExempt then (s, .next none)
      else l.count s r config.windowMs effectiveLimit

/-- The status of a client, and the store after it has been read. -/
def getStatus (s : InMemoryStore) (q : StatusQuery) : InMemoryStore × RateLimitStatus :=
  let config := l.configFor q.client q.keyId q.override
  let routeConfig := q.path.bind getRouteRateLimitConfig
  let (effectiveLimit, _) := resolveEffectiveLimit config routeConfig (q.method.getD .get)
  let storeKey := l.buildStoreKey q.client (l.routeKeyFromPath q.path)
  match s.getCount storeKey config.windowMs q.now with
  | .error _ => (s, ⟨effectiveLimit, effectiveLimit, q.now + config.windowMs, true⟩)
  | .ok ((count, resetAt), s) =>
    (s, ⟨effectiveLimit, getRemainingRequests count effectiveLimit, resetAt, false⟩)

end Limiter

/-- What comes to the limiter. -/
inductive Event
  | request (r : Request)
  | status (q : StatusQuery)

def Event.now : Event → ℤ
  | .request r => r.now
  | .status q => q.now

def Event.client : Event → Client
  | .request r => r.client
  | .status q => q.client

/-- The requests of a run with their answers. -/
def Limiter.serve (l : Limiter) : InMemoryStore → List Event → List (Request × Outcome)
  | _, [] => []
  | s, .request r :: rest => (r, (l.handle s r).2) :: l.serve (l.handle s r).1 rest
  | s, .status q :: rest => l.serve (l.getStatus s q).1 rest

/-! ## The keys are accepted by the store -/

namespace Limiter

variable {l : Limiter} {client : Client} {tenant : Digest}

theorem principalTypeFor_of_isTenant (h : l.isTenant tenant client) :
    l.principalTypeFor client = .apikey := by
  cases client with
  | ip => cases h
  | apiKey => exact if_neg h.1

theorem buildStoreKey_of_isTenant (h : l.isTenant tenant client) (routeKey : List Char) :
    l.buildStoreKey client routeKey = tenantStoreKey tenant routeKey := by
  rw [buildStoreKey, principalTypeFor_of_isTenant h, tenantStoreKey]
  cases client with
  | ip => cases h
  | apiKey => rw [principalKey, h.2]

theorem length_routeKeyFromPath_le (path : Option (List Char)) :
    (l.routeKeyFromPath path).length ≤ maxRouteSegmentLength := by
  cases path with
  | none =>
    change aggregateRoute.length ≤ maxRouteSegmentLength
    decide
  | some =>
    rw [routeKeyFromPath]
    dsimp only
    split_ifs with hempty hshort
    · decide
    · exact hshort
    · rw [List.length_append, (l.sha256Hex _).2]
      decide

theorem assertKey_tenantStoreKey (tenant : Digest) (path : Option (List Char)) :
    assertKey (tenantStoreKey tenant (l.routeKeyFromPath path)) = .ok () := by
  have hhead : trim (tenantStoreKey tenant (l.routeKeyFromPath path)) ≠ [] :=
    trim_ne_nil_of_head (by decide)
  have hlength : (tenantStoreKey tenant (l.routeKeyFromPath path)).length ≤ 171 := by
    have hroute := length_routeKeyFromPath_le (l := l) path
    have hversion : "v1:".toList.length = 3 := by decide
    have htype : PrincipalType.apikey.text.length = 6 := by decide
    rw [maxRouteSegmentLength] at hroute
    rw [tenantStoreKey]
    simp only [List.length_append, List.length_cons, tenant.2]
    omega
  have hunits := length_codeUnits_le (tenantStoreKey tenant (l.routeKeyFromPath path))
  rw [assertKey, if_neg hhead, if_neg]
  rw [maxRateLimitKeyLength]
  omega

theorem isTenant_of_buildStoreKey_eq {routeKey routeKey' : List Char}
    (h : l.buildStoreKey client routeKey' = tenantStoreKey tenant routeKey) :
    l.isTenant tenant client := by
  rw [buildStoreKey, tenantStoreKey] at h
  have htail := List.append_cancel_left h
  have htype : l.principalTypeFor client = .apikey := by
    cases hclient : l.principalTypeFor client with
    | apikey => rfl
    | ip =>
      rw [hclient] at htail
      have hhead : some 'i' = some 'a' := congrArg List.head? htail
      exact absurd hhead (by decide)
    | admin =>
      rw [hclient] at htail
      have hsecond : some 'd' = some 'p' := congrArg (fun text => text.tail.head?) htail
      exact absurd hsecond (by decide)
  rw [htype] at htail
  have hrest := (List.cons_inj_right ':').mp (List.append_cancel_left htail)
  cases client with
  | ip => cases htype
  | apiKey key =>
    have hlength : (l.sha256Hex key).1.length = tenant.1.length := by
      rw [(l.sha256Hex key).2, tenant.2]
    refine ⟨?_, Subtype.ext (List.append_inj hrest hlength).1⟩
    rw [principalTypeFor] at htype
    intro hadmin
    rw [if_pos hadmin] at htype
    cases htype

end Limiter

end Fluxora.RateLimit
