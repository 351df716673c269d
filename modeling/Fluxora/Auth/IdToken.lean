/-
# Verifying ID tokens

An ID token of the configured provider is decoded, its key is looked up among the keys of
the provider, its audience and its signature are checked, and it is kept from being used
twice. Who it stands for is then read from its claims.

Decoding and the signature check belong to the token library, which hands back the claims
it has decoded. What the provider answers and what the check for replays says are
parameters here.
-/

import Fluxora.Auth.Middleware

namespace Fluxora.Auth

open Lib Lib.Fallible

inductive Role
  | operator
  | viewer
  deriving DecidableEq

def Role.text : Role → String
  | .operator => "operator"
  | .viewer => "viewer"

/-- A key of the provider. -/
structure JwksKey where
  kid : String
  n : String
  e : String

/-- What a token says before it is verified. -/
structure DecodedToken where
  kid : Option String
  payload : Json

/-- `jwt.decode` -/
abbrev Decode := String → Option DecodedToken

/-- Why a token is refused. -/
inductive IdTokenError
  | rejected (message : String)
  /-- The audience claim does not include the client. -/
  | audience (expected : String) (found : Option Json)

/-- The provider as a call sees it. -/
structure ProviderEnv where
  oidcIssuerUrl : Option String
  oidcAudience : Option String
  /-- The keys of the provider, as they are cached or fetched again. -/
  getJwks : Bool → Except String (List JwksKey)
  /-- The signature, the issuer, the audience and the expiry of a token. -/
  verifyWithJwk : String → JwksKey → String → String → Except String Unit

structure IdTokenEnv extends ProviderEnv where
  preventReplay : String → ℚ → Except String Unit

/-- Who a token stands for. -/
structure VerifiedIdToken where
  address : Option Json
  role : Role
  sub : Option Json
  email : Option Json
  claims : Json

/-- The first value that counts as true, or the last one. -/
def firstTruthy (first second : Option Json) : Option Json :=
  if truthy first then first else second

/-- The address is a claim of its own, the standard claim or the subject. -/
def extractClaims (payload : Json) : VerifiedIdToken where
  address := firstTruthy (property "stellar_address" payload)
    (firstTruthy (property "address" payload) (property "sub" payload))
  role :=
    match property "role" payload with
    | some (.string text) => if text = "operator" then .operator else .viewer
    | _ => .viewer
  sub := property "sub" payload
  email := property "email" payload
  claims := payload

/-! ## The checks -/

/-- A setting that has to be there. -/
def setting (text : Option String) (message : String) : Except IdTokenError String :=
  match configured text with
  | some text => .ok text
  | none => .error (.rejected message)

/-- Objects and arrays have the type of an object. -/
def isObject : Json → Bool
  | .array _ => true
  | .object _ => true
  | _ => false

/-- The key id, the expiry and the claims of a token, as it says itself. -/
def decodeIdToken (decode : Decode) (idToken : String) :
    Except IdTokenError (String × ℚ × Json) :=
  match decode idToken with
  | none => .error (.rejected "Invalid token structure")
  | some decoded =>
    match configured decoded.kid with
    | none => .error (.rejected "Missing key ID (kid) in token header")
    | some kid =>
      if isObject decoded.payload = false then .error (.rejected "Invalid token payload")
      else
        match property "exp" decoded.payload with
        | some (.number exp) => .ok (kid, exp, decoded.payload)
        | _ => .error (.rejected "Token does not contain an expiration claim (exp)")

/-- The key of a token. The keys are fetched again once when it is not among them. -/
def findKey (env : ProviderEnv) (kid : String) : Except IdTokenError JwksKey := do
  let jwks ← (env.getJwks false).mapError .rejected
  match jwks.find? (·.kid = kid) with
  | some jwk => pure jwk
  | none =>
    let refreshed ← (env.getJwks true).mapError .rejected
    match refreshed.find? (·.kid = kid) with
    | some jwk => pure jwk
    | none => throw (.rejected s!"Signing key not found for kid: {kid}")

/-- The audience claim is one client or a list of them. -/
def checkAudience (audience : String) (rawAud : Option Json) : Except IdTokenError Unit :=
  let isClient : Json → Bool := fun item =>
    match item with
    | .string text => text = audience
    | _ => false
  let included :=
    match rawAud with
    | some (.array items) => items.any isClient
    | some item => isClient item
    | none => false
  if included then .ok () else .error (.audience audience rawAud)

/-- The checks that come before the one for replays, with the expiry and the claims. -/
def checkIdToken (decode : Decode) (env : ProviderEnv) (idToken : String) :
    Except IdTokenError (ℚ × Json) := do
  let issuerUrl ← setting env.oidcIssuerUrl "OIDC issuer URL is not configured"
  let audience ← setting env.oidcAudience
    "OIDC audience (client_id) is not configured — aud validation cannot be skipped"
  let (kid, exp, payload) ← decodeIdToken decode idToken
  let jwk ← findKey env kid
  checkAudience audience (property "aud" payload)
  (env.verifyWithJwk idToken jwk issuerUrl audience).mapError .rejected
  pure (exp, payload)

def verifyIdToken (decode : Decode) (env : IdTokenEnv) (idToken : String) :
    Except IdTokenError VerifiedIdToken := do
  let (exp, payload) ← checkIdToken decode env.toProviderEnv idToken
  (env.preventReplay idToken exp).mapError .rejected
  pure (extractClaims payload)

/-! ## Claims -/

variable {decode : Decode} {env : IdTokenEnv} {idToken : String}

theorem decodeIdToken_ok {kid : String} {exp : ℚ} {payload : Json}
    (h : decodeIdToken decode idToken = .ok (kid, exp, payload)) :
    ∃ decoded, decode idToken = some decoded ∧ decoded.payload = payload := by
  unfold decodeIdToken at h
  split at h
  · cases h
  · rename_i decoded hdecoded
    split at h
    · cases h
    · split_ifs at h
      split at h
      · cases h
        exact ⟨decoded, hdecoded, rfl⟩
      · cases h

theorem checkIdToken_ok {provider : ProviderEnv} {exp : ℚ} {payload : Json}
    (h : checkIdToken decode provider idToken = .ok (exp, payload)) :
    ∃ kid, decodeIdToken decode idToken = .ok (kid, exp, payload) := by
  obtain ⟨_, _, h⟩ := bind_eq_ok.mp h
  obtain ⟨_, _, h⟩ := bind_eq_ok.mp h
  obtain ⟨⟨kid, exp', payload'⟩, hdecoded, h⟩ := bind_eq_ok.mp h
  obtain ⟨_, _, h⟩ := bind_eq_ok.mp h
  obtain ⟨_, _, h⟩ := bind_eq_ok.mp h
  obtain ⟨_, _, h⟩ := bind_eq_ok.mp h
  cases h
  exact ⟨kid, hdecoded⟩

theorem verifyIdToken_ok {verified : VerifiedIdToken}
    (h : verifyIdToken decode env idToken = .ok verified) :
    ∃ decoded, decode idToken = some decoded ∧ verified = extractClaims decoded.payload := by
  obtain ⟨⟨exp, payload⟩, hchecked, h⟩ := bind_eq_ok.mp h
  obtain ⟨_, _, h⟩ := bind_eq_ok.mp h
  cases h
  obtain ⟨kid, hchecked⟩ := checkIdToken_ok hchecked
  obtain ⟨decoded, hsource, rfl⟩ := decodeIdToken_ok hchecked
  exact ⟨decoded, hsource, rfl⟩

end Fluxora.Auth
