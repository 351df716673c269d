/-
# Sessions

`POST /api/auth/session` gives out tokens. With an ID token in the body the session is
that of the identity the ID token stands for; without one any address obtains a session,
in the role it asks for.
-/

import Fluxora.Auth.IdToken

namespace Fluxora.Auth

open Lib Lib.Fallible Lib.JsText

/-! ## Requests -/

/-- A request with the address it comes from. -/
structure SessionRequest where
  ip : String
  body : Option Json

/-- A property of the body. -/
def SessionRequest.field (request : SessionRequest) (key : String) : Option Json :=
  request.body.bind (property key)

structure SessionBody where
  address : Option String
  role : Role
  idToken : Option String

/-- A text that may be absent. -/
def optionalText : Option Json → Option (Option String)
  | none => some none
  | some (.string text) => some (some text)
  | some _ => none

/-- A role that may be absent, and is then that of a viewer. -/
def optionalRole : Option Json → Option Role
  | none => some .viewer
  | some (.string text) => [Role.operator, .viewer].find? (·.text = text)
  | some _ => none

/-- `SessionRequestSchema`. The address is required when there is no ID token. -/
def sessionRequestSchema (body : Option Json) : Option SessionBody :=
  match body with
  | some (.object entries) => do
      let address ← optionalText (entries.lookup "address")
      let role ← optionalRole (entries.lookup "role")
      let idToken ← optionalText (entries.lookup "idToken")
      if configured idToken = none ∧ trim (address.getD "").toList = [] then none
      else some { address, role, idToken }
  | _ => none

/-! ## Answers -/

/-- What a session token says. -/
structure TokenClaims where
  address : Json
  role : Role
  permissions : List Permission

/-- The claims that `generateToken` signs. The permissions follow from the role. -/
def generateToken (address : Json) (role : Role) : TokenClaims where
  address
  role
  permissions :=
    match role with
    | .operator => [.streamsRead, .streamsWrite, .dlqList, .dlqRead, .dlqReplay, .dlqDelete,
        .dlqConsumerResume, .auditRead]
    | .viewer => [.streamsRead]

/-- The counters of failed attempts, by client and by address. -/
structure AuthAttemptStore where
  isLockedOut : Json → Except String ℕ
  recordFailure : Json → Except String Unit
  resetAttempts : Json → Except String Unit

structure SessionEnv extends IdTokenEnv where
  authAttemptStore : Option AuthAttemptStore

/-- An error of the counters is not an API error. -/
def attempt {α : Type} (result : Except String α) : Except ApiError α :=
  result.mapError fun _ => internalError

/-- Refuse an identifier that is locked out. -/
def refuseLockedOut (store : AuthAttemptStore) (identifier : Json) : Except ApiError Unit := do
  let seconds ← attempt (store.isLockedOut identifier)
  if 0 < seconds then
    throw ⟨429, .tooManyRequests, "Too many failed attempts, try again later",
      [("Retry-After", toString seconds)]⟩

def authLockoutMiddleware (env : SessionEnv) (request : SessionRequest) : Except ApiError Unit :=
  match env.authAttemptStore with
  | none => pure ()
  | some store => do
      if request.ip ≠ "" ∧ request.ip ≠ "unknown" then
        refuseLockedOut store (.string request.ip)
      if truthy (request.field "address") then
        refuseLockedOut store ((request.field "address").getD .null)

/-- Count a failed attempt for the client, and for the address the body names. -/
def recordFailures (env : SessionEnv) (request : SessionRequest) (address : Option String) :
    Except ApiError Unit :=
  match env.authAttemptStore with
  | none => pure ()
  | some store => do
      attempt (store.recordFailure (.string request.ip))
      match configured address with
      | none => pure ()
      | some address => attempt (store.recordFailure (.string address))

/-- Forget the failed attempts of the client and of the address. -/
def resetAttempts (env : SessionEnv) (request : SessionRequest) (address : Json) :
    Except ApiError Unit :=
  match env.authAttemptStore with
  | none => pure ()
  | some store => do
      attempt (store.resetAttempts (.string request.ip))
      attempt (store.resetAttempts address)

/-- The address and the role of the session. What the body names is taken from it, and the
rest from the ID token. -/
def targetIdentity (decode : Decode) (env : SessionEnv) (request : SessionRequest)
    (parsed : SessionBody) : Except ApiError (Option Json × Role) :=
  match configured parsed.idToken with
  | none => .ok (parsed.address.map .string, parsed.role)
  | some idToken =>
    if configured env.oidcIssuerUrl = none then
      .error (validationError "OIDC authentication is not configured on this server")
    else
      match verifyIdToken decode env.toIdTokenEnv idToken with
      | .ok verified =>
        .ok (((configured parsed.address).map .string).or verified.address,
          if truthy (request.field "role") then parsed.role else verified.role)
      | .error _ => do
          recordFailures env request parsed.address
          throw (unauthorized "Invalid credentials")

/-- `POST /api/auth/session`, with what the token that is given out says. -/
def postSession (decode : Decode) (env : SessionEnv) (request : SessionRequest) :
    Except ApiError TokenClaims := do
  authLockoutMiddleware env request
  match sessionRequestSchema request.body with
  | none =>
    throw (validationError "Stellar address is required when idToken is not provided")
  | some parsed => do
      let (target, role) ← targetIdentity decode env request parsed
      match target.filter fun address => truthy (some address) with
      | none => throw (validationError "Stellar address is required")
      | some address => do
          resetAttempts env request address
          pure (generateToken address role)

/-! ## What an answered request says -/

variable {text : Option String}

theorem optionalText_eq_some {field : Option Json} (h : optionalText field = some text) :
    field = text.map .string := by
  unfold optionalText at h
  split at h
  · cases h
    rfl
  · cases h
    rfl
  · cases h

theorem optionalRole_eq_some {field : Option Json} {role : Role}
    (h : optionalRole field = some role) :
    field = none ∧ role = .viewer ∨ field = some (.string role.text) := by
  unfold optionalRole at h
  split at h
  · cases h
    exact Or.inl ⟨rfl, rfl⟩
  · rename_i text
    have hrole : role.text = text := by simpa using List.find?_some h
    exact Or.inr (by rw [hrole])
  · cases h

/-- The parsed body is what the fields say. -/
structure SessionBody.Reads (parsed : SessionBody) (request : SessionRequest) : Prop where
  address : request.field "address" = parsed.address.map .string
  role : request.field "role" = none ∧ parsed.role = .viewer ∨
    request.field "role" = some (.string parsed.role.text)
  idToken : request.field "idToken" = parsed.idToken.map .string

variable {parsed : SessionBody}

theorem sessionRequestSchema_reads {request : SessionRequest}
    (h : sessionRequestSchema request.body = some parsed) : parsed.Reads request := by
  unfold sessionRequestSchema at h
  split at h
  · rename_i entries hbody
    obtain ⟨address, haddress, h⟩ := Option.bind_eq_some_iff.mp h
    obtain ⟨role, hrole, h⟩ := Option.bind_eq_some_iff.mp h
    obtain ⟨idToken, hidToken, h⟩ := Option.bind_eq_some_iff.mp h
    split_ifs at h
    cases h
    have hfield : ∀ key, request.field key = entries.lookup key := by
      intro key
      rw [SessionRequest.field, hbody]
      rfl
    exact ⟨(hfield _).trans (optionalText_eq_some haddress),
      hfield "role" ▸ optionalRole_eq_some hrole,
      (hfield _).trans (optionalText_eq_some hidToken)⟩
  · cases h

theorem postSession_ok {decode : Decode} {env : SessionEnv} {request : SessionRequest}
    {token : TokenClaims} (h : postSession decode env request = .ok token) :
    ∃ parsed : SessionBody, parsed.Reads request ∧
      targetIdentity decode env request parsed = .ok (some token.address, token.role) := by
  obtain ⟨_, _, h⟩ := bind_eq_ok.mp h
  split at h
  · cases h
  · rename_i parsed hparsed
    obtain ⟨⟨target, role⟩, htarget, h⟩ := bind_eq_ok.mp h
    dsimp only at h
    split at h
    · cases h
    · rename_i address haddress
      obtain ⟨_, _, h⟩ := bind_eq_ok.mp h
      cases h
      obtain ⟨hsome, _⟩ := Option.filter_eq_some_iff.mp haddress
      rw [hsome] at htarget
      exact ⟨parsed, sessionRequestSchema_reads hparsed, htarget⟩

/-! ## Identities -/

def SessionRequest.CarriesIdToken (request : SessionRequest) (idToken : String) : Prop :=
  request.field "idToken" = some (.string idToken) ∧ idToken ≠ ""

/-- The body leaves the address to the ID token, or names the one it stands for. -/
def SessionRequest.AgreesOnAddress (request : SessionRequest) (verified : VerifiedIdToken) :
    Prop :=
  truthy (request.field "address") = true → request.field "address" = verified.address

/-- The body leaves the role to the ID token, or names the one it stands for. -/
def SessionRequest.AgreesOnRole (request : SessionRequest) (verified : VerifiedIdToken) : Prop :=
  truthy (request.field "role") = true →
    request.field "role" = some (.string verified.role.text)

/-- Where the identity of a session comes from. -/
structure SessionIdentity (decode : Decode) (env : SessionEnv) (request : SessionRequest)
    (token : TokenClaims) : Prop where
  verified : ∀ idToken, request.CarriesIdToken idToken →
    ∃ verified, verifyIdToken decode env.toIdTokenEnv idToken = .ok verified ∧
      (request.AgreesOnAddress verified → some token.address = verified.address) ∧
      (request.AgreesOnRole verified → token.role = verified.role)
  asked : (∀ idToken, ¬ request.CarriesIdToken idToken) →
    some token.address = request.field "address" ∧
      (token.role = .operator ↔ request.field "role" = some (.string "operator"))

section

variable {decode : Decode} {env : SessionEnv} {request : SessionRequest} {token : TokenClaims}

theorem Role.text_injective : Function.Injective Role.text := by
  intro first second h
  cases first <;> cases second <;> first | rfl | exact absurd h (by decide)

theorem SessionBody.Reads.carries_iff (h : parsed.Reads request) {idToken : String} :
    request.CarriesIdToken idToken ↔ configured parsed.idToken = some idToken := by
  rw [SessionRequest.CarriesIdToken, h.idToken, configured, Option.filter_eq_some_iff]
  cases parsed.idToken <;> simp

theorem targetIdentity_verified {idToken : String}
    (hcarried : configured parsed.idToken = some idToken) {target : Option Json} {role : Role}
    (h : targetIdentity decode env request parsed = .ok (target, role)) :
    ∃ verified, verifyIdToken decode env.toIdTokenEnv idToken = .ok verified ∧
      target = ((configured parsed.address).map .string).or verified.address ∧
      role = if truthy (request.field "role") then parsed.role else verified.role := by
  simp only [targetIdentity, hcarried] at h
  by_cases hconfigured : configured env.oidcIssuerUrl = none
  · rw [if_pos hconfigured] at h
    cases h
  · rw [if_neg hconfigured] at h
    split at h
    · rename_i verified hverified
      cases h
      exact ⟨verified, hverified, rfl, rfl⟩
    · obtain ⟨_, _, h⟩ := bind_eq_ok.mp h
      cases h

theorem truthy_string : truthy (text.map .string) = true ↔ (configured text).isSome = true := by
  cases text with
  | none | some => simp [truthy, configured]

theorem session_verified (hreads : parsed.Reads request) {idToken : String}
    (hcarried : configured parsed.idToken = some idToken)
    (h : targetIdentity decode env request parsed = .ok (some token.address, token.role)) :
    ∃ verified, verifyIdToken decode env.toIdTokenEnv idToken = .ok verified ∧
      (request.AgreesOnAddress verified → some token.address = verified.address) ∧
      (request.AgreesOnRole verified → token.role = verified.role) := by
  obtain ⟨verified, hverified, haddress, hrole⟩ := targetIdentity_verified hcarried h
  refine ⟨verified, hverified, fun hagrees => ?_, fun hagrees => ?_⟩
  · rw [haddress]
    unfold SessionRequest.AgreesOnAddress at hagrees
    rw [hreads.address, truthy_string] at hagrees
    cases hnamed : configured parsed.address with
    | none => rfl
    | some =>
      rw [← hagrees (by rw [hnamed]; rfl), (Option.filter_eq_some_iff.mp hnamed).1]
      rfl
  · rw [hrole]
    split_ifs with hnamed
    · rcases hreads.role with ⟨habsent, _⟩ | hpresent
      · rw [habsent] at hnamed
        cases hnamed
      · have hsame := hpresent.symm.trans (hagrees hnamed)
        exact Role.text_injective (Json.string.inj (Option.some.inj hsame))
    · rfl

theorem session_asked (hreads : parsed.Reads request) (hnone : configured parsed.idToken = none)
    (h : targetIdentity decode env request parsed = .ok (some token.address, token.role)) :
    some token.address = request.field "address" ∧
      (token.role = .operator ↔ request.field "role" = some (.string "operator")) := by
  simp only [targetIdentity, hnone, Except.ok.injEq, Prod.mk.injEq] at h
  obtain ⟨haddress, hrole⟩ := h
  rw [hreads.address, ← haddress, ← hrole]
  refine ⟨rfl, ?_⟩
  rcases hreads.role with ⟨habsent, hviewer⟩ | hpresent
  · rw [habsent, hviewer]
    simp
  · rw [hpresent]
    cases parsed.role with
    | operator | viewer => simp [Role.text]

theorem sessionIdentity (h : postSession decode env request = .ok token) :
    SessionIdentity decode env request token := by
  obtain ⟨parsed, hreads, htarget⟩ := postSession_ok h
  constructor
  · intro idToken hcarried
    exact session_verified hreads (hreads.carries_iff.mp hcarried) htarget
  · intro hnone
    refine session_asked hreads (Option.eq_none_iff_forall_ne_some.mpr fun idToken hsome => ?_)
      htarget
    exact hnone idToken (hreads.carries_iff.mpr hsome)

/-- Two sessions of one ID token agree, on what both bodies leave to it. -/
def SameIdentity (decode : Decode) (first second : SessionRequest) (token token' : TokenClaims) :
    Prop :=
  ∀ idToken decoded, first.CarriesIdToken idToken → second.CarriesIdToken idToken →
    decode idToken = some decoded →
      (first.AgreesOnAddress (extractClaims decoded.payload) →
        second.AgreesOnAddress (extractClaims decoded.payload) →
          token'.address = token.address) ∧
      (first.AgreesOnRole (extractClaims decoded.payload) →
        second.AgreesOnRole (extractClaims decoded.payload) → token'.role = token.role)

/-- The identity of a session with an ID token is that of the ID token, as far as the body
does not name another one, and so two sessions of one ID token have one identity. Without an
ID token a session is what the request asks for. -/
theorem session_identity (h : postSession decode env request = .ok token) :
    SessionIdentity decode env request token ∧
      ∀ env' request' token', postSession decode env' request' = .ok token' →
        SameIdentity decode request request' token token' := by
  refine ⟨sessionIdentity h, fun env' request' token' h' => ?_⟩
  intro idToken decoded hcarried hcarried' hdecoded
  -- both identities are read off the one ID token
  obtain ⟨verified, hverified, haddress, hrole⟩ := (sessionIdentity h).verified idToken hcarried
  obtain ⟨verified', hverified', haddress', hrole'⟩ :=
    (sessionIdentity h').verified idToken hcarried'
  obtain ⟨_, hsource, rfl⟩ := verifyIdToken_ok hverified
  obtain ⟨_, hsource', rfl⟩ := verifyIdToken_ok hverified'
  cases hdecoded.symm.trans hsource
  cases hdecoded.symm.trans hsource'
  apply And.intro
  · intro hagrees hagrees'
    exact Option.some.inj ((haddress' hagrees').trans (haddress hagrees).symm)
  · intro hagrees hagrees'
    exact (hrole' hagrees').trans (hrole hagrees).symm

end

/-- One ID token is known, of a viewer. -/
def sampleDecode : Decode := fun idToken =>
  if idToken = "id" then
    some ⟨some "kid", .object [("exp", .number 1000), ("aud", .string "client"),
      ("sub", .string "G1")]⟩
  else none

/-- A provider whose tokens are all verified. -/
def sampleSessionEnv : SessionEnv where
  oidcIssuerUrl := some "https://idp"
  oidcAudience := some "client"
  getJwks _ := .ok [⟨"kid", "n", "e"⟩]
  verifyWithJwk _ _ _ _ := .ok ()
  preventReplay _ _ := .ok ()
  authAttemptStore := none

def sampleSessionRequest (entries : List (String × Json)) : SessionRequest :=
  ⟨"10.0.0.1", some (.object entries)⟩

theorem session_identity_viewer :
    SessionIdentity sampleDecode sampleSessionEnv
      (sampleSessionRequest [("idToken", .string "id")])
        (generateToken (.string "G1") .viewer) :=
  (session_identity (show postSession sampleDecode sampleSessionEnv
    (sampleSessionRequest [("idToken", .string "id")]) = .ok _ from rfl)).1

/-- A body can name another identity than its ID token, and a request without an ID token
can ask for the role of an operator. -/
theorem session_identity_fails :
    (¬ ∀ decode env request token, postSession decode env request = .ok token →
      ∀ idToken, request.CarriesIdToken idToken →
        ∃ verified, verifyIdToken decode env.toIdTokenEnv idToken = .ok verified ∧
          some token.address = verified.address ∧ token.role = verified.role) ∧
    ¬ ∀ decode env request token, postSession decode env request = .ok token →
      (∀ idToken, ¬ request.CarriesIdToken idToken) → token.role ≠ .operator := by
  apply And.intro
  · intro hall
    obtain ⟨verified, hverified, _, hrole⟩ := hall sampleDecode sampleSessionEnv
      (sampleSessionRequest [("idToken", .string "id"), ("address", .string "G2"),
        ("role", .string "operator")]) (generateToken (.string "G2") .operator) rfl "id"
      ⟨rfl, by decide⟩
    cases hverified
    cases hrole
  · intro hall
    refine hall sampleDecode sampleSessionEnv
      (sampleSessionRequest [("address", .string "G2"), ("role", .string "operator")])
      (generateToken (.string "G2") .operator) rfl ?_ rfl
    rintro idToken ⟨hcarried, _⟩
    cases hcarried

end Fluxora.Auth
