/-
# Webhook signatures

A request is signed by the keyed hash of its timestamp, a point and its body. Verification looks
at what the request presents in a fixed order and says in a code what the first objection is;
after a rotation it tries the current secret and then the previous one, for as long as that is in
its grace window. The result is characterized exactly, and signing bytes are taken apart again.

The timestamp is read by `Number`, which takes more than digits.
-/

import Fluxora.Lib.JsonParse
import Fluxora.Lib.Split

namespace Fluxora.Webhooks

open Fluxora.Lib Lib.JsText Lib.JsNumber
open Lib.JsonStringify (numberText)

/-! ## Requests and results -/

/-- What the runtime computes for the verification. -/
structure SignatureEnv where
  /-- The hex digest of the keyed hash. -/
  hmacSha256 : String → List UInt8 → String
  toLowerCase : List Char → List Char
  /-- `Date.now()`, in milliseconds. -/
  dateNow : ℤ

def sigCompareKey : String := "fluxora-webhook-sig"

def deliveryIdHeader : String := "x-fluxora-delivery-id"
def timestampHeader : String := "x-fluxora-timestamp"
def signatureHeader : String := "x-fluxora-signature"

def defaultWebhookToleranceSeconds : ℚ := 300
def defaultMaxWebhookBodyBytes : ℚ := 256 * 1024
def defaultWebhookSecretGraceWindowSeconds : ℚ := 86400

inductive WebhookVerificationCode where
  | ok | missingSecret | missingDeliveryId | missingTimestamp | missingSignature | payloadTooLarge
  | invalidTimestamp | timestampOutsideTolerance | signatureMismatch | duplicateDelivery
  | previousSecretExpired
  deriving DecidableEq, Repr

structure WebhookVerificationResult where
  ok : Bool
  status : ℕ
  code : WebhookVerificationCode
  message : String
  usedPreviousSecret : Option Bool := none
  deriving DecidableEq, Repr

/-- A body as text or as the bytes that came in. -/
inductive RawBody where
  | text (text : String)
  | buffer (bytes : List UInt8)

/-- A time in seconds, or a `Date` by its milliseconds. -/
inductive TimeValue where
  | seconds (value : ℚ)
  | date (milliseconds : ℤ)

structure VerifyWebhookSignatureInput where
  secret : Option String := none
  secretPrevious : Option String := none
  previousSecretRotatedAt : Option ℚ := none
  graceWindowSeconds : Option ℚ := none
  deliveryId : Option String := none
  timestamp : Option String := none
  signature : Option String := none
  rawBody : RawBody
  toleranceSeconds : Option ℚ := none
  now : Option TimeValue := none
  maxBodyBytes : Option ℚ := none
  isDuplicateDelivery : Option (String → Bool) := none

/-! ## Signing -/

def toBuffer : RawBody → List UInt8
  | .buffer bytes => bytes
  | .text text => Utf8.bytes text.toList

def toUnixSeconds : TimeValue → ℚ
  | .date milliseconds => ⌊JsNumber.round (milliseconds / 1000)⌋
  | .seconds value => ⌊value⌋

def buildWebhookSigningPayload (timestamp : String) (rawBody : RawBody) : List UInt8 :=
  Utf8.bytes (timestamp.toList ++ ['.']) ++ toBuffer rawBody

def computeWebhookSignature (env : SignatureEnv) (secret timestamp : String)
    (rawBody : RawBody) : String :=
  env.hmacSha256 secret (buildWebhookSigningPayload timestamp rawBody)

def constantTimeCompare (env : SignatureEnv) (a b : String) : Bool :=
  env.hmacSha256 sigCompareKey (Utf8.bytes a.toList) =
    env.hmacSha256 sigCompareKey (Utf8.bytes b.toList)

/-! ## Verification -/

/-- A text that is there and not empty. -/
def present (text : Option String) : Option String := text.filter (· ≠ "")

namespace VerifyWebhookSignatureInput

variable (input : VerifyWebhookSignatureInput)

def graceWindow : ℚ := input.graceWindowSeconds.getD defaultWebhookSecretGraceWindowSeconds

def tolerance : ℚ := input.toleranceSeconds.getD defaultWebhookToleranceSeconds

def bodyLimit : ℚ := input.maxBodyBytes.getD defaultMaxWebhookBodyBytes

/-- The seconds of the verification, the runtime's own when the caller gives none. -/
def nowSeconds (env : SignatureEnv) : ℚ :=
  toUnixSeconds (input.now.getD (.seconds ⌊JsNumber.round (env.dateNow / 1000)⌋))

def previousSecretExpired (env : SignatureEnv) : Bool :=
  match input.secretPrevious, input.previousSecretRotatedAt with
  | some _, some rotatedAt => input.graceWindow < sub (input.nowSeconds env) rotatedAt
  | _, _ => false

/-- The secrets to try, and whether each is the previous one. -/
def secretsToTry (env : SignatureEnv) (secret : String) : List (String × Bool) :=
  (secret, false) ::
    match present input.secretPrevious with
    | some previous => if input.previousSecretExpired env then [] else [(previous, true)]
    | none => []

end VerifyWebhookSignatureInput

def actualSignature (env : SignatureEnv) (signature : String) : String :=
  String.ofList (env.toLowerCase (trim signature.toList))

def rejected (status : ℕ) (code : WebhookVerificationCode) (message : String) :
    WebhookVerificationResult where
  ok := false
  status := status
  code := code
  message := message

def verifyWebhookSignature (env : SignatureEnv) (input : VerifyWebhookSignatureInput) :
    WebhookVerificationResult :=
  match present input.secret, present input.deliveryId, present input.timestamp,
      present input.signature with
  | none, _, _, _ => rejected 401 .missingSecret "Webhook secret is required"
  | some _, none, _, _ =>
    rejected 401 .missingDeliveryId ("Missing " ++ deliveryIdHeader ++ " header")
  | some _, some _, none, _ =>
    rejected 401 .missingTimestamp ("Missing " ++ timestampHeader ++ " header")
  | some _, some _, some _, none =>
    rejected 401 .missingSignature ("Missing " ++ signatureHeader ++ " header")
  | some secret, some deliveryId, some timestamp, some signature =>
    if input.bodyLimit < (toBuffer input.rawBody).length then
      rejected 413 .payloadTooLarge
        ("Payload exceeds " ++ String.ofList (numberText input.bodyLimit) ++ " bytes")
    else
      match (number timestamp).filter fun seconds => isInteger seconds && 0 < seconds with
      | none =>
        rejected 400 .invalidTimestamp "Timestamp must be a positive Unix seconds value"
      | some timestampNumber =>
        if input.tolerance < |sub (input.nowSeconds env) timestampNumber| then
          rejected 401 .timestampOutsideTolerance
            ("Timestamp is outside the " ++ String.ofList (numberText input.tolerance) ++
              " second verification window")
        else
          let matched := (input.secretsToTry env secret).find? fun secret =>
            constantTimeCompare env (actualSignature env signature)
              (computeWebhookSignature env secret.1 timestamp
                (.buffer (toBuffer input.rawBody)))
          match matched with
          | none =>
            if input.previousSecretExpired env then
              rejected 401 .previousSecretExpired
                "Previous webhook secret has expired; rotate to the current secret"
            else
              rejected 401 .signatureMismatch "Webhook signature verification failed"
          | some (_, isPrevious) =>
            if input.isDuplicateDelivery.any (· deliveryId) then
              rejected 409 .duplicateDelivery "Duplicate delivery id"
            else
              { ok := true
                status := 200
                code := .ok
                message := "Webhook signature verified"
                usedPreviousSecret := if isPrevious then some true else none }

/-! ## What is accepted -/

section Accepted

variable {env : SignatureEnv} {input : VerifyWebhookSignatureInput}

/-- A secret that requests may be signed under: the current one, or the previous one if it was
not rotated out longer ago than the grace window. -/
def MaySign (env : SignatureEnv) (input : VerifyWebhookSignatureInput) (key : String) : Prop :=
  present input.secret = some key ∨
    present input.secretPrevious = some key ∧
      ∀ rotatedAt ∈ input.previousSecretRotatedAt,
        sub (input.nowSeconds env) rotatedAt ≤ input.graceWindow

/-- A timestamp that is a positive integer near the time of the verification. -/
def IsTimely (env : SignatureEnv) (input : VerifyWebhookSignatureInput) (timestamp : String) :
    Prop :=
  ∃ seconds, number timestamp = some seconds ∧ isInteger seconds ∧ 0 < seconds ∧
    |sub (input.nowSeconds env) seconds| ≤ input.tolerance

/-- A request that presents all that is asked for, is signed under a secret it may be signed
under, and was not delivered before. -/
structure IsSigned (env : SignatureEnv) (input : VerifyWebhookSignatureInput)
    (timestamp signature : String) : Prop where
  hasSecret : present input.secret ≠ none
  hasTimestamp : present input.timestamp = some timestamp
  hasSignature : present input.signature = some signature
  newDelivery : ∃ deliveryId, present input.deliveryId = some deliveryId ∧
    input.isDuplicateDelivery.any (· deliveryId) = false
  size : (toBuffer input.rawBody).length ≤ input.bodyLimit
  timely : IsTimely env input timestamp
  signed : ∃ key, MaySign env input key ∧
    actualSignature env signature = computeWebhookSignature env key timestamp input.rawBody

/-- The keyed hash that texts are compared by tells the presented signature from the expected
ones. -/
def ComparesApart (env : SignatureEnv) (input : VerifyWebhookSignatureInput) : Prop :=
  ∀ timestamp ∈ input.timestamp, ∀ signature ∈ input.signature, ∀ key, MaySign env input key →
    constantTimeCompare env (actualSignature env signature)
      (computeWebhookSignature env key timestamp input.rawBody) = true →
    actualSignature env signature = computeWebhookSignature env key timestamp input.rawBody

/-- The secret that a request was accepted under. -/
def acceptedSecret (env : SignatureEnv) (input : VerifyWebhookSignatureInput) : Option String :=
  let result := verifyWebhookSignature env input
  if result.ok then
    if result.usedPreviousSecret = some true then input.secretPrevious else input.secret
  else none

theorem ok_of_acceptedSecret {key : String} (h : acceptedSecret env input = some key) :
    (verifyWebhookSignature env input).ok = true := by
  by_contra hne
  rw [acceptedSecret] at h
  simp [hne] at h

theorem present_eq_some {text : Option String} {given : String} (h : present text = some given) :
    text = some given :=
  (Option.filter_eq_some_iff.mp h).1

theorem previousSecretExpired_eq_false_iff {previous : String}
    (h : present input.secretPrevious = some previous) :
    input.previousSecretExpired env = false ↔
      ∀ rotatedAt ∈ input.previousSecretRotatedAt,
        sub (input.nowSeconds env) rotatedAt ≤ input.graceWindow := by
  rw [VerifyWebhookSignatureInput.previousSecretExpired, present_eq_some h]
  cases input.previousSecretRotatedAt with
  | none | some => simp

theorem mem_secretsToTry_iff {secret key : String} (hsecret : present input.secret = some secret) :
    (∃ isPrevious, (key, isPrevious) ∈ input.secretsToTry env secret) ↔ MaySign env input key := by
  rw [MaySign, hsecret, VerifyWebhookSignatureInput.secretsToTry]
  cases hprevious : present input.secretPrevious with
  | none => simp [eq_comm]
  | some =>
    rw [← previousSecretExpired_eq_false_iff hprevious]
    cases input.previousSecretExpired env <;> simp [eq_comm]

theorem secret_of_mem_secretsToTry {secret key : String} {isPrevious : Bool}
    (hsecret : present input.secret = some secret)
    (hmem : (key, isPrevious) ∈ input.secretsToTry env secret) :
    (if isPrevious then input.secretPrevious else input.secret) = some key := by
  rcases List.mem_cons.mp hmem with hcurrent | hprevious
  · cases hcurrent
    exact present_eq_some hsecret
  · cases hgiven : present input.secretPrevious with
    | none => simp [hgiven] at hprevious
    | some =>
      cases hexpired : input.previousSecretExpired env <;> simp [hgiven, hexpired] at hprevious
      obtain ⟨rfl, rfl⟩ := hprevious
      exact present_eq_some hgiven

/-- A request that is looked at down to its signature. -/
structure ReachesSignature (env : SignatureEnv) (input : VerifyWebhookSignatureInput)
    (secret deliveryId timestamp signature : String) : Prop where
  hasSecret : present input.secret = some secret
  hasDelivery : present input.deliveryId = some deliveryId
  hasTimestamp : present input.timestamp = some timestamp
  hasSignature : present input.signature = some signature
  size : (toBuffer input.rawBody).length ≤ input.bodyLimit
  timely : IsTimely env input timestamp

/-- The secret whose keyed hash the presented signature is, and whether it is the previous one. -/
def matchedSecret (env : SignatureEnv) (input : VerifyWebhookSignatureInput)
    (secret timestamp signature : String) : Option (String × Bool) :=
  (input.secretsToTry env secret).find? fun secret =>
    constantTimeCompare env (actualSignature env signature)
      (computeWebhookSignature env secret.1 timestamp input.rawBody)

theorem verifyWebhookSignature_of_reaches {secret deliveryId timestamp signature : String}
    (h : ReachesSignature env input secret deliveryId timestamp signature) :
    verifyWebhookSignature env input =
      match matchedSecret env input secret timestamp signature with
      | none =>
        if input.previousSecretExpired env then
          rejected 401 .previousSecretExpired
            "Previous webhook secret has expired; rotate to the current secret"
        else rejected 401 .signatureMismatch "Webhook signature verification failed"
      | some (_, isPrevious) =>
        if input.isDuplicateDelivery.any (· deliveryId) then
          rejected 409 .duplicateDelivery "Duplicate delivery id"
        else
          { ok := true
            status := 200
            code := .ok
            message := "Webhook signature verified"
            usedPreviousSecret := if isPrevious then some true else none } := by
  obtain ⟨seconds, hnumber, hinteger, hpositive, hnear⟩ := h.timely
  have hfilter : (number timestamp).filter (fun seconds => isInteger seconds && 0 < seconds) =
      some seconds := by
    simp [hnumber, hinteger, hpositive]
  rw [verifyWebhookSignature, h.hasSecret, h.hasDelivery, h.hasTimestamp, h.hasSignature]
  dsimp only
  rw [if_neg (not_lt.mpr h.size), hfilter]
  dsimp only
  rw [if_neg (not_lt.mpr hnear)]
  rfl

theorem reaches_of_ok (h : (verifyWebhookSignature env input).ok = true) :
    ∃ secret deliveryId timestamp signature,
      ReachesSignature env input secret deliveryId timestamp signature := by
  rw [verifyWebhookSignature] at h
  split at h
  case h_5 secret deliveryId timestamp signature hsecret hdelivery htimestamp hsignature =>
    by_cases hsize : input.bodyLimit < (toBuffer input.rawBody).length
    · rw [if_pos hsize] at h
      exact absurd h Bool.false_ne_true
    · rw [if_neg hsize] at h
      split at h
      · exact absurd h Bool.false_ne_true
      · next seconds hfilter =>
          obtain ⟨hnumber, hseconds⟩ := Option.filter_eq_some_iff.mp hfilter
          obtain ⟨hinteger, hpositive⟩ := (Bool.and_eq_true _ _).mp hseconds
          by_cases hnear : input.tolerance < |sub (input.nowSeconds env) seconds|
          · rw [if_pos hnear] at h
            exact absurd h Bool.false_ne_true
          · exact ⟨secret, deliveryId, timestamp, signature, hsecret, hdelivery, htimestamp,
              hsignature, not_lt.mp hsize,
              seconds, hnumber, hinteger, of_decide_eq_true hpositive, not_lt.mp hnear⟩
  all_goals exact absurd h Bool.false_ne_true

theorem constantTimeCompare_self (text : String) : constantTimeCompare env text text = true :=
  decide_eq_true rfl

section ReachesSignature

variable {secret deliveryId timestamp signature : String}
  (h : ReachesSignature env input secret deliveryId timestamp signature)

include h

theorem ok_iff_of_reaches :
    (verifyWebhookSignature env input).ok = true ↔
      (matchedSecret env input secret timestamp signature).isSome ∧
        input.isDuplicateDelivery.any (· deliveryId) = false := by
  rw [verifyWebhookSignature_of_reaches h]
  cases matchedSecret env input secret timestamp signature with
  | none => cases input.previousSecretExpired env <;> simp [rejected]
  | some => cases input.isDuplicateDelivery.any (· deliveryId) <;> simp [rejected]

theorem isSome_matchedSecret_iff (hapart : ComparesApart env input) :
    (matchedSecret env input secret timestamp signature).isSome ↔
      ∃ key, MaySign env input key ∧
        actualSignature env signature =
          computeWebhookSignature env key timestamp input.rawBody := by
  rw [matchedSecret, List.find?_isSome]
  apply Iff.intro
  · rintro ⟨⟨key, isPrevious⟩, hmem, hcompare⟩
    have hmay : MaySign env input key := (mem_secretsToTry_iff h.hasSecret).mp ⟨isPrevious, hmem⟩
    exact ⟨key, hmay, hapart timestamp (present_eq_some h.hasTimestamp) signature
      (present_eq_some h.hasSignature) key hmay hcompare⟩
  · rintro ⟨key, hmay, hsigned⟩
    obtain ⟨isPrevious, hmem⟩ := (mem_secretsToTry_iff h.hasSecret).mpr hmay
    refine ⟨(key, isPrevious), hmem, ?_⟩
    rw [hsigned]
    exact constantTimeCompare_self _

theorem acceptedSecret_of_reaches {key : String} (haccepted : acceptedSecret env input = some key) :
    ∃ isPrevious, matchedSecret env input secret timestamp signature = some (key, isPrevious) := by
  obtain ⟨hsome, hnew⟩ := (ok_iff_of_reaches h).mp (ok_of_acceptedSecret haccepted)
  obtain ⟨⟨found, isPrevious⟩, hfound⟩ := Option.isSome_iff_exists.mp hsome
  have hsource := secret_of_mem_secretsToTry h.hasSecret (List.mem_of_find?_eq_some hfound)
  rw [acceptedSecret, verifyWebhookSignature_of_reaches h, hfound] at haccepted
  simp only [hnew, Bool.false_eq_true, if_false, if_true] at haccepted
  have hkey : some found = some key := by
    rw [← hsource, ← haccepted]
    cases isPrevious <;> rfl
  exact ⟨isPrevious, hfound.trans (by rw [Option.some.inj hkey])⟩

end ReachesSignature

/-! ## Soundness -/

/-- The signing bytes of the presented timestamp and body. -/
def signingBytes (input : VerifyWebhookSignatureInput) : List UInt8 :=
  buildWebhookSigningPayload (input.timestamp.getD "") input.rawBody

theorem buildWebhookSigningPayload_inj {timestamp timestamp' : String} {rawBody rawBody' : RawBody}
    (hpoint : '.' ∉ timestamp.toList) (hpoint' : '.' ∉ timestamp'.toList)
    (h : buildWebhookSigningPayload timestamp rawBody =
      buildWebhookSigningPayload timestamp' rawBody') :
    timestamp = timestamp' ∧ toBuffer rawBody = toBuffer rawBody' := by
  have hcut : ∀ (timestamp : String) (rawBody : RawBody),
      buildWebhookSigningPayload timestamp rawBody =
        Utf8.bytes timestamp.toList ++ UInt8.ofNat '.'.toNat :: toBuffer rawBody := by
    intro timestamp rawBody
    rw [buildWebhookSigningPayload, Utf8.bytes_append, List.append_assoc]
    rfl
  have hnotMem : ∀ {timestamp : String}, '.' ∉ timestamp.toList →
      UInt8.ofNat '.'.toNat ∉ Utf8.bytes timestamp.toList := fun hpoint hmem =>
    hpoint (Utf8.mem_of_mem_bytes (by decide) hmem)
  rw [hcut, hcut] at h
  obtain ⟨hbytes, hbody⟩ := Split.split_first_inj (hnotMem hpoint) (hnotMem hpoint') h
  exact ⟨String.toList_inj.mp (Utf8.bytes_inj hbytes), hbody⟩

/-- What is accepted under a secret was presented with a timestamp and with a signature that
compares equal to the keyed hash of the signing bytes under that secret. -/
theorem signed_of_acceptedSecret {key : String} (hapart : ComparesApart env input)
    (h : acceptedSecret env input = some key) :
    ∃ timestamp signature, input.timestamp = some timestamp ∧ input.signature = some signature ∧
      actualSignature env signature = env.hmacSha256 key (signingBytes input) := by
  obtain ⟨secret, deliveryId, timestamp, signature, hreaches⟩ :=
    reaches_of_ok (ok_of_acceptedSecret h)
  obtain ⟨isPrevious, hfound⟩ := acceptedSecret_of_reaches hreaches h
  have htimestamp := present_eq_some hreaches.hasTimestamp
  have hsignature := present_eq_some hreaches.hasSignature
  have hmay : MaySign env input key :=
    (mem_secretsToTry_iff hreaches.hasSecret).mp ⟨isPrevious, List.mem_of_find?_eq_some hfound⟩
  have hcompare : constantTimeCompare env (actualSignature env signature)
      (computeWebhookSignature env key timestamp input.rawBody) = true := by
    have hmatched := List.find?_some hfound
    exact hmatched
  have hsigned := hapart timestamp htimestamp signature hsignature key hmay hcompare
  refine ⟨timestamp, signature, htimestamp, hsignature, ?_⟩
  rw [hsigned, signingBytes, htimestamp]
  rfl

theorem ok_iff_isSigned (hapart : ComparesApart env input) :
    (verifyWebhookSignature env input).ok = true ↔
      ∃ timestamp signature, IsSigned env input timestamp signature := by
  apply Iff.intro
  · intro hok
    obtain ⟨secret, deliveryId, timestamp, signature, hreaches⟩ := reaches_of_ok hok
    obtain ⟨hsome, hnew⟩ := (ok_iff_of_reaches hreaches).mp hok
    exact ⟨timestamp, signature, {
      hasSecret := by rw [hreaches.hasSecret]; exact Option.some_ne_none _
      hasTimestamp := hreaches.hasTimestamp
      hasSignature := hreaches.hasSignature
      newDelivery := ⟨deliveryId, hreaches.hasDelivery, hnew⟩
      size := hreaches.size
      timely := hreaches.timely
      signed := (isSome_matchedSecret_iff hreaches hapart).mp hsome }⟩
  · rintro ⟨timestamp, signature, hsigned⟩
    obtain ⟨secret, hsecret⟩ := Option.ne_none_iff_exists'.mp hsigned.hasSecret
    obtain ⟨deliveryId, hdelivery, hnew⟩ := hsigned.newDelivery
    have hreaches : ReachesSignature env input secret deliveryId timestamp signature :=
      ⟨hsecret, hdelivery, hsigned.hasTimestamp, hsigned.hasSignature, hsigned.size,
        hsigned.timely⟩
    exact (ok_iff_of_reaches hreaches).mpr
      ⟨(isSome_matchedSecret_iff hreaches hapart).mpr hsigned.signed, hnew⟩

/-- Two requests of one message: the same timestamp and the same bytes of the body. -/
def SameMessage (first second : VerifyWebhookSignatureInput) : Prop :=
  first.timestamp = second.timestamp ∧ toBuffer first.rawBody = toBuffer second.rawBody

/-- No point is in the timestamp. -/
def WithoutPoint (input : VerifyWebhookSignatureInput) : Prop :=
  ∀ timestamp ∈ input.timestamp, '.' ∉ timestamp.toList

/-- The normalized signatures of two requests are equal. -/
def SameSignature (env : SignatureEnv) (first second : VerifyWebhookSignatureInput) : Prop :=
  ∀ signature ∈ first.signature, ∀ signature' ∈ second.signature,
    actualSignature env signature = actualSignature env signature'

theorem sameMessage_of_signingBytes_eq {first second : VerifyWebhookSignatureInput}
    (hok : (verifyWebhookSignature env first).ok = true)
    (hok' : (verifyWebhookSignature env second).ok = true) (hpoint : WithoutPoint first)
    (hpoint' : WithoutPoint second) (hbytes : signingBytes first = signingBytes second) :
    SameMessage first second := by
  obtain ⟨_, _, timestamp, _, hreaches⟩ := reaches_of_ok hok
  obtain ⟨_, _, timestamp', _, hreaches'⟩ := reaches_of_ok hok'
  have htimestamp := present_eq_some hreaches.hasTimestamp
  have htimestamp' := present_eq_some hreaches'.hasTimestamp
  rw [signingBytes, signingBytes, htimestamp, htimestamp'] at hbytes
  obtain ⟨hsame, hbody⟩ := buildWebhookSigningPayload_inj (hpoint timestamp htimestamp)
    (hpoint' timestamp' htimestamp') hbytes
  exact ⟨by rw [htimestamp, htimestamp', hsame], hbody⟩

theorem signingBytes_eq_of_sameSignature {first second : VerifyWebhookSignatureInput} {key : String}
    (hapart : ComparesApart env first) (hapart' : ComparesApart env second)
    (haccepted : acceptedSecret env first = some key)
    (haccepted' : acceptedSecret env second = some key) (hsame : SameSignature env first second)
    (hhmac : env.hmacSha256 key (signingBytes first) = env.hmacSha256 key (signingBytes second) →
      signingBytes first = signingBytes second) :
    signingBytes first = signingBytes second := by
  obtain ⟨_, signature, _, hsignature, hsigned⟩ := signed_of_acceptedSecret hapart haccepted
  obtain ⟨_, signature', _, hsignature', hsigned'⟩ := signed_of_acceptedSecret hapart' haccepted'
  apply hhmac
  rw [← hsigned, ← hsigned']
  exact hsame signature hsignature signature' hsignature'

/-- A request is accepted exactly when it is signed as it should be, and accepted requests with
timestamps without a point are of one message when their signing bytes or their signatures are
equal. -/
theorem ok_iff_isSigned_and_sameMessage (env : SignatureEnv) :
    (∀ input, ComparesApart env input →
      ((verifyWebhookSignature env input).ok = true ↔
        ∃ timestamp signature, IsSigned env input timestamp signature)) ∧
    ∀ first second key, acceptedSecret env first = some key → acceptedSecret env second = some key →
      WithoutPoint first → WithoutPoint second →
      (signingBytes first = signingBytes second → SameMessage first second) ∧
      (ComparesApart env first → ComparesApart env second →
        (env.hmacSha256 key (signingBytes first) = env.hmacSha256 key (signingBytes second) →
          signingBytes first = signingBytes second) →
        SameSignature env first second → SameMessage first second) := by
  refine ⟨fun input => ok_iff_isSigned, ?_⟩
  intro first second key haccepted haccepted' hpoint hpoint'
  have hsame : signingBytes first = signingBytes second → SameMessage first second :=
    sameMessage_of_signingBytes_eq (ok_of_acceptedSecret haccepted)
      (ok_of_acceptedSecret haccepted') hpoint hpoint'
  refine ⟨hsame, fun hapart hapart' hhmac hsignature => hsame ?_⟩
  exact signingBytes_eq_of_sameSignature hapart hapart' haccepted haccepted' hsignature hhmac

/-- The keyed hash on the texts of the examples. -/
def exampleSignatureEnv : SignatureEnv where
  hmacSha256 key message :=
    if key = "whsec_live" ∧ message = Utf8.bytes "1710000000.0.x".toList then
      "805a27a4cefa0be502855141e0c3435bac75b18627c058244ad01758cd9b0a69"
    else "f10cc8170cb5f93ae9bba32aff82bbfd4e5d6aa408084934495e770b587572fe"
  toLowerCase text := text.map Char.toLower
  dateNow := 1710000000000

/-- A request that presents the signature of `1710000000.0.x`. -/
def exampleRequest (deliveryId timestamp body : String) (isDuplicate : Bool) :
    VerifyWebhookSignatureInput where
  secret := some "whsec_live"
  deliveryId := some deliveryId
  timestamp := some timestamp
  signature := some "805A27A4CEFA0BE502855141E0C3435BAC75B18627C058244AD01758CD9B0A69"
  rawBody := .text body
  isDuplicateDelivery := some fun _ => isDuplicate

theorem exampleRequest_comparesApart (deliveryId : String) :
    ComparesApart exampleSignatureEnv (exampleRequest deliveryId "1710000000" "0.x" false) := by
  have hsigned : actualSignature exampleSignatureEnv
      "805A27A4CEFA0BE502855141E0C3435BAC75B18627C058244AD01758CD9B0A69" =
        computeWebhookSignature exampleSignatureEnv "whsec_live" "1710000000" (.text "0.x") := by
    decide +kernel
  intro timestamp htimestamp signature hsignature key hmay _
  cases htimestamp
  cases hsignature
  rcases hmay with hcurrent | ⟨hprevious, _⟩
  · cases hcurrent
    exact hsigned
  · cases hprevious

theorem exampleRequest_withoutPoint (deliveryId : String) :
    WithoutPoint (exampleRequest deliveryId "1710000000" "0.x" false) := by
  intro timestamp htimestamp
  cases htimestamp
  decide

/-- A signed request is accepted, and delivered under another id it is of the same message. -/
theorem exampleRequest_accepted :
    (verifyWebhookSignature exampleSignatureEnv
      (exampleRequest "deliv_1" "1710000000" "0.x" false)).ok = true ∧
    SameMessage (exampleRequest "deliv_1" "1710000000" "0.x" false)
      (exampleRequest "deliv_2" "1710000000" "0.x" false) := by
  have hsound := ok_iff_isSigned_and_sameMessage exampleSignatureEnv
  apply And.intro
  · apply (hsound.1 _ (exampleRequest_comparesApart "deliv_1")).mpr
    exact ⟨"1710000000", _, {
      hasSecret := by decide
      hasTimestamp := rfl
      hasSignature := rfl
      newDelivery := ⟨"deliv_1", rfl, rfl⟩
      size := by decide +kernel
      timely := ⟨1710000000, by decide +kernel⟩
      signed := ⟨"whsec_live", Or.inl rfl, by decide +kernel⟩ }⟩
  · apply (hsound.2 _ _ "whsec_live" (by decide +kernel) (by decide +kernel)
      (exampleRequest_withoutPoint _) (exampleRequest_withoutPoint _)).2
      (exampleRequest_comparesApart "deliv_1") (exampleRequest_comparesApart "deliv_2")
      (fun _ => rfl)
    intro signature hsignature signature' hsignature'
    cases hsignature
    cases hsignature'
    rfl

/-- One signature is accepted for two messages, and a signed request is rejected when it comes
again. -/
theorem pointTimestamp_ambiguous :
    acceptedSecret exampleSignatureEnv (exampleRequest "deliv_1" "1710000000" "0.x" false) =
        some "whsec_live" ∧
      acceptedSecret exampleSignatureEnv (exampleRequest "deliv_2" "1710000000.0" "x" false) =
        some "whsec_live" ∧
      signingBytes (exampleRequest "deliv_1" "1710000000" "0.x" false) =
        signingBytes (exampleRequest "deliv_2" "1710000000.0" "x" false) ∧
      ¬ SameMessage (exampleRequest "deliv_1" "1710000000" "0.x" false)
        (exampleRequest "deliv_2" "1710000000.0" "x" false) ∧
      (verifyWebhookSignature exampleSignatureEnv
        (exampleRequest "deliv_1" "1710000000" "0.x" true)).code = .duplicateDelivery := by
  refine ⟨by decide +kernel, by decide +kernel, by decide +kernel, ?_, by decide +kernel⟩
  intro hsame
  exact absurd hsame.1 (by decide)

end Accepted

end Fluxora.Webhooks
