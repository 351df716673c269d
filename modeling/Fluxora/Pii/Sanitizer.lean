/-
# The log sanitizer

Free text is scanned for account keys, which are masked, then for bearer tokens, for named
secrets and for the deny-list. A value is copied: a field whose name is sensitive is masked or
redacted, and the other texts are scanned.
-/

import Fluxora.Pii.SecretPatterns

namespace Fluxora.Pii

open Lib Lib.Pattern

/-! ## Texts -/

def redacted : CodeUnits := units "[REDACTED]"

/-- `[A-Z2-7]` -/
def isBase32 (u : ℕ) : Bool := isUpper u || (50 ≤ u && u ≤ 55)

/-- `G[A-Z2-7]{55}` -/
def stellarKey : Pattern ℕ := inOrder [symbol fun u => u == 'G'.toNat, times 55 isBase32]

def bearerToken : Pattern ℕ :=
  inOrder [boundary isWord, wordAnyCase "Bearer", many 1 isSpace,
    many 8 fun u => isAlphanumeric u || among "._~+/=-" u,
    ahead (oneOf [symbol isSpace, atEnd, symbol (among "\"']")])]

def sensitiveStringField : Pattern ℕ :=
  inOrder [
    group 1 (oneOf [wordAnyCase "password", wordAnyCase "secret", wordAnyCase "token",
      wordAnyCase "credential", wordAnyCase "authorization",
      inOrder [wordAnyCase "api", dash, wordAnyCase "key"], wordAnyCase "payload",
      wordAnyCase "body", wordAnyCase "query",
      inOrder [wordAnyCase "database", dash, wordAnyCase "id"],
      inOrder [wordAnyCase "row", dash, wordAnyCase "id"]]),
    assigned, group 2 quote,
    many 1 fun u => !(isSpace u || among ",'\"" u || u == '}'.toNat), same 2]

def maskStellarKey (value : CodeUnits) : CodeUnits :=
  if stellarKey.matchesWhole value then
    value.take 4 ++ units ".." ++ value.drop (value.length - 4)
  else redacted

def maskKeys (input : CodeUnits) : CodeUnits :=
  stellarKey.replaceAll (fun found _ => maskStellarKey found) input

def redactBearerTokens (input : CodeUnits) : CodeUnits :=
  bearerToken.replaceAll (fun _ _ => units "Bearer [REDACTED]") input

def redactStringFields (input : CodeUnits) : CodeUnits :=
  sensitiveStringField.replaceAll (fun _ groups => groups 1 ++ units ": [REDACTED]") input

def redactKeysInString (input : CodeUnits) : CodeUnits :=
  redactSecretsInString (redactStringFields (redactBearerTokens (maskKeys input)))

/-! ## Field policies -/

structure FieldPolicy where
  name : String
  redactInLogs : Bool

def streamFieldPolicies : List FieldPolicy :=
  [⟨"id", false⟩, ⟨"sender_address", true⟩, ⟨"recipient_address", true⟩, ⟨"amount", false⟩,
    ⟨"streamed_amount", false⟩, ⟨"remaining_amount", false⟩, ⟨"rate_per_second", false⟩,
    ⟨"start_time", false⟩, ⟨"end_time", false⟩, ⟨"status", false⟩, ⟨"contract_id", false⟩,
    ⟨"transaction_hash", false⟩, ⟨"event_index", false⟩, ⟨"created_at", false⟩,
    ⟨"updated_at", false⟩, ⟨"sender", true⟩, ⟨"recipient", true⟩, ⟨"depositAmount", false⟩,
    ⟨"ratePerSecond", false⟩, ⟨"startTime", false⟩]

def requestFieldPolicies : List FieldPolicy :=
  [⟨"ipAddress", true⟩, ⟨"userAgent", true⟩, ⟨"authToken", true⟩, ⟨"authorization", true⟩,
    ⟨"x-api-key", true⟩, ⟨"idempotency-key", true⟩, ⟨"password", true⟩, ⟨"secret", true⟩,
    ⟨"token", true⟩, ⟨"credential", true⟩, ⟨"key", true⟩, ⟨"private-key", true⟩,
    ⟨"api-key", true⟩, ⟨"access-token", true⟩, ⟨"refresh-token", true⟩, ⟨"session-id", true⟩,
    ⟨"cookie", true⟩, ⟨"set-cookie", true⟩, ⟨"address", true⟩, ⟨"payload", true⟩,
    ⟨"body", true⟩, ⟨"query", true⟩, ⟨"query-params", true⟩, ⟨"database-id", true⟩,
    ⟨"row-id", true⟩, ⟨"sender", true⟩, ⟨"recipient", true⟩]

/-- Lower case, as far as names of ASCII letters can tell: beyond ASCII only the Kelvin sign
becomes an ASCII letter. -/
def toLowerCase (name : CodeUnits) : CodeUnits :=
  name.map fun u => if isUpper u then u + 32 else if u = 0x212A then 'k'.toNat else u

def redactableFields : List CodeUnits :=
  ((streamFieldPolicies ++ requestFieldPolicies).filter FieldPolicy.redactInLogs).map
    fun policy => toLowerCase (units policy.name)

/-! ## Values -/

/-- A JSON-like value: its texts and names are code units, and the fields of an object are
listed in the order in which the language enumerates them. -/
inductive LogValue
  | null
  | bool (b : Bool)
  | number (q : ℚ)
  | string (text : CodeUnits)
  | array (items : List LogValue)
  | object (entries : List (CodeUnits × LogValue))

/-- What becomes of the value of a sensitive field. -/
def redactField : LogValue → LogValue
  | .string text => .string (maskStellarKey text)
  | _ => .string redacted

mutual

def sanitizeValue (fields : List CodeUnits) : LogValue → LogValue
  | .null => .null
  | .bool b => .bool b
  | .number q => .number q
  | .string text => .string (redactKeysInString text)
  | .array items => .array (sanitizeItems fields items)
  | .object entries => .object (sanitizeEntries fields entries)

def sanitizeItems (fields : List CodeUnits) : List LogValue → List LogValue
  | [] => []
  | item :: rest => sanitizeValue fields item :: sanitizeItems fields rest

/-- The assignment to a field of this one name sets the prototype and makes no field. -/
def sanitizeEntries (fields : List CodeUnits) :
    List (CodeUnits × LogValue) → List (CodeUnits × LogValue)
  | [] => []
  | (key, value) :: rest =>
    let copied := if fields.contains (toLowerCase key) then redactField value
      else sanitizeValue fields value
    if key = units "__proto__" then sanitizeEntries fields rest
    else (key, copied) :: sanitizeEntries fields rest

end

def sanitize (value : LogValue) : LogValue := sanitizeValue redactableFields value

end Fluxora.Pii
