/-
# Webhook payloads

An outbox row carries a JSON payload. Before a delivery the payload is checked twice over: a
payload that names an event type must match the published schema of that type, and a payload that
is a bare string must be JSON or a plausible plain text. The schemas are strict, so that a key
nobody published is refused.

The retry state of a row travels inside the payload, under `_webhookRetry`.
-/

import Mathlib.Data.Rat.Floor
import Fluxora.Lib.Json
import Fluxora.Lib.JsText

namespace Fluxora.Webhooks

open Lib Lib.JsText

/-- The parts of a parsed URL that are looked at. -/
structure Url where
  protocol : String
  username : String
  password : String

/-- The services of the JavaScript runtime that the webhook code calls. Nothing is
assumed about them: every result holds for any behaviour. -/
structure Runtime where
  /-- `JSON.parse`, with `none` for a syntax error. -/
  parse : String → Option Json
  /-- `JSON.stringify`. -/
  stringify : Json → String
  /-- `new URL`, with `none` for an unparseable text. -/
  parseUrl : String → Option Url
  /-- `new Date(text).getTime()`, with `none` for an invalid date. -/
  parseDate : String → Option ℤ

/-! ## Published schemas -/

/-- The published payload check of one field. -/
inductive FieldCheck
  /-- `z.string()` -/
  | string
  /-- `z.string().min(1)` -/
  | nonEmptyString
  /-- `z.number()` -/
  | number
  /-- `z.number().int()`, which takes safe integers only. -/
  | int
  /-- `z.literal(text)` -/
  | literal (text : String)
  /-- `z.enum(texts)` -/
  | enum (texts : List String)

/-- `Number.MAX_SAFE_INTEGER`. -/
def maxSafeInteger : ℤ := 2 ^ 53 - 1

def FieldCheck.accepts : FieldCheck → Json → Bool
  | .string, .string _ => true
  | .nonEmptyString, .string text => text ≠ ""
  | .number, .number _ => true
  | .int, .number q => q.den = 1 ∧ |q.num| ≤ maxSafeInteger
  | .literal expected, .string text => text = expected
  | .enum texts, .string text => text ∈ texts
  | _, _ => false

/-- One field of an object schema. -/
structure SchemaField where
  name : String
  check : FieldCheck
  optional : Bool

/-- A strict object schema. -/
abbrev Schema := List SchemaField

/-- Every field is present or optional and passes its check, and there is no other
key. -/
def Schema.accepts (schema : Schema) (entries : List (String × Json)) : Bool :=
  schema.all (fun field =>
    match entries.lookup field.name with
    | some value => field.check.accepts value
    | none => field.optional) &&
  entries.all fun entry => schema.any (·.name = entry.1)

def webhookEventTypes : List String :=
  ["stream.created", "stream.updated", "stream.cancelled"]

/-- Shared envelope fields every published payload carries. -/
def envelopeFields : Schema :=
  [⟨"event", .enum webhookEventTypes, false⟩, ⟨"schema_version", .int, false⟩]

def streamCreatedPayloadSchema : Schema :=
  envelopeFields ++
    [⟨"id", .nonEmptyString, false⟩,
     ⟨"sender_address", .nonEmptyString, false⟩,
     ⟨"recipient_address", .nonEmptyString, false⟩,
     ⟨"amount", .string, false⟩,
     ⟨"streamed_amount", .string, false⟩,
     ⟨"remaining_amount", .string, false⟩,
     ⟨"rate_per_second", .string, false⟩,
     ⟨"start_time", .number, false⟩,
     ⟨"end_time", .number, false⟩,
     ⟨"contract_id", .nonEmptyString, false⟩,
     ⟨"transaction_hash", .nonEmptyString, false⟩,
     ⟨"event_index", .int, false⟩]

def streamUpdatedPayloadSchema : Schema :=
  envelopeFields ++
    [⟨"status", .string, true⟩,
     ⟨"streamed_amount", .string, true⟩,
     ⟨"remaining_amount", .string, true⟩,
     ⟨"end_time", .number, true⟩]

def streamCancelledPayloadSchema : Schema :=
  envelopeFields ++ [⟨"status", .literal "cancelled", false⟩]

/-- All published payload schemas, keyed by event type. -/
def webhookPayloadSchemas : List (String × Schema) :=
  [("stream.created", streamCreatedPayloadSchema),
   ("stream.updated", streamUpdatedPayloadSchema),
   ("stream.cancelled", streamCancelledPayloadSchema)]

/-- Why a payload or an endpoint is refused. The texts are only logged. -/
inductive ValidationError
  /-- No published schema. Names inherited from `Object.prototype` end here too:
  what they look up has no `safeParse`. -/
  | unknownEventType (eventType : String)
  | schemaMismatch (eventType : String)
  | oversized
  | invalidJson
  | binaryGarbage
  | unparseableUrl (url : String)
  | unsupportedProtocol (protocol : String)
  | credentialsInUrl
  deriving DecidableEq

/-- Validate a payload against its event type's published schema. -/
def validatePublishedPayload (eventType : String) (entries : List (String × Json)) :
    Except ValidationError Unit :=
  match webhookPayloadSchemas.lookup eventType with
  | none => .error (.unknownEventType eventType)
  | some schema =>
    if schema.accepts entries then .ok () else .error (.schemaMismatch eventType)

/-! ## Delivery checks -/

/-- A character code that a plain text may start with: printable ASCII and common
white space. -/
def isPrintableCode (code : ℕ) : Bool :=
  (0x20 ≤ code && code ≤ 0x7e) || code = 0x09 || code = 0x0a || code = 0x0d

section

variable (rt : Runtime)

/-- The string half of the payload check. -/
def validateTextPayload (text : String) : Except ValidationError Unit :=
  if (codeUnits text.toList).length > 10 * 1024 * 1024 then .error .oversized
  else if (rt.parse text).isSome then .ok ()
  else if ['{', '['].any ((trim text.toList).head? = some ·) then .error .invalidJson
  else if (codeUnits text.toList).length > 1000 ∧
      ((codeUnits text.toList).take 100).any (fun code => !isPrintableCode code) then
    .error .binaryGarbage
  else .ok ()

/-- Validate a webhook payload for structural integrity. -/
def validateWebhookPayload : Json → Except ValidationError Unit
  | .object entries =>
    match entries.lookup "event" with
    | some (.string eventType) => validatePublishedPayload eventType entries
    | _ => .ok ()
  | .string text => validateTextPayload rt text
  | _ => .ok ()

/-- Validate a webhook endpoint URL for structural integrity. -/
def validateWebhookUrl (endpointUrl : String) : Except ValidationError Unit :=
  match rt.parseUrl endpointUrl with
  | none => .error (.unparseableUrl endpointUrl)
  | some url =>
    if url.protocol ≠ "https:" ∧ url.protocol ≠ "http:" then
      .error (.unsupportedProtocol url.protocol)
    else if url.username ≠ "" ∨ url.password ≠ "" then .error .credentialsInUrl
    else .ok ()

/-- Payloads written as JSON text are read as what the text says. -/
def normalizePayload : Json → Json
  | .string text => (rt.parse text).getD (.string text)
  | payload => payload

end

/-- Property access on a JSON value. Arrays have no property that is asked for
here. -/
def property (key : String) : Json → Option Json
  | .object entries => entries.lookup key
  | _ => none

/-- The key the retry state travels under. -/
def retryKey : String := "_webhookRetry"

/-- The attempt number a payload carries, 1 when it carries none. A fraction below
one counts as attempt 0. -/
def extractAttemptNumber (payload : Json) : ℕ :=
  match (property retryKey payload).bind (property "attemptNumber") with
  | some (.number q) => if 0 < q then ⌊q⌋.toNat else 1
  | _ => 1

/-! ## What acceptance says about a payload -/

/-- A JSON object, arrays excluded. -/
def isObject : Json → Bool
  | .object _ => true
  | _ => false

/-- The payload names an event type, so that a published schema applies to it. -/
def namesEvent (payload : Json) : Bool :=
  match property "event" payload with
  | some (.string _) => true
  | _ => false

/-- The payload has the key of the retry state. -/
def carriesRetryKey : Json → Bool
  | .object entries => retryKey ∈ Properties.keys entries
  | _ => false

variable {entries : List (String × Json)}

theorem Schema.mem_names_of_accepts {schema : Schema} (haccepts : schema.accepts entries = true)
    {key : String} (hkey : key ∈ Properties.keys entries) : key ∈ schema.map SchemaField.name := by
  rw [Schema.accepts, Bool.and_eq_true] at haccepts
  obtain ⟨entry, hentry, rfl⟩ := List.mem_map.mp hkey
  have hlisted := List.all_eq_true.mp haccepts.2 entry hentry
  obtain ⟨field, hfield, hname⟩ := List.any_eq_true.mp hlisted
  exact List.mem_map.mpr ⟨field, hfield, of_decide_eq_true hname⟩

theorem retryKey_not_published :
    ∀ published ∈ webhookPayloadSchemas, retryKey ∉ published.2.map SchemaField.name := by
  decide

variable {eventType : String}

theorem validatePublishedPayload_eq_ok_iff :
    validatePublishedPayload eventType entries = .ok () ↔
      ∃ schema, webhookPayloadSchemas.lookup eventType = some schema ∧
        schema.accepts entries = true := by
  rw [validatePublishedPayload]
  cases webhookPayloadSchemas.lookup eventType with
  | none => simp
  | some schema => cases haccepts : schema.accepts entries <;> simp [haccepts]

theorem validatePublishedPayload_ne_ok_of_retryKey (hkey : retryKey ∈ Properties.keys entries) :
    validatePublishedPayload eventType entries ≠ .ok () := by
  intro hok
  obtain ⟨schema, hlookup, haccepts⟩ := validatePublishedPayload_eq_ok_iff.mp hok
  have hmem : (eventType, schema) ∈ webhookPayloadSchemas := by
    obtain ⟨before, rest, hsplit, _⟩ := List.lookup_eq_some_iff.mp hlookup
    rw [hsplit]
    simp
  exact retryKey_not_published _ hmem (Schema.mem_names_of_accepts haccepts hkey)

end Fluxora.Webhooks
