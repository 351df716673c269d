/-
# Address fields of request schemas

Creating a stream, ingesting a batch of streams and recording consent take addresses. Their
fields are checked against a pattern only, while other boundaries decode an address and verify
its version byte and its checksum. All fields accept the same texts; these are the valid
addresses but for two kinds of text.
-/

import Fluxora.Streams.ReadRoutes
import Fluxora.Validation.StellarAddress

namespace Fluxora.Validation

open Lib Streams

/-! ## The schemas -/

inductive PathSegment
  | key (name : String)
  | index (i : ℕ)
  deriving DecidableEq

/-- An issue with the path of the value it is about. -/
structure SchemaIssue where
  path : List PathSegment
  message : String

def fieldIssue (issue : Issue) : SchemaIssue := ⟨[.key issue.field], issue.message⟩

/-- The issue of a field with its path, if it has one. -/
def fieldIssues {α : Type} (read : Except Issue α) : List SchemaIssue :=
  (issueOf read).map fieldIssue

def SchemaIssue.within (segments : List PathSegment) (issue : SchemaIssue) : SchemaIssue :=
  { issue with path := segments ++ issue.path }

/-- The issues of a result. -/
def issuesOf {ε α : Type} : Except (List ε) α → List ε
  | .ok _ => []
  | .error issues => issues

def nonEmptyStringField (field : String) : Option Json → Except Issue String
  | some (.string text) =>
    if text = "" then .error ⟨field, s!"{field} must be a non-empty string"⟩ else .ok text
  | _ => .error ⟨field, s!"{field} must be a string"⟩

def booleanField (field : String) : Option Json → Except Issue Bool
  | some (.bool value) => .ok value
  | _ => .error ⟨field, s!"{field} must be a boolean"⟩

/-- A field that has to be there; an absent one is refused like one of another type. -/
def decimalEntry (entries : List (String × Json)) (field : String) : Except Issue String :=
  decimalStringField field ((entries.lookup field).getD .null)

def integerEntry (entries : List (String × Json)) (field : String) : Except Issue ℕ :=
  nonNegativeIntegerField field ((entries.lookup field).getD .null)

/-- One stream of a batch. -/
def batchStreamSchema : Json → Except (List SchemaIssue) CreateStreamInput
  | .object entries =>
    let id := nonEmptyStringField "id" (entries.lookup "id")
    let sender := stellarPublicKeyField "sender_address" (entries.lookup "sender_address")
    let recipient :=
      stellarPublicKeyField "recipient_address" (entries.lookup "recipient_address")
    let amount := decimalEntry entries "amount"
    let streamed := decimalEntry entries "streamed_amount"
    let remaining := decimalEntry entries "remaining_amount"
    let rate := decimalEntry entries "rate_per_second"
    let startTime := integerEntry entries "start_time"
    let endTime := integerEntry entries "end_time"
    let contractId := nonEmptyStringField "contract_id" (entries.lookup "contract_id")
    let transactionHash :=
      nonEmptyStringField "transaction_hash" (entries.lookup "transaction_hash")
    let eventIndex := integerEntry entries "event_index"
    match id, sender, recipient, amount, streamed, remaining, rate, startTime, endTime,
        contractId, transactionHash, eventIndex with
    | .ok id, .ok sender, .ok recipient, .ok amount, .ok streamed, .ok remaining, .ok rate,
        .ok startTime, .ok endTime, .ok contractId, .ok transactionHash, .ok eventIndex =>
        .ok ⟨id, sender, recipient, amount, streamed, remaining, rate, startTime, endTime,
          contractId, transactionHash, eventIndex⟩
    | _, _, _, _, _, _, _, _, _, _, _, _ =>
      .error (fieldIssues id ++ fieldIssues sender ++ fieldIssues recipient ++
        fieldIssues amount ++ fieldIssues streamed ++ fieldIssues remaining ++
        fieldIssues rate ++ fieldIssues startTime ++ fieldIssues endTime ++
        fieldIssues contractId ++ fieldIssues transactionHash ++ fieldIssues eventIndex)
  | row =>
    let received := jsonTypeName row
    .error [⟨[], s!"Invalid input: expected object, received {received}"⟩]

def hasString (entries : List (String × Json)) (field : String) : Bool :=
  match entries.lookup field with
  | some (.string _) => true
  | _ => false

def hasInteger (entries : List (String × Json)) (field : String) : Bool :=
  match entries.lookup field with
  | some (.number q) => q.den = 1
  | _ => false

/-- Whether all fields of a row have their types. Duplicates are looked for only then. -/
def isTypedRow : Json → Bool
  | .object entries =>
    (["id", "sender_address", "recipient_address", "amount", "streamed_amount",
      "remaining_amount", "rate_per_second", "contract_id", "transaction_hash"].all
        (hasString entries)) &&
      ["start_time", "end_time", "event_index"].all (hasInteger entries)
  | _ => false

/-- The coordinates by which a row is identified. -/
def identityKey : Json → String × ℚ
  | .object entries =>
    match entries.lookup "transaction_hash", entries.lookup "event_index" with
    | some (.string hash), some (.number index) => (hash, index)
    | _, _ => ("", 0)
  | _ => ("", 0)

def duplicateIssues (rows : List Json) : List SchemaIssue :=
  rows.zipIdx.filterMap fun (row, index) =>
    let firstIndex := (rows.map identityKey).idxOf (identityKey row)
    if firstIndex < index then
      some ⟨[.key "streams", .index index],
        s!"Duplicate stream identity tuple at index {index}; first seen at index {firstIndex}"⟩
    else none

def maxBatchStreams : ℕ := 100

def batchIssues (rows : List Json) : List SchemaIssue :=
  (rows.zipIdx.flatMap fun (row, index) =>
    (issuesOf (batchStreamSchema row)).map (·.within [.key "streams", .index index])) ++
  (if maxBatchStreams < rows.length then
    [⟨[.key "streams"], "Maximum of 100 streams per batch"⟩] else []) ++
  (if rows.all isTypedRow then duplicateIssues rows else [])

/-- Schema for batch stream creation at the indexing boundary. -/
def streamBatchCreateSchema : Json → Except (List SchemaIssue) (List CreateStreamInput)
  | .object entries =>
    match entries.lookup "streams" with
    | some (.array rows) =>
      match batchIssues rows with
      | [] => .ok (rows.filterMap fun row => (batchStreamSchema row).toOption)
      | issues => .error issues
    | streams =>
      let received := (streams.map jsonTypeName).getD "undefined"
      .error [⟨[.key "streams"], s!"Invalid input: expected array, received {received}"⟩]
  | body =>
    let received := jsonTypeName body
    .error [⟨[], s!"Invalid input: expected object, received {received}"⟩]

structure PrivacyConsentInput where
  address : String
  analyticsOptout : Bool
  marketingOptout : Bool
  biometricProcessingConsent : Bool

def privacyConsentKeys : List String :=
  ["address", "analytics_optout", "marketing_optout", "biometric_processing_consent"]

/-- Schema for consent preferences. Unknown keys are refused. -/
def privacyConsentSchema : Json → Except (List SchemaIssue) PrivacyConsentInput
  | .object entries =>
    let address := stellarPublicKeyField "address" (entries.lookup "address")
    let analytics := booleanField "analytics_optout" (entries.lookup "analytics_optout")
    let marketing := booleanField "marketing_optout" (entries.lookup "marketing_optout")
    let biometric := booleanField "biometric_processing_consent"
      (entries.lookup "biometric_processing_consent")
    let unknown := (entries.map Prod.fst).filter (privacyConsentKeys.contains · = false)
    let unknownIssues : List SchemaIssue :=
      if unknown = [] then [] else [⟨[], unrecognizedKeys unknown⟩]
    match address, analytics, marketing, biometric, unknownIssues with
    | .ok address, .ok analytics, .ok marketing, .ok biometric, [] =>
      .ok ⟨address, analytics, marketing, biometric⟩
    | _, _, _, _, _ =>
      .error (fieldIssues address ++ fieldIssues analytics ++ fieldIssues marketing ++
        fieldIssues biometric ++ unknownIssues)
  | body =>
    let received := jsonTypeName body
    .error [⟨[], s!"Invalid input: expected object, received {received}"⟩]

/-! ## Address fields -/

/-- The address fields of the schemas. Those of a batch are of one of its streams. -/
inductive AddressField
  | createSender
  | createRecipient
  | batchSender (index : ℕ)
  | batchRecipient (index : ℕ)
  | consentAddress

/-- The value of a key. -/
def entryOf (key : String) : Json → Option Json
  | .object entries => entries.lookup key
  | _ => none

def itemOf (index : ℕ) : Json → Option Json
  | .array items => items[index]?
  | _ => none

namespace AddressField

/-- The key of the field. -/
def name : AddressField → String
  | createSender => "sender"
  | createRecipient => "recipient"
  | batchSender _ => "sender_address"
  | batchRecipient _ => "recipient_address"
  | consentAddress => "address"

/-- The object the field is in. -/
def place : AddressField → List PathSegment
  | batchSender index | batchRecipient index => [.key "streams", .index index]
  | _ => []

def path (field : AddressField) : List PathSegment := field.place ++ [.key field.name]

/-- The value of the field in a body. -/
def valueIn (body : Json) : AddressField → Option Json
  | batchSender index => (entryOf "streams" body).bind (itemOf index) |>.bind
      (entryOf "sender_address")
  | batchRecipient index => (entryOf "streams" body).bind (itemOf index) |>.bind
      (entryOf "recipient_address")
  | field => entryOf field.name body

/-- The issues that the schema of the field has with a body. -/
def schemaIssues (body : Json) : AddressField → List SchemaIssue
  | createSender | createRecipient => (issuesOf (createStreamSchema body)).map fieldIssue
  | batchSender _ | batchRecipient _ => issuesOf (streamBatchCreateSchema body)
  | consentAddress => issuesOf (privacyConsentSchema body)

/-- No body with the text in the field is refused because of it. -/
def Accepts (field : AddressField) (text : String) : Prop :=
  ∀ body, field.valueIn body = some (.string text) →
    ∀ issue ∈ field.schemaIssues body, issue.path ≠ field.path

end AddressField

/-! ## Issues name the field they are about -/

/-- An issue of a field is about that field. -/
def Names {α : Type} (field : String) (read : Except Issue α) : Prop :=
  ∀ issue, read = .error issue → issue.field = field

section

variable (field : String) (value : Option Json)

theorem names_stellarPublicKeyField : Names field (stellarPublicKeyField field value) := by
  intro issue h
  unfold stellarPublicKeyField at h
  split at h
  · split_ifs at h <;> (cases h; rfl)
  · cases h
    rfl

theorem names_decimalStringField (value : Json) :
    Names field (decimalStringField field value) := by
  intro issue h
  unfold decimalStringField at h
  split at h
  · split_ifs at h <;> (cases h; rfl)
  · cases h
    rfl

theorem names_nonNegativeIntegerField (value : Json) :
    Names field (nonNegativeIntegerField field value) := by
  intro issue h
  unfold nonNegativeIntegerField at h
  split at h
  · split_ifs at h <;> (cases h; rfl)
  · cases h
    rfl

theorem names_nonEmptyStringField : Names field (nonEmptyStringField field value) := by
  intro issue h
  unfold nonEmptyStringField at h
  split at h
  · split_ifs at h
    cases h
    rfl
  · cases h
    rfl

theorem names_booleanField : Names field (booleanField field value) := by
  intro issue h
  unfold booleanField at h
  split at h
  · cases h
  · cases h
    rfl

theorem names_optionalField {α : Type} {read : Json → Except Issue α}
    (hread : ∀ value, Names field (read value)) (value : Option Json) :
    Names field (optionalField read value) := by
  intro issue h
  cases value with
  | none => cases h
  | some value =>
    rw [optionalField] at h
    cases hvalue : read value with
    | ok =>
      rw [hvalue] at h
      cases h
    | error =>
      rw [hvalue] at h
      cases h
      exact hread value _ hvalue

end

/-- Some issue is about the value at a path. -/
def Reports (issues : List SchemaIssue) (path : List PathSegment) : Prop :=
  ∃ issue ∈ issues, issue.path = path

theorem reports_append {issues issues' : List SchemaIssue} {path : List PathSegment} :
    Reports (issues ++ issues') path ↔ Reports issues path ∨ Reports issues' path := by
  simp only [Reports, List.mem_append, or_and_right, exists_or]

theorem reports_fieldIssues {α : Type} {field key : String} {read : Except Issue α}
    (h : Names field read) :
    Reports (fieldIssues read) [.key key] ↔ key = field ∧ ∃ issue, read = .error issue := by
  cases hread : read with
  | ok =>
    apply Iff.intro
    · rintro ⟨_, hmem, -⟩
      cases hmem
    · rintro ⟨-, _, h⟩
      cases h
  | error issue =>
    have hfield := h issue hread
    apply Iff.intro
    · rintro ⟨_, hmem, hpath⟩
      obtain rfl := List.mem_singleton.mp hmem
      rw [fieldIssue, hfield, List.singleton_inj, PathSegment.key.injEq] at hpath
      exact ⟨hpath.symm, issue, rfl⟩
    · rintro ⟨rfl, -⟩
      exact ⟨fieldIssue issue, List.mem_singleton_self _, by rw [fieldIssue, hfield]⟩

theorem stellarPublicKeyField_eq_error_iff {field text : String} :
    (∃ issue, stellarPublicKeyField field (some (.string text)) = .error issue) ↔
      isStellarPublicKey text = false := by
  rw [stellarPublicKeyField]
  split_ifs with hempty hkey
  · rw [hempty]
    exact ⟨fun _ => by decide, fun _ => ⟨_, rfl⟩⟩
  · exact ⟨fun _ => hkey, fun _ => ⟨_, rfl⟩⟩
  · apply Iff.intro
    · rintro ⟨_, h⟩
      cases h
    · exact fun h => absurd h hkey

/-! ## What each schema reports -/

section

variable {entries : List (String × Json)} {text : String} {name : String}

theorem issuesOf_createStreamSchema :
    (issuesOf (createStreamSchema (.object entries))).map fieldIssue =
      fieldIssues (stellarPublicKeyField "sender" (entries.lookup "sender")) ++
      fieldIssues (stellarPublicKeyField "recipient" (entries.lookup "recipient")) ++
      fieldIssues (optionalField (decimalStringField "depositAmount")
        (entries.lookup "depositAmount")) ++
      fieldIssues (optionalField (decimalStringField "ratePerSecond")
        (entries.lookup "ratePerSecond")) ++
      fieldIssues (optionalField (nonNegativeIntegerField "startTime")
        (entries.lookup "startTime")) ++
      fieldIssues (optionalField (nonNegativeIntegerField "endTime")
        (entries.lookup "endTime")) := by
  rw [createStreamSchema]
  split
  · rename_i hsender hrecipient hdeposit hrate hstart hend
    rw [hsender, hrecipient, hdeposit, hrate, hstart, hend]
    rfl
  · simp only [issuesOf, List.map_append, fieldIssues]

theorem reports_createStreamSchema (hname : name = "sender" ∨ name = "recipient")
    (hvalue : entries.lookup name = some (.string text)) :
    Reports ((issuesOf (createStreamSchema (.object entries))).map fieldIssue) [.key name] ↔
      isStellarPublicKey text = false := by
  have hkey := names_stellarPublicKeyField
  have hdecimal := fun field => names_optionalField field (names_decimalStringField field)
  have hinteger := fun field => names_optionalField field (names_nonNegativeIntegerField field)
  rw [issuesOf_createStreamSchema]
  simp only [reports_append, reports_fieldIssues (hkey _ _), reports_fieldIssues (hdecimal _ _),
    reports_fieldIssues (hinteger _ _)]
  rcases hname with rfl | rfl <;>
    simp [hvalue, stellarPublicKeyField_eq_error_iff]

theorem issuesOf_batchStreamSchema :
    issuesOf (batchStreamSchema (.object entries)) =
      fieldIssues (nonEmptyStringField "id" (entries.lookup "id")) ++
      fieldIssues (stellarPublicKeyField "sender_address" (entries.lookup "sender_address")) ++
      fieldIssues (stellarPublicKeyField "recipient_address"
        (entries.lookup "recipient_address")) ++
      fieldIssues (decimalEntry entries "amount") ++
      fieldIssues (decimalEntry entries "streamed_amount") ++
      fieldIssues (decimalEntry entries "remaining_amount") ++
      fieldIssues (decimalEntry entries "rate_per_second") ++
      fieldIssues (integerEntry entries "start_time") ++
      fieldIssues (integerEntry entries "end_time") ++
      fieldIssues (nonEmptyStringField "contract_id" (entries.lookup "contract_id")) ++
      fieldIssues (nonEmptyStringField "transaction_hash"
        (entries.lookup "transaction_hash")) ++
      fieldIssues (integerEntry entries "event_index") := by
  rw [batchStreamSchema]
  split
  · rename_i hid hsender hrecipient hamount hstreamed hremaining hrate hstart hend hcontract hhash
      hindex
    rw [hid, hsender, hrecipient, hamount, hstreamed, hremaining, hrate, hstart, hend, hcontract,
      hhash, hindex]
    rfl
  · rfl

theorem reports_batchStreamSchema (hname : name = "sender_address" ∨ name = "recipient_address")
    (hvalue : entries.lookup name = some (.string text)) :
    Reports (issuesOf (batchStreamSchema (.object entries))) [.key name] ↔
      isStellarPublicKey text = false := by
  have hkey := names_stellarPublicKeyField
  have hdecimal : ∀ field, Names field (decimalEntry entries field) :=
    fun field => names_decimalStringField field _
  have hinteger : ∀ field, Names field (integerEntry entries field) :=
    fun field => names_nonNegativeIntegerField field _
  have htext := names_nonEmptyStringField
  rw [issuesOf_batchStreamSchema]
  simp only [reports_append, reports_fieldIssues (hkey _ _), reports_fieldIssues (hdecimal _),
    reports_fieldIssues (hinteger _), reports_fieldIssues (htext _ _)]
  rcases hname with rfl | rfl <;>
    simp [hvalue, stellarPublicKeyField_eq_error_iff]

theorem reports_privacyConsentSchema (hvalue : entries.lookup "address" = some (.string text)) :
    Reports (issuesOf (privacyConsentSchema (.object entries))) [.key "address"] ↔
      isStellarPublicKey text = false := by
  have hkey := names_stellarPublicKeyField
  have hboolean := names_booleanField
  obtain ⟨unknownIssues, hissues, hunknown⟩ : ∃ unknownIssues,
      issuesOf (privacyConsentSchema (.object entries)) =
        fieldIssues (stellarPublicKeyField "address" (entries.lookup "address")) ++
        fieldIssues (booleanField "analytics_optout" (entries.lookup "analytics_optout")) ++
        fieldIssues (booleanField "marketing_optout" (entries.lookup "marketing_optout")) ++
        fieldIssues (booleanField "biometric_processing_consent"
          (entries.lookup "biometric_processing_consent")) ++ unknownIssues ∧
      ¬ Reports unknownIssues [.key "address"] := by
    rw [privacyConsentSchema]
    refine ⟨if (entries.map Prod.fst).filter (privacyConsentKeys.contains · = false) = [] then []
      else [⟨[], unrecognizedKeys
        ((entries.map Prod.fst).filter (privacyConsentKeys.contains · = false))⟩], ?_, ?_⟩
    · split
      · rename_i haddress hanalytics hmarketing hbiometric hunknown
        rw [haddress, hanalytics, hmarketing, hbiometric, hunknown]
        rfl
      · rfl
    · rintro ⟨issue, hmem, hpath⟩
      split_ifs at hmem
      · cases hmem
      · obtain rfl := List.mem_singleton.mp hmem
        cases hpath
  rw [hissues]
  simp only [reports_append, reports_fieldIssues (hkey _ _), reports_fieldIssues (hboolean _ _)]
  simp [hvalue, stellarPublicKeyField_eq_error_iff, hunknown]

theorem reports_batchIssues {rows : List Json} {index : ℕ} {row : Json}
    (hrow : rows[index]? = some row) :
    Reports (batchIssues rows) [.key "streams", .index index, .key name] ↔
      Reports (issuesOf (batchStreamSchema row)) [.key name] := by
  apply Iff.intro
  · rintro ⟨issue, hmem, hpath⟩
    rw [batchIssues, List.mem_append, List.mem_append] at hmem
    rcases hmem with (hissue | hmany) | hduplicate
    · obtain ⟨⟨row', index'⟩, hrow', hissue⟩ := List.mem_flatMap.mp hissue
      obtain ⟨inner, hinner, rfl⟩ := List.mem_map.mp hissue
      rw [SchemaIssue.within] at hpath
      simp only [List.cons_append, List.nil_append, List.cons.injEq, PathSegment.index.injEq,
        true_and] at hpath
      obtain ⟨rfl, hpath⟩ := hpath
      have hsame := List.mem_zipIdx_iff_getElem?.mp hrow'
      rw [hrow] at hsame
      cases hsame
      exact ⟨inner, hinner, hpath⟩
    · split_ifs at hmany
      · obtain rfl := List.mem_singleton.mp hmany
        cases hpath
      · cases hmany
    · split_ifs at hduplicate
      · obtain ⟨_, -, hissue⟩ := List.mem_filterMap.mp hduplicate
        dsimp only at hissue
        split_ifs at hissue
        cases hissue
        cases hpath
      · cases hduplicate
  · rintro ⟨inner, hinner, hpath⟩
    refine ⟨inner.within [.key "streams", .index index], ?_, by rw [SchemaIssue.within, hpath]; rfl⟩
    rw [batchIssues, List.mem_append, List.mem_append]
    exact .inl (.inl (List.mem_flatMap.mpr ⟨(row, index), List.mem_zipIdx_iff_getElem?.mpr hrow,
      List.mem_map_of_mem hinner⟩))

end

/-! ## Where the boundaries agree -/

theorem entryOf_eq_some {key : String} {body value : Json} (h : entryOf key body = some value) :
    ∃ entries, body = .object entries ∧ entries.lookup key = some value := by
  cases body with
  | object entries => exact ⟨entries, rfl, h⟩
  | _ => cases h

theorem itemOf_eq_some {index : ℕ} {value item : Json} (h : itemOf index value = some item) :
    ∃ items, value = .array items ∧ items[index]? = some item := by
  cases value with
  | array items => exact ⟨items, rfl, h⟩
  | _ => cases h

theorem reports_streamBatchCreateSchema {body : Json} {index : ℕ} {name text : String}
    (hname : name = "sender_address" ∨ name = "recipient_address")
    (hvalue : ((entryOf "streams" body).bind (itemOf index)).bind (entryOf name) =
      some (.string text)) :
    Reports (issuesOf (streamBatchCreateSchema body))
        [.key "streams", .index index, .key name] ↔ isStellarPublicKey text = false := by
  obtain ⟨row, hitem, hentry⟩ := Option.bind_eq_some_iff.mp hvalue
  obtain ⟨streams, hstreams, hindex⟩ := Option.bind_eq_some_iff.mp hitem
  obtain ⟨entries, rfl, hlookup⟩ := entryOf_eq_some hstreams
  obtain ⟨rows, rfl, hrow⟩ := itemOf_eq_some hindex
  obtain ⟨fields, rfl, htext⟩ := entryOf_eq_some hentry
  have hissues : issuesOf (streamBatchCreateSchema (.object entries)) = batchIssues rows := by
    rw [streamBatchCreateSchema, hlookup]
    dsimp only
    split
    · rename_i hnone
      rw [hnone]
      rfl
    · rfl
  rw [hissues, reports_batchIssues hrow, reports_batchStreamSchema hname htext]

namespace AddressField

variable {field : AddressField} {text : String}

theorem reports_iff {body : Json} (hvalue : field.valueIn body = some (.string text)) :
    Reports (field.schemaIssues body) field.path ↔ isStellarPublicKey text = false := by
  cases field with
  | createSender =>
    obtain ⟨entries, rfl, hvalue⟩ := entryOf_eq_some hvalue
    exact reports_createStreamSchema (.inl rfl) hvalue
  | createRecipient =>
    obtain ⟨entries, rfl, hvalue⟩ := entryOf_eq_some hvalue
    exact reports_createStreamSchema (.inr rfl) hvalue
  | batchSender => exact reports_streamBatchCreateSchema (.inl rfl) hvalue
  | batchRecipient => exact reports_streamBatchCreateSchema (.inr rfl) hvalue
  | consentAddress =>
    obtain ⟨entries, rfl, hvalue⟩ := entryOf_eq_some hvalue
    exact reports_privacyConsentSchema hvalue

/-- A body with nothing but the text in the field. -/
def bodyWith (text : String) : AddressField → Json
  | batchSender index => .object [("streams", .array (List.replicate index .null ++
      [.object [("sender_address", .string text)]]))]
  | batchRecipient index => .object [("streams", .array (List.replicate index .null ++
      [.object [("recipient_address", .string text)]]))]
  | field => .object [(field.name, .string text)]

theorem valueIn_bodyWith : field.valueIn (field.bodyWith text) = some (.string text) := by
  cases field <;> simp [valueIn, bodyWith, entryOf, itemOf, name]

theorem accepts_iff : field.Accepts text ↔ isStellarPublicKey text = true := by
  apply Iff.intro
  · intro h
    by_contra hkey
    rw [Bool.not_eq_true] at hkey
    obtain ⟨issue, hmem, hpath⟩ := (reports_iff valueIn_bodyWith).mpr hkey
    exact h _ valueIn_bodyWith issue hmem hpath
  · intro hkey body hvalue issue hmem hpath
    rw [(reports_iff hvalue).mp ⟨issue, hmem, hpath⟩] at hkey
    cases hkey

end AddressField

/-- Every address field accepts a text exactly when it is a valid account address. -/
def AddressesAgree (text : String) : Prop :=
  ∀ field : AddressField, field.Accepts text ↔ isValidStellarAccountAddress text = true

theorem isStellarPublicKey_iff {text : String} : isStellarPublicKey text = true ↔
    text.toList.head? = some 'G' ∧ isStrkeyText text.toList = true ∧
      text.toList.length = stellarStrkeyLength := by
  unfold isStellarPublicKey
  split
  · rename_i rest htext
    rw [htext, isStrkeyText, stellarStrkeyLength]
    simp [and_comm]
  · rename_i hother
    apply Iff.intro
    · exact fun h => absurd h Bool.false_ne_true
    · rintro ⟨hhead, -⟩
      obtain ⟨rest, htext⟩ := List.head?_eq_some_iff.mp hhead
      exact absurd htext (hother rest)

/-- The fields agree with the check of an address but for texts of the pattern whose version byte
or checksum is wrong, and for texts of the length of a multiplexed address that have the version
byte and the checksum of an account. -/
theorem addressesAgree_iff (text : String) : AddressesAgree text ↔
    (isStellarPublicKey text = true → hasAccountFrame stellarStrkeyPayloadLength text = true) ∧
    ¬(isStrkeyText text.toList = true ∧ text.toList.length = stellarMuxedStrkeyLength ∧
      hasAccountFrame stellarMuxedStrkeyPayloadLength text = true) := by
  have hagree : AddressesAgree text ↔
      (isStellarPublicKey text = true ↔ isValidStellarAccountAddress text = true) := by
    simp only [AddressesAgree, AddressField.accepts_iff]
    exact ⟨fun h => h .consentAddress, fun h _ => h⟩
  have hlengths : stellarStrkeyLength ≠ stellarMuxedStrkeyLength := by decide
  rw [hagree, isValidStellarAccountAddress_iff]
  apply Iff.intro
  · intro h
    refine ⟨fun hkey => ?_, fun ⟨htext, hlength, hframe⟩ => ?_⟩
    · obtain ⟨-, -, hlength⟩ := isStellarPublicKey_iff.mp hkey
      rcases (h.mp hkey).2 with ⟨-, hframe⟩ | ⟨hmuxed, -⟩
      · exact hframe
      · exact absurd (hlength.symm.trans hmuxed) hlengths
    · have hkey := h.mpr ⟨htext, .inr ⟨hlength, hframe⟩⟩
      exact hlengths ((isStellarPublicKey_iff.mp hkey).2.2.symm.trans hlength)
  · rintro ⟨hpattern, hmuxed⟩
    apply Iff.intro
    · intro hkey
      obtain ⟨-, htext, hlength⟩ := isStellarPublicKey_iff.mp hkey
      exact ⟨htext, .inl ⟨hlength, hpattern hkey⟩⟩
    · rintro ⟨htext, ⟨hlength, hframe⟩ | ⟨hlength, hframe⟩⟩
      · have hlong : 2 ≤ text.toList.length := by
          rw [hlength]
          decide
        exact isStellarPublicKey_iff.mpr ⟨head_of_hasAccountFrame hlong hframe, htext, hlength⟩
      · exact absurd ⟨htext, hlength, hframe⟩ hmuxed

/-- The pattern takes an address with the checksum of no account. -/
theorem wrongChecksum_accepted : ¬ ∀ text, AddressesAgree text := by
  intro h
  have haccepted : AddressField.createSender.Accepts
      "GAAAAAAAAAAAAAAAAAAAAAAAAAAAAAAAAAAAAAAAAAAAAAAAAAAAAAAA" :=
    AddressField.accepts_iff.mpr (by decide +kernel)
  have hvalid := (h _ .createSender).mp haccepted
  exact absurd hvalid (by decide +kernel)

-- an account address of sixty-nine characters is valid, and no field takes it
example : isValidStellarAccountAddress
    "GAAAAAAAAAAAAAAAAAAAAAAAAAAAAAAAAAAAAAAAAAAAAAAAAAAAAAAAAAAAAAAAAC6UC" = true := by
  decide +kernel

end Fluxora.Validation
