/-
# Bodies of create requests

The body of a create request is checked against a schema and normalised: amounts lose their
trailing zeros, a missing end becomes zero, and a missing start becomes the second in which the
request is handled. The stream id is a digest of the normalised input, and so is the fingerprint
by which a repeated request is recognised.

The two digests are taken of texts that determine the input.
-/

import Mathlib.Data.List.Sort
import Fluxora.Lib.Json
import Fluxora.Lib.JsonText
import Fluxora.Serialization.Decimal
import Fluxora.Streams.Repository

namespace Fluxora.Streams

open Lib Lib.JsText Lib.JsonText Serialization

/-! ## The schema -/

/-- A field that is refused, with the message. -/
structure Issue where
  field : String
  message : String

/-- A parsed create body. -/
structure CreateStreamBody where
  sender : String
  recipient : String
  depositAmount : Option String
  ratePerSecond : Option String
  startTime : Option ℕ
  endTime : Option ℕ

/-- `/^G[A-Z2-7]{55}$/` -/
def isStellarPublicKey (text : String) : Bool :=
  match text.toList with
  | 'G' :: rest =>
    rest.length = 55 ∧ rest.all fun c =>
      65 ≤ c.toNat ∧ c.toNat ≤ 90 ∨ 50 ≤ c.toNat ∧ c.toNat ≤ 55
  | _ => false

/-- `Number.MAX_SAFE_INTEGER`, the bound of an integer field. -/
def maxSafeTime : ℤ := 2 ^ 53 - 1

def stellarDecimals : ℕ := 7

/-- A Stellar public key field. Of several issues of one field the first is kept. -/
def stellarPublicKeyField (field : String) : Option Json → Except Issue String
  | some (.string text) =>
    if text = "" then .error ⟨field, s!"{field} must be a non-empty string"⟩
    else if isStellarPublicKey text = false then
      .error ⟨field, s!"{field} must be a valid Stellar public key (G...)"⟩
    else .ok text
  | _ => .error ⟨field, s!"{field} must be a string"⟩

/-- A decimal string field, with its bounds of magnitude and precision. -/
def decimalStringField (field : String) : Json → Except Issue String
  | .string text =>
    if matchesDecimalPattern text.toList = false then
      .error ⟨field,
        s!"{field} must be a valid decimal string (e.g. \"100\", \"0.0000116\")"⟩
    else if DigitText.value (stripSign (text.toList.takeWhile (· ≠ '.'))) >
        maxDecimalIntegerPart then
      .error ⟨field, s!"{field} integer part exceeds maximum supported value"⟩
    else if ((text.toList.dropWhile (· ≠ '.')).drop 1).length > stellarDecimals then
      .error ⟨field,
        s!"{field} exceeds maximum Stellar precision of 7 decimal places"⟩
    else .ok text
  | _ => .error ⟨field, s!"{field} must be a decimal string, not a number"⟩

/-- A non-negative integer field. -/
def nonNegativeIntegerField (field : String) : Json → Except Issue ℕ
  | .number q =>
    if q.den ≠ 1 ∨ maxSafeTime < |q.num| then
      .error ⟨field, s!"{field} must be an integer"⟩
    else if q.num < 0 then .error ⟨field, s!"{field} must be non-negative"⟩
    else .ok q.num.toNat
  | _ => .error ⟨field, s!"{field} must be a number"⟩

/-- A field that may be absent. -/
def optionalField {α : Type} (read : Json → Except Issue α) :
    Option Json → Except Issue (Option α)
  | none => .ok none
  | some value => (read value).map some

/-- The issue of a field, if it has one. -/
def issueOf {α : Type} : Except Issue α → List Issue
  | .ok _ => []
  | .error issue => [issue]

/-- The name of a JSON type in a message. -/
def jsonTypeName : Json → String
  | .null => "null"
  | .bool _ => "boolean"
  | .number _ => "number"
  | .string _ => "string"
  | .array _ => "array"
  | .object _ => "object"

/-- Schema for the create body. Unknown keys are ignored, and the issues of all fields
are reported. -/
def createStreamSchema : Json → Except (List Issue) CreateStreamBody
  | .object entries =>
    let sender := stellarPublicKeyField "sender" (entries.lookup "sender")
    let recipient := stellarPublicKeyField "recipient" (entries.lookup "recipient")
    let depositAmount := optionalField (decimalStringField "depositAmount")
      (entries.lookup "depositAmount")
    let ratePerSecond := optionalField (decimalStringField "ratePerSecond")
      (entries.lookup "ratePerSecond")
    let startTime := optionalField (nonNegativeIntegerField "startTime")
      (entries.lookup "startTime")
    let endTime := optionalField (nonNegativeIntegerField "endTime")
      (entries.lookup "endTime")
    match sender, recipient, depositAmount, ratePerSecond, startTime, endTime with
    | .ok sender, .ok recipient, .ok depositAmount, .ok ratePerSecond, .ok startTime,
        .ok endTime =>
        .ok { sender, recipient, depositAmount, ratePerSecond, startTime, endTime }
    | _, _, _, _, _, _ =>
      .error (issueOf sender ++ issueOf recipient ++ issueOf depositAmount ++
        issueOf ratePerSecond ++ issueOf startTime ++ issueOf endTime)
  | body =>
    let received := jsonTypeName body
    .error [⟨"body", s!"Invalid input: expected object, received {received}"⟩]

/-! ## Normalising -/

/-- Why a create body is refused, always with status 400. -/
inductive CreateRefusal
  | schema (issues : List Issue)
  | amounts (errors : List DecimalSerializationError)
  | validation (message : String)
  /-- Thrown by the comparison with zero. -/
  | comparison (error : DecimalSerializationError)

/-- The message of the answer. -/
def CreateRefusal.message : CreateRefusal → String
  | .schema issues => (issues.head?.map Issue.message).getD "Validation failed"
  | .amounts _ => "Invalid decimal string format for amount fields"
  | .validation message => message
  | .comparison error => error.message

/-- Validated, normalised create body. -/
structure ApiCreateStreamInput where
  sender : String
  recipient : String
  depositAmount : String
  ratePerSecond : String
  startTime : ℕ
  endTime : ℕ
  deriving DecidableEq

/-- `validateAmountFields`: the errors of the fields that are there. -/
def validateAmountFields (fields : List (String × Option String)) :
    List DecimalSerializationError :=
  fields.filterMap fun field =>
    field.2.bind fun text =>
      match validateDecimalString (.string text.toList) (some field.1) with
      | .ok _ => none
      | .error error => some error

/-- The normalised amount, zero when it is absent. -/
def validatedAmount (field : String) (amount : Option String) : List Char :=
  match validateDecimalString (.string (amount.getD "0").toList) (some field) with
  | .ok value => if value = [] then ['0'] else value
  | .error _ => ['0']

/-- The checks of a body and its normalised amounts. -/
def checkCreateBody (body : Json) :
    Except CreateRefusal (CreateStreamBody × List Char × List Char) :=
  match createStreamSchema body with
  | .error issues => .error (.schema issues)
  | .ok parsed =>
    match validateAmountFields
      [("depositAmount", parsed.depositAmount), ("ratePerSecond", parsed.ratePerSecond)] with
    | error :: errors => .error (.amounts (error :: errors))
    | [] =>
      let deposit := validatedAmount "depositAmount" parsed.depositAmount
      let rate := validatedAmount "ratePerSecond" parsed.ratePerSecond
      match compareDecimalStringToZero deposit with
      | .error error => .error (.comparison error)
      | .ok .gt =>
        if parsed.ratePerSecond.isNone then .ok (parsed, deposit, rate)
        else
          match compareDecimalStringToZero rate with
          | .error error => .error (.comparison error)
          | .ok .lt => .error (.validation "ratePerSecond cannot be negative")
          | .ok _ => .ok (parsed, deposit, rate)
      | .ok _ => .error (.validation "depositAmount must be greater than zero")

/-- Validate and normalise a create body at a time in milliseconds. Only a missing start
looks at the time. -/
def normalizeCreateInput (now : ℕ) (body : Json) : Except CreateRefusal ApiCreateStreamInput :=
  (checkCreateBody body).map fun (parsed, deposit, rate) =>
    { sender := String.ofList (trim parsed.sender.toList)
      recipient := String.ofList (trim parsed.recipient.toList)
      depositAmount := String.ofList deposit
      ratePerSecond := String.ofList rate
      startTime := parsed.startTime.getD (now / 1000)
      endTime := parsed.endTime.getD 0 }

/-- `parseCreateStreamBody`: an absent body is an empty object. -/
def parseCreateStreamBody (now : ℕ) : Json → Except CreateRefusal ApiCreateStreamInput
  | .null => normalizeCreateInput now (.object [])
  | body => normalizeCreateInput now body

/-! ## Plain texts -/

/-- Every text of the input is plain. -/
def ApiCreateStreamInput.Plain (input : ApiCreateStreamInput) : Prop :=
  ∀ text ∈ [input.sender, input.recipient, input.depositAmount, input.ratePerSecond],
    ∀ c ∈ text.toList, IsPlain c

theorem isPlain_of_isDigit {c : Char} (h : c.isDigit = true) : IsPlain c := by
  have hrange : 48 ≤ c.toNat ∧ c.toNat ≤ 57 := Char.isDigit_iff_toNat.mp h
  unfold IsPlain
  omega

theorem isPlain_of_isStellarPublicKey {text : String} (h : isStellarPublicKey text = true) :
    ∀ c ∈ text.toList, IsPlain c := by
  unfold isStellarPublicKey at h
  split at h
  · rename_i rest htext
    simp only [decide_eq_true_eq, List.all_eq_true] at h
    rw [htext]
    intro c hc
    rcases List.mem_cons.mp hc with hfirst | hrest
    · rw [hfirst]
      unfold IsPlain
      decide
    · have hrange := h.2 c hrest
      unfold IsPlain
      omega
  · cases h

theorem isPlain_of_mem_literal (d : DecimalLiteral) : ∀ c ∈ d.text, IsPlain c := by
  intro c hc
  rw [DecimalLiteral.text, List.mem_append, List.mem_append] at hc
  rcases hc with (hsign | hwhole) | hpoint
  · cases hd : d.sign with
    | absent =>
      rw [hd] at hsign
      cases hsign
    | plus | minus =>
      rw [hd] at hsign
      rw [List.mem_singleton.mp hsign]
      unfold IsPlain
      decide
  · exact isPlain_of_isDigit (d.whole_digits c hwhole)
  · rw [DecimalLiteral.pointText] at hpoint
    split_ifs at hpoint with hnil
    · cases hpoint
    · rcases List.mem_cons.mp hpoint with hdot | hfraction
      · rw [hdot]
        unfold IsPlain
        decide
      · exact isPlain_of_isDigit (d.fraction_digits c hfraction)

theorem isPlain_validatedAmount (field : String) (amount : Option String) :
    ∀ c ∈ validatedAmount field amount, IsPlain c := by
  have hzero : ∀ c ∈ ['0'], IsPlain c := by
    intro c hc
    rw [List.mem_singleton.mp hc]
    exact isPlain_of_isDigit rfl
  unfold validatedAmount
  split
  · rename_i value hvalue
    obtain ⟨d, -, -, rfl⟩ := validateDecimalString_eq_ok_iff.mp hvalue
    split_ifs
    · exact hzero
    · exact isPlain_of_mem_literal d.normalize
  · exact hzero

/-! ## Accepted bodies -/

theorem stellarPublicKeyField_eq_ok {field text : String} {value : Option Json}
    (h : stellarPublicKeyField field value = .ok text) : isStellarPublicKey text = true := by
  unfold stellarPublicKeyField at h
  split at h
  · split_ifs at h with hempty hkey
    cases h
    simpa using hkey
  · cases h

variable {body : Json} {now : ℕ} {parsed : CreateStreamBody}

theorem checkCreateBody_eq_ok {deposit rate : List Char}
    (h : checkCreateBody body = .ok (parsed, deposit, rate)) :
    createStreamSchema body = .ok parsed ∧
      deposit = validatedAmount "depositAmount" parsed.depositAmount ∧
      rate = validatedAmount "ratePerSecond" parsed.ratePerSecond := by
  unfold checkCreateBody at h
  split at h
  · cases h
  · rename_i parsed' hschema
    split at h
    · cases h
    · dsimp only at h
      split at h
      · cases h
      · split_ifs at h with hrate
        · cases h
          exact ⟨hschema, rfl, rfl⟩
        · split at h
          · cases h
          · cases h
          · cases h
            exact ⟨hschema, rfl, rfl⟩
      · cases h

theorem createStreamSchema_eq_ok (h : createStreamSchema body = .ok parsed) :
    ∃ entries, body = .object entries ∧ isStellarPublicKey parsed.sender = true ∧
      isStellarPublicKey parsed.recipient = true ∧
      optionalField (nonNegativeIntegerField "startTime") (entries.lookup "startTime") =
        .ok parsed.startTime := by
  unfold createStreamSchema at h
  split at h
  · rename_i entries
    dsimp only at h
    split at h
    · rename_i hsender hrecipient _ _ hstart _
      cases h
      exact ⟨entries, rfl, stellarPublicKeyField_eq_ok hsender,
        stellarPublicKeyField_eq_ok hrecipient, hstart⟩
    · cases h
  · cases h

/-- The body says when the stream starts. -/
def carriesStartTime : Json → Bool
  | .object entries => (entries.lookup "startTime").isSome
  | _ => false

theorem isSome_startTime (h : createStreamSchema body = .ok parsed) :
    parsed.startTime.isSome = carriesStartTime body := by
  obtain ⟨entries, rfl, -, -, hstart⟩ := createStreamSchema_eq_ok h
  rw [carriesStartTime]
  cases hlookup : entries.lookup "startTime" with
  | none =>
    rw [hlookup] at hstart
    rw [← Except.ok.inj hstart]
    rfl
  | some value =>
    rw [hlookup, optionalField] at hstart
    cases hread : nonNegativeIntegerField "startTime" value with
    | error =>
      rw [hread] at hstart
      cases hstart
    | ok =>
      rw [hread] at hstart
      rw [← Except.ok.inj hstart]
      rfl

theorem parseCreateStreamBody_eq_ok {input : ApiCreateStreamInput}
    (h : parseCreateStreamBody now body = .ok input) :
    ∃ parsed deposit rate, checkCreateBody body = .ok (parsed, deposit, rate) ∧
      input =
        { sender := String.ofList (trim parsed.sender.toList)
          recipient := String.ofList (trim parsed.recipient.toList)
          depositAmount := String.ofList deposit
          ratePerSecond := String.ofList rate
          startTime := parsed.startTime.getD (now / 1000)
          endTime := parsed.endTime.getD 0 } := by
  have hchecked : ∀ {body : Json}, normalizeCreateInput now body = .ok input →
      ∃ checked, checkCreateBody body = .ok checked := by
    intro body h
    cases hcheck : checkCreateBody body with
    | error =>
      rw [normalizeCreateInput, hcheck] at h
      cases h
    | ok checked => exact ⟨checked, rfl⟩
  unfold parseCreateStreamBody at h
  split at h
  · -- an absent body lacks its keys
    obtain ⟨⟨parsed, deposit, rate⟩, hcheck⟩ := hchecked h
    obtain ⟨entries, hentries, hsender, -⟩ :=
      createStreamSchema_eq_ok (checkCreateBody_eq_ok hcheck).1
    cases hentries
    exact absurd (checkCreateBody_eq_ok hcheck).1 (by simp [createStreamSchema,
      stellarPublicKeyField])
  · obtain ⟨⟨parsed, deposit, rate⟩, hcheck⟩ := hchecked h
    rw [normalizeCreateInput, hcheck] at h
    cases h
    exact ⟨parsed, deposit, rate, hcheck, rfl⟩

theorem parseCreateStreamBody_at {input : ApiCreateStreamInput}
    (h : parseCreateStreamBody now body = .ok input) (later : ℕ) :
    parseCreateStreamBody later body =
      .ok (if carriesStartTime body = true then input
        else { input with startTime := later / 1000 }) := by
  obtain ⟨parsed, deposit, rate, hcheck, rfl⟩ := parseCreateStreamBody_eq_ok h
  have hschema := (checkCreateBody_eq_ok hcheck).1
  obtain ⟨entries, rfl, -⟩ := createStreamSchema_eq_ok hschema
  have hstart := isSome_startTime hschema
  rw [parseCreateStreamBody, normalizeCreateInput, hcheck]
  · cases hparsed : parsed.startTime with
    | none | some =>
      rw [hparsed] at hstart
      rw [← hstart]
      simp [Except.map, hparsed]
  · intro hnull
    cases hnull

theorem plain_of_parseCreateStreamBody {input : ApiCreateStreamInput}
    (h : parseCreateStreamBody now body = .ok input) : input.Plain := by
  obtain ⟨parsed, deposit, rate, hcheck, rfl⟩ := parseCreateStreamBody_eq_ok h
  obtain ⟨hschema, rfl, rfl⟩ := checkCreateBody_eq_ok hcheck
  obtain ⟨_, _, hsender, hrecipient, _⟩ := createStreamSchema_eq_ok hschema
  have hkey : ∀ {key : String}, isStellarPublicKey key = true →
      ∀ c ∈ (String.ofList (trim key.toList)).toList, IsPlain c := by
    intro key hkey
    rw [trim_of_isPlain (isPlain_of_isStellarPublicKey hkey), String.toList_ofList]
    exact isPlain_of_isStellarPublicKey hkey
  have hamount : ∀ field amount,
      ∀ c ∈ (String.ofList (validatedAmount field amount)).toList, IsPlain c := by
    intro field amount
    rw [String.toList_ofList]
    exact isPlain_validatedAmount field amount
  intro text htext
  simp only [List.mem_cons, List.not_mem_nil, or_false] at htext
  rcases htext with rfl | rfl | rfl | rfl
  · exact hkey hsender
  · exact hkey hrecipient
  · exact hamount _ _
  · exact hamount _ _

/-! ## Digests -/

namespace ApiCreateStreamInput

/-- The properties in the order they were written, with their printed values. -/
def properties (input : ApiCreateStreamInput) : List (String × List Char) :=
  [("sender", quote input.sender.toList),
   ("recipient", quote input.recipient.toList),
   ("depositAmount", quote input.depositAmount.toList),
   ("ratePerSecond", quote input.ratePerSecond.toList),
   ("startTime", (toString input.startTime).toList),
   ("endTime", (toString input.endTime).toList)]

/-- `JSON.stringify(input)` -/
def stringify (input : ApiCreateStreamInput) : String :=
  String.ofList (object input.properties)

/-- `canonicalizeBody(input)`: the properties sorted by key, the values trimmed. -/
def canonicalizeBody (input : ApiCreateStreamInput) : String :=
  String.ofList (object
    ((input.properties.insertionSort fun a b => a.1 ≤ b.1).map fun p => (p.1, trim p.2)))

theorem properties_inj {input input' : ApiCreateStreamInput} (h : input.Plain) (h' : input'.Plain)
    (heq : input.properties = input'.properties) : input = input' := by
  simp only [properties, List.cons.injEq, Prod.mk.injEq, true_and, and_true] at heq
  obtain ⟨hsender, hrecipient, hdeposit, hrate, hstart, hend⟩ := heq
  have htext : ∀ {text text' : String},
      text ∈ [input.sender, input.recipient, input.depositAmount, input.ratePerSecond] →
      text' ∈ [input'.sender, input'.recipient, input'.depositAmount, input'.ratePerSecond] →
      quote text.toList = quote text'.toList → text = text' := by
    intro text text' hmem hmem' hquote
    exact String.toList_inj.mp (quote_inj (h text hmem) (h' text' hmem') hquote)
  have htime : ∀ {m n : ℕ}, (toString m).toList = (toString n).toList → m = n :=
    fun hprinted => DigitText.toString_nat_inj (String.toList_inj.mp hprinted)
  cases input
  cases input'
  simp only [mk.injEq]
  exact ⟨htext (by simp) (by simp) hsender, htext (by simp) (by simp) hrecipient,
    htext (by simp) (by simp) hdeposit, htext (by simp) (by simp) hrate, htime hstart,
    htime hend⟩

theorem comma_notMem_property {input : ApiCreateStreamInput} (h : input.Plain) :
    ∀ entry ∈ input.properties, ',' ∉ property entry := by
  have hkey : ∀ {key : String} {value : List Char}, ',' ∉ key.toList → ',' ∉ value →
      ',' ∉ property (key, value) := by
    intro key value hkey hvalue hmem
    simp only [property, List.mem_cons, List.mem_append] at hmem
    rcases hmem with hmem | hmem
    · rcases hmem with hquote | hmem
      · exact absurd hquote (by decide)
      · exact hkey hmem
    · rcases hmem with hquote | hcolon | hmem
      · exact absurd hquote (by decide)
      · exact absurd hcolon (by decide)
      · exact hvalue hmem
  have hnumber : ∀ n : ℕ, ',' ∉ (toString n).toList := fun n hmem =>
    absurd (DigitText.isDigit_of_mem_toString hmem) (by decide)
  intro entry hentry
  simp only [properties, List.mem_cons, List.not_mem_nil, or_false] at hentry
  rcases hentry with rfl | rfl | rfl | rfl | rfl | rfl
  · exact hkey (by decide) (comma_notMem_quote (h _ (by simp)))
  · exact hkey (by decide) (comma_notMem_quote (h _ (by simp)))
  · exact hkey (by decide) (comma_notMem_quote (h _ (by simp)))
  · exact hkey (by decide) (comma_notMem_quote (h _ (by simp)))
  · exact hkey (by decide) (hnumber _)
  · exact hkey (by decide) (hnumber _)

theorem stringify_inj {input input' : ApiCreateStreamInput} (h : input.Plain) (h' : input'.Plain)
    (heq : input.stringify = input'.stringify) : input = input' :=
  properties_inj h h' (object_inj rfl (comma_notMem_property h) (comma_notMem_property h')
    (String.ofList_inj.mp heq))

theorem trim_properties {input : ApiCreateStreamInput} :
    ∀ entry ∈ input.properties, (entry.1, trim entry.2) = entry := by
  have hnumber : ∀ n : ℕ, trim (toString n).toList = (toString n).toList := fun n =>
    trim_of_isPlain fun c hc => isPlain_of_isDigit (DigitText.isDigit_of_mem_toString hc)
  intro entry hentry
  simp only [properties, List.mem_cons, List.not_mem_nil, or_false] at hentry
  rcases hentry with rfl | rfl | rfl | rfl | rfl | rfl
  · rw [trim_quote]
  · rw [trim_quote]
  · rw [trim_quote]
  · rw [trim_quote]
  · rw [hnumber]
  · rw [hnumber]

theorem canonicalizeBody_eq (input : ApiCreateStreamInput) :
    input.canonicalizeBody =
      String.ofList (object (input.properties.insertionSort fun a b => a.1 ≤ b.1)) := by
  have htrim : ∀ entry ∈ input.properties.insertionSort (fun a b => a.1 ≤ b.1),
      (entry.1, trim entry.2) = entry := fun entry hentry =>
    trim_properties entry ((List.perm_insertionSort _ _).mem_iff.mp hentry)
  rw [canonicalizeBody, List.map_congr_left htrim, List.map_id']

theorem insertionSort_properties (input : ApiCreateStreamInput) :
    input.properties.insertionSort (fun a b => a.1 ≤ b.1) =
      [("depositAmount", quote input.depositAmount.toList),
       ("endTime", (toString input.endTime).toList),
       ("ratePerSecond", quote input.ratePerSecond.toList),
       ("recipient", quote input.recipient.toList),
       ("sender", quote input.sender.toList),
       ("startTime", (toString input.startTime).toList)] := by
  simp +decide only [properties, List.insertionSort_cons, List.insertionSort_nil,
    List.orderedInsert_nil, List.orderedInsert_cons, if_true, if_false]

theorem canonicalizeBody_inj {input input' : ApiCreateStreamInput} (h : input.Plain)
    (h' : input'.Plain) (heq : input.canonicalizeBody = input'.canonicalizeBody) :
    input = input' := by
  have hcomma : ∀ {input : ApiCreateStreamInput}, input.Plain →
      ∀ entry ∈ input.properties.insertionSort (fun a b => a.1 ≤ b.1), ',' ∉ property entry :=
    fun h entry hentry =>
      comma_notMem_property h entry ((List.perm_insertionSort _ _).mem_iff.mp hentry)
  have hkeys : (input.properties.insertionSort fun a b => a.1 ≤ b.1).map Prod.fst =
      (input'.properties.insertionSort fun a b => a.1 ≤ b.1).map Prod.fst := by
    rw [insertionSort_properties, insertionSort_properties]
    rfl
  rw [canonicalizeBody_eq, canonicalizeBody_eq] at heq
  have hsorted := object_inj hkeys (hcomma h) (hcomma h') (String.ofList_inj.mp heq)
  rw [insertionSort_properties, insertionSort_properties] at hsorted
  simp only [List.cons.injEq, Prod.mk.injEq, true_and, and_true] at hsorted
  obtain ⟨hdeposit, hend, hrate, hrecipient, hsender, hstart⟩ := hsorted
  apply properties_inj h h'
  rw [properties, properties, hdeposit, hend, hrate, hrecipient, hsender, hstart]

variable (sha256 : String → String)

/-- The fingerprint of a normalised body. -/
def fingerprintInput (input : ApiCreateStreamInput) : String := sha256 input.canonicalizeBody

def idHash (input : ApiCreateStreamInput) : String := sha256 input.stringify

/-- The id of a stream that is created through the API. -/
def apiStreamId (idHash : String) : String := "stream-" ++ idHash ++ "-0"

/-- The row that `createStreamFromApi` hands to the repository. -/
def row (input : ApiCreateStreamInput) : CreateStreamInput where
  id := apiStreamId (input.idHash sha256)
  senderAddress := input.sender
  recipientAddress := input.recipient
  amount := input.depositAmount
  streamedAmount := "0"
  remainingAmount := input.depositAmount
  ratePerSecond := input.ratePerSecond
  startTime := input.startTime
  endTime := input.endTime
  contractId := "api-created"
  transactionHash := input.idHash sha256
  eventIndex := 0

variable {sha256} {input input' : ApiCreateStreamInput}

theorem fingerprintInput_inj (hfree : Function.Injective sha256) (h : input.Plain)
    (h' : input'.Plain) (heq : input.fingerprintInput sha256 = input'.fingerprintInput sha256) :
    input = input' :=
  canonicalizeBody_inj h h' (hfree heq)

theorem position_row_inj (hfree : Function.Injective sha256) (h : input.Plain)
    (h' : input'.Plain) (heq : (input.row sha256).position = (input'.row sha256).position) :
    input = input' :=
  stringify_inj h h' (hfree (congrArg Prod.fst heq))

end ApiCreateStreamInput

end Fluxora.Streams
