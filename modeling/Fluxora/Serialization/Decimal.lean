/-
# Decimal strings

Amounts cross the chain and API boundary as decimal strings. This module embeds the validator, the
normalizer and the comparison with zero of `src/serialization/decimal.ts`, and gives the decimal
grammar a meaning of its own: a `DecimalLiteral` is a sign, a nonempty run of digits and an
optional fraction, it has one text and it denotes one rational number.
-/

import Fluxora.Lib.Binary64
import Fluxora.Lib.JsText
import Mathlib.Tactic.FieldSimp
import Mathlib.Tactic.Positivity

namespace Fluxora.Serialization

open Lib Lib.DigitText Lib.JsText Lib.Binary64

/-! ## Values and errors -/

/-- A number as the functions of this module tell numbers apart. A finite number
with a fractional part is used through its default text only. -/
inductive JsNumber
  | nan
  | infinity (negative : Bool)
  | integer (n : IntegerDouble)
  | fractional (text : List Char)

/-- The dynamic values handed to the validator and the serializer. -/
inductive JsValue
  | null
  | undefined
  | string (text : List Char)
  | number (n : JsNumber)
  | bigint (n : ℤ)
  /-- Booleans, objects, symbols and functions, by the name `typeof` gives. -/
  | other (typeOf : String)

/-- The `typeof` operator on the values that reach an error message. -/
def JsValue.typeOf : JsValue → String
  | .null => "object"
  | .undefined => "undefined"
  | .string _ => "string"
  | .number _ => "number"
  | .bigint _ => "bigint"
  | .other name => name

/-- Error codes for decimal serialization failures. -/
inductive DecimalErrorCode
  | invalidType
  | invalidFormat
  | outOfRange
  | precisionLoss
  | precisionExceeded
  | emptyValue
  deriving DecidableEq, Repr

/-- A rejected value, with the code, the message and the field it was read from. -/
structure DecimalSerializationError where
  code : DecimalErrorCode
  message : String
  field : Option String
  rawValue : JsValue

/-- The field name as messages quote it. -/
def fieldLabel (fieldName : Option String) : String :=
  "Field '" ++ fieldName.getD "value" ++ "'"

/-- Maximum allowed integer part of a decimal amount (int64 max). -/
def maxDecimalIntegerPart : ℕ := 9223372036854775807

/-! ## The pattern, the normalizer and the validator -/

/-- `text.replace(/^[+-]/, '')`. -/
def stripSign : List Char → List Char
  | '+' :: rest => rest
  | '-' :: rest => rest
  | text => text

/-- `DECIMAL_STRING_PATTERN.test`: an optional sign, digits, and an optional
point with digits. -/
def matchesDecimalPattern (text : List Char) : Bool :=
  let digits := (stripSign text).takeWhile Char.isDigit
  match (stripSign text).dropWhile Char.isDigit with
  | [] => !digits.isEmpty
  | '.' :: fraction => !digits.isEmpty && !fraction.isEmpty && fraction.all Char.isDigit
  | _ => false

/-- Strip trailing fractional zeros; if only the point remains, drop it too. -/
def normalizeDecimalString (text : List Char) : List Char :=
  match text.dropWhile (· ≠ '.') with
  | [] => text
  | _ :: fraction =>
    if dropTrailingZeros fraction = [] then text.takeWhile (· ≠ '.')
    else text.takeWhile (· ≠ '.') ++ '.' :: dropTrailingZeros fraction

/-- Validate that a value is a decimal string; the valid value comes back in
normalized form. -/
def validateDecimalString (value : JsValue) (fieldName : Option String) :
    Except DecimalSerializationError (List Char) :=
  match value with
  | .null | .undefined =>
    .error ⟨.emptyValue, fieldLabel fieldName ++ " cannot be null or undefined",
      fieldName, value⟩
  | .string text =>
    if trim text = [] then
      .error ⟨.emptyValue, fieldLabel fieldName ++ " cannot be empty", fieldName, value⟩
    else if matchesDecimalPattern text = false then
      .error ⟨.invalidFormat, fieldLabel fieldName ++
        " must be a valid decimal string (e.g., \"100\", \"-50\", \"0.0000001\")",
        fieldName, value⟩
    else if DigitText.value (stripSign (text.takeWhile (· ≠ '.'))) >
        maxDecimalIntegerPart then
      .error ⟨.outOfRange, fieldLabel fieldName ++ " exceeds maximum supported value",
        fieldName, value⟩
    else .ok (normalizeDecimalString text)
  | _ =>
    .error ⟨.invalidType, fieldLabel fieldName ++ " must be a string, received " ++
      value.typeOf, fieldName, value⟩

/-- The guard every caller of the validator repeats: a failed validation is
thrown, and an empty valid value is thrown as missing. -/
def requireDecimalString (text : List Char) (fieldName : Option String) :
    Except DecimalSerializationError (List Char) := do
  let value ← validateDecimalString (.string text) fieldName
  if value = [] then
    throw ⟨.emptyValue, "Validation succeeded but value is missing", fieldName, .string text⟩
  return value

/-- Compare a decimal string against zero without converting it to a number. -/
def compareDecimalStringToZero (text : List Char) :
    Except DecimalSerializationError Ordering := do
  let normalized ← requireDecimalString text none
  let parts := (stripSign normalized).splitOn '.'
  let digits := parts.headD [] ++ (parts.tail.headD [])
  if digits.any (· ≠ '0') = false then return .eq
  if normalized.head? = some '-' then return .lt
  return .gt

/-! ## What a decimal text means -/

/-- The optional sign in front of a decimal. -/
inductive Sign
  | absent
  | plus
  | minus
  deriving DecidableEq, Repr

namespace Sign

def text : Sign → List Char
  | .absent => []
  | .plus => ['+']
  | .minus => ['-']

def factor : Sign → ℤ
  | .minus => -1
  | _ => 1

theorem factor_eq_ite (sign : Sign) : sign.factor = if sign = .minus then -1 else 1 := by
  cases sign <;> rfl

end Sign

/-- The decimal grammar: a sign, a nonempty integer part and a fraction, which
is empty when the text has no point. -/
structure DecimalLiteral where
  sign : Sign
  whole : List Char
  fraction : List Char
  whole_ne_nil : whole ≠ []
  whole_digits : IsDigits whole
  fraction_digits : IsDigits fraction

namespace DecimalLiteral

/-- The point and the fraction, or nothing. -/
def pointText (d : DecimalLiteral) : List Char :=
  if d.fraction = [] then [] else '.' :: d.fraction

def text (d : DecimalLiteral) : List Char := d.sign.text ++ d.whole ++ d.pointText

/-- The literal's digits without the point, as one natural number. -/
def mantissa (d : DecimalLiteral) : ℕ := DigitText.value (d.whole ++ d.fraction)

/-- The rational number the literal denotes. -/
def value (d : DecimalLiteral) : ℚ :=
  d.sign.factor * (d.mantissa / 10 ^ d.fraction.length)

/-- Dropping trailing zeros of the fraction. -/
def normalize (d : DecimalLiteral) : DecimalLiteral :=
  { d with
    fraction := dropTrailingZeros d.fraction
    fraction_digits := isDigits_dropTrailingZeros d.fraction_digits }

@[simp] theorem normalize_sign (d : DecimalLiteral) : d.normalize.sign = d.sign := rfl
@[simp] theorem normalize_whole (d : DecimalLiteral) : d.normalize.whole = d.whole := rfl
@[simp] theorem normalize_fraction (d : DecimalLiteral) :
    d.normalize.fraction = dropTrailingZeros d.fraction := rfl

theorem normalize_normalize (d : DecimalLiteral) : d.normalize.normalize = d.normalize := by
  simp only [normalize, dropTrailingZeros_idem]

theorem mantissa_eq (d : DecimalLiteral) :
    d.mantissa = DigitText.value d.whole * 10 ^ d.fraction.length +
      DigitText.value d.fraction :=
  value_append _ _

theorem value_normalize (d : DecimalLiteral) : d.normalize.value = d.value := by
  have hsplit := value_eq_dropTrailingZeros_mul d.fraction
  have hle := length_dropTrailingZeros_le d.fraction
  have hmantissa : d.mantissa = d.normalize.mantissa *
      10 ^ (d.fraction.length - (dropTrailingZeros d.fraction).length) := by
    rw [mantissa_eq, mantissa_eq, normalize_whole, normalize_fraction, add_mul, mul_assoc,
      ← pow_add, Nat.add_sub_cancel' hle, ← hsplit]
  have hlength : (10 : ℚ) ^ d.fraction.length =
      10 ^ (dropTrailingZeros d.fraction).length *
        10 ^ (d.fraction.length - (dropTrailingZeros d.fraction).length) := by
    rw [← pow_add, Nat.add_sub_cancel' hle]
  rw [value, value, hmantissa, hlength]
  push_cast
  rw [normalize_sign, normalize_fraction]
  field_simp

end DecimalLiteral

/-- The text is a decimal literal that denotes `q`. -/
def Denotes (text : List Char) (q : ℚ) : Prop :=
  ∃ d : DecimalLiteral, d.text = text ∧ d.value = q

/-! ## Reading a literal back from its text

Digits are none of the characters that delimit the parts of a literal, so each
scanning step of the source stops exactly at a part's border.
-/

theorem ne_point_of_isDigit {c : Char} (h : c.isDigit = true) : c ≠ '.' := by
  rintro rfl
  exact absurd h (by decide)

theorem stripSign_of_digit {c : Char} {rest : List Char} (h : c.isDigit = true) :
    stripSign (c :: rest) = c :: rest := by
  unfold stripSign
  split
  · rename_i heq
    cases heq
    exact absurd h (by decide)
  · rename_i heq
    cases heq
    exact absurd h (by decide)
  · rfl

theorem stripSign_append (sign : Sign) {whole : List Char} (hne : whole ≠ [])
    (hdigits : IsDigits whole) (tail : List Char) :
    stripSign (sign.text ++ (whole ++ tail)) = whole ++ tail := by
  cases sign with
  | absent =>
    obtain ⟨c, rest, rfl⟩ := List.exists_cons_of_ne_nil hne
    exact stripSign_of_digit (hdigits c List.mem_cons_self)
  | plus | minus => rfl

theorem exists_sign_append_stripSign (text : List Char) :
    ∃ sign : Sign, text = sign.text ++ stripSign text := by
  unfold stripSign
  split
  · exact ⟨.plus, rfl⟩
  · exact ⟨.minus, rfl⟩
  · exact ⟨.absent, rfl⟩

namespace DecimalLiteral

theorem text_eq (d : DecimalLiteral) :
    d.text = d.sign.text ++ (d.whole ++ d.pointText) := List.append_assoc _ _ _

theorem stripSign_text (d : DecimalLiteral) : stripSign d.text = d.whole ++ d.pointText := by
  rw [text_eq]
  exact stripSign_append d.sign d.whole_ne_nil d.whole_digits _

theorem stripSign_signed_whole (d : DecimalLiteral) :
    stripSign (d.sign.text ++ d.whole) = d.whole := by
  simpa using stripSign_append d.sign d.whole_ne_nil d.whole_digits []

theorem ne_point_of_mem (d : DecimalLiteral) :
    ∀ c ∈ d.sign.text ++ d.whole, decide (c ≠ '.') = true := by
  intro c hc
  rcases List.mem_append.mp hc with h | h
  · cases hsign : d.sign with
    | absent => simp [hsign, Sign.text] at h
    | plus | minus =>
      simp only [hsign, Sign.text, List.mem_singleton] at h
      subst h
      decide
  · simpa using ne_point_of_isDigit (d.whole_digits c h)

theorem takeWhile_pointText (d : DecimalLiteral) :
    d.pointText.takeWhile (· ≠ '.') = [] := by
  unfold pointText
  split
  · rfl
  · exact List.takeWhile_cons_of_neg (by decide)

theorem dropWhile_pointText (d : DecimalLiteral) :
    d.pointText.dropWhile (· ≠ '.') = d.pointText := by
  unfold pointText
  split
  · rfl
  · exact List.dropWhile_cons_of_neg (by decide)

theorem takeWhile_text (d : DecimalLiteral) :
    d.text.takeWhile (· ≠ '.') = d.sign.text ++ d.whole := by
  rw [text, List.takeWhile_append_of_pos d.ne_point_of_mem, takeWhile_pointText,
    List.append_nil]

theorem dropWhile_text (d : DecimalLiteral) :
    d.text.dropWhile (· ≠ '.') = d.pointText := by
  rw [text, List.dropWhile_append_of_pos d.ne_point_of_mem, dropWhile_pointText]

theorem normalizeDecimalString_text (d : DecimalLiteral) :
    normalizeDecimalString d.text = d.normalize.text := by
  unfold normalizeDecimalString
  rw [dropWhile_text, takeWhile_text]
  by_cases hfraction : d.fraction = []
  · simp [pointText, text, hfraction]
  · rw [pointText, if_neg hfraction]
    by_cases hkept : dropTrailingZeros d.fraction = []
    · simp [text, pointText, hkept]
    · simp [text, pointText, hkept]

theorem matchesDecimalPattern_text (d : DecimalLiteral) :
    matchesDecimalPattern d.text = true := by
  have hpoint : d.pointText.takeWhile Char.isDigit = [] ∧
      d.pointText.dropWhile Char.isDigit = d.pointText := by
    unfold pointText
    split
    · exact ⟨rfl, rfl⟩
    · exact ⟨List.takeWhile_cons_of_neg (by decide), List.dropWhile_cons_of_neg (by decide)⟩
  have htake : (d.whole ++ d.pointText).takeWhile Char.isDigit = d.whole := by
    rw [List.takeWhile_append_of_pos d.whole_digits, hpoint.1, List.append_nil]
  have hdrop : (d.whole ++ d.pointText).dropWhile Char.isDigit = d.pointText := by
    rw [List.dropWhile_append_of_pos d.whole_digits, hpoint.2]
  have hwhole : d.whole.isEmpty = false := by simpa using d.whole_ne_nil
  unfold matchesDecimalPattern
  simp only [stripSign_text, htake, hdrop]
  by_cases hfraction : d.fraction = []
  · simp [pointText, hfraction, hwhole]
  · have hall : d.fraction.all Char.isDigit = true := List.all_eq_true.mpr d.fraction_digits
    simp [pointText, hfraction, hwhole, hall]

theorem exists_of_matchesDecimalPattern {text : List Char}
    (h : matchesDecimalPattern text = true) : ∃ d : DecimalLiteral, d.text = text := by
  obtain ⟨sign, hsign⟩ := exists_sign_append_stripSign text
  have hsplit : (stripSign text).takeWhile Char.isDigit ++
      (stripSign text).dropWhile Char.isDigit = stripSign text :=
    List.takeWhile_append_dropWhile
  have hwhole : IsDigits ((stripSign text).takeWhile Char.isDigit) := fun c hc =>
    List.mem_takeWhile_imp hc
  unfold matchesDecimalPattern at h
  simp only at h
  split at h
  · rename_i hrest
    rw [hrest, List.append_nil] at hsplit
    refine ⟨⟨sign, _, [], by simpa using h, hwhole, isDigits_nil⟩, ?_⟩
    simp only [DecimalLiteral.text, pointText, if_true, List.append_nil]
    rw [hsplit, ← hsign]
  · rename_i fraction hrest
    simp only [Bool.and_eq_true, Bool.not_eq_true', List.isEmpty_eq_false_iff] at h
    obtain ⟨⟨hne, hfraction⟩, hall⟩ := h
    refine ⟨⟨sign, _, fraction, hne, hwhole, List.all_eq_true.mp hall⟩, ?_⟩
    simp only [DecimalLiteral.text, pointText, if_neg hfraction]
    rw [List.append_assoc, ← hrest, hsplit, ← hsign]
  · exact absurd h (by decide)

theorem text_injective : Function.Injective text := by
  intro d e h
  have hwhole : d.whole = e.whole := by
    have htake := congrArg (fun t => stripSign (t.takeWhile (· ≠ '.'))) h
    simpa only [takeWhile_text, stripSign_signed_whole] using htake
  have hpoint : d.pointText = e.pointText := by
    have hdrop := congrArg (fun t => t.dropWhile (· ≠ '.')) h
    simpa only [dropWhile_text] using hdrop
  have hfraction : d.fraction = e.fraction := by
    unfold pointText at hpoint
    split at hpoint <;> split at hpoint <;> simp_all
  have hsign : d.sign = e.sign := by
    rw [text_eq, text_eq, hwhole, hpoint] at h
    have hsigns := List.append_cancel_right h
    cases hd : d.sign <;> cases he : e.sign <;> simp_all [Sign.text]
  cases d
  cases e
  simp_all

theorem trim_text_ne_nil (d : DecimalLiteral) : trim d.text ≠ [] := by
  rw [text_eq]
  cases hsign : d.sign with
  | absent =>
    obtain ⟨c, rest, hwhole⟩ := List.exists_cons_of_ne_nil d.whole_ne_nil
    rw [hwhole]
    refine trim_ne_nil_of_head (not_whiteSpace_of_isDigit (d.whole_digits c ?_))
    rw [hwhole]
    exact List.mem_cons_self
  | plus | minus => exact trim_ne_nil_of_head (by decide)

theorem text_ne_nil (d : DecimalLiteral) : d.text ≠ [] := by
  intro hnil
  have := d.trim_text_ne_nil
  rw [hnil] at this
  exact this (by decide)

end DecimalLiteral

/-! ## The validator against the grammar -/

theorem validateDecimalString_eq_ok_iff {text out : List Char} {fieldName : Option String} :
    validateDecimalString (.string text) fieldName = .ok out ↔
      ∃ d : DecimalLiteral, d.text = text ∧
        DigitText.value d.whole ≤ maxDecimalIntegerPart ∧ d.normalize.text = out := by
  apply Iff.intro
  · intro h
    by_cases hmatch : matchesDecimalPattern text = true
    · obtain ⟨d, rfl⟩ := DecimalLiteral.exists_of_matchesDecimalPattern hmatch
      refine ⟨d, rfl, ?_⟩
      simp only [validateDecimalString, if_neg d.trim_text_ne_nil, hmatch, Bool.true_eq_false,
        if_false, d.takeWhile_text, d.stripSign_signed_whole,
        d.normalizeDecimalString_text] at h
      split at h
      · cases h
      · rename_i hrange
        cases h
        exact ⟨not_lt.mp hrange, rfl⟩
    · simp only [validateDecimalString] at h
      split at h
      · cases h
      · rw [if_pos (by simpa using hmatch)] at h
        cases h
  · rintro ⟨d, rfl, hrange, rfl⟩
    simp only [validateDecimalString, if_neg d.trim_text_ne_nil, d.matchesDecimalPattern_text,
      Bool.true_eq_false, if_false, d.takeWhile_text, d.stripSign_signed_whole,
      d.normalizeDecimalString_text, if_neg (not_lt.mpr hrange)]

theorem requireDecimalString_eq_ok_iff {text out : List Char} {fieldName : Option String} :
    requireDecimalString text fieldName = .ok out ↔
      ∃ d : DecimalLiteral, d.text = text ∧
        DigitText.value d.whole ≤ maxDecimalIntegerPart ∧ d.normalize.text = out := by
  rw [← @validateDecimalString_eq_ok_iff text out fieldName]
  cases hvalid : validateDecimalString (.string text) fieldName with
  | error => simp [requireDecimalString, hvalid, bind, Except.bind]
  | ok =>
    obtain ⟨d, -, -, rfl⟩ := validateDecimalString_eq_ok_iff.mp hvalid
    simp [requireDecimalString, hvalid, bind, Except.bind, d.normalize.text_ne_nil, pure,
      Except.pure]

/-! ## Comparing with zero -/

namespace DecimalLiteral

theorem head_text_eq_minus_iff (d : DecimalLiteral) :
    d.text.head? = some '-' ↔ d.sign = .minus := by
  rw [text_eq]
  cases hsign : d.sign with
  | absent =>
    obtain ⟨c, rest, hwhole⟩ := List.exists_cons_of_ne_nil d.whole_ne_nil
    have hdigit : c.isDigit = true := d.whole_digits c (by rw [hwhole]; exact List.mem_cons_self)
    rw [hwhole]
    simp only [Sign.text, List.nil_append, List.cons_append, List.head?_cons,
      Option.some.injEq, reduceCtorEq, iff_false]
    rintro rfl
    exact absurd hdigit (by decide)
  | plus | minus => simp [Sign.text]

end DecimalLiteral

end Fluxora.Serialization
