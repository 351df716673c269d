/-
# The decimal serializer

`serializeToDecimalString` turns strings, numbers and bigints into decimal strings on three
separate branches. The string branch goes through the validator. The other two return the value's
default text as it is: no range check on a bigint, and no check on an integer-valued number that
its text is in plain notation or names the same integer.

The module says exactly on which inputs the output is valid input again.
-/

import Fluxora.Serialization.Decimal

namespace Fluxora.Serialization

open Lib Lib.DigitText Lib.Binary64

/-- `BigInt.prototype.toString`. -/
def bigintText (n : ℤ) : List Char :=
  (if n < 0 then ['-'] else []) ++ Nat.toDigits 10 n.natAbs

/-- Serialize a value to a decimal string. -/
def serializeToDecimalString (value : JsValue) (fieldName : Option String) :
    Except DecimalSerializationError (List Char) :=
  match value with
  | .null | .undefined =>
    .error ⟨.emptyValue, fieldLabel fieldName ++ " cannot be null or undefined",
      fieldName, value⟩
  | .string text => requireDecimalString text fieldName
  | .number .nan | .number (.infinity _) =>
    .error ⟨.invalidFormat, fieldLabel fieldName ++ " must be a finite number",
      fieldName, value⟩
  | .number (.fractional text) =>
    -- only this branch looks for scientific notation
    if 'e' ∈ text then
      .error ⟨.precisionLoss, fieldLabel fieldName ++
        " would lose precision with floating point serialization", fieldName, value⟩
    else .ok text
  | .number (.integer n) => .ok n.toText
  | .bigint n => .ok (bigintText n)
  | .other _ =>
    .error ⟨.invalidType, fieldLabel fieldName ++ " must be a string, number, or BigInt",
      fieldName, value⟩

/-! ## The inputs under consideration -/

/-- Strings, integer-valued numbers and bigints. -/
inductive SerializerInput
  | string (text : List Char)
  | number (n : IntegerDouble)
  | bigint (n : ℤ)

namespace SerializerInput

def toValue : SerializerInput → JsValue
  | .string text => .string text
  | .number n => .number (.integer n)
  | .bigint n => .bigint n

/-- The number an input stands for. -/
def Represents : SerializerInput → ℚ → Prop
  | .string text, q => Denotes text q
  | .number n, q => q = n.val
  | .bigint n, q => q = n

/-- Whatever the serializer returns for the input is accepted by the validator,
denotes the input's value, and is returned unchanged when serialized again. -/
def OutputIsValidInput (input : SerializerInput) : Prop :=
  ∀ fieldName out, serializeToDecimalString input.toValue fieldName = .ok out →
    (∃ normalized, validateDecimalString (.string out) fieldName = .ok normalized) ∧
    (∃ q, input.Represents q ∧ Denotes out q) ∧
    serializeToDecimalString (.string out) fieldName = .ok out

/-- The integers the validator takes. -/
def InDecimalRange (n : ℤ) : Prop := n.natAbs ≤ maxDecimalIntegerPart

instance (n : ℤ) : Decidable (InDecimalRange n) :=
  inferInstanceAs (Decidable (n.natAbs ≤ maxDecimalIntegerPart))

/-- The condition under which the serializer keeps its promise. -/
def IsSafelySerialized : SerializerInput → Prop
  | .string _ => True
  | .number n => InDecimalRange n.val ∧ NoShorter n.val.natAbs
  | .bigint n => InDecimalRange n

end SerializerInput

/-! ## Integer texts -/

/-- The literal of an integer's plain text. -/
def integerLiteral (negative : Bool) (v : ℕ) : DecimalLiteral where
  sign := if negative then .minus else .absent
  whole := Nat.toDigits 10 v
  fraction := []
  whole_ne_nil := Nat.toDigits_ne_nil
  whole_digits := isDigits_toDigits v
  fraction_digits := isDigits_nil

variable (negative : Bool) (v : ℕ)

theorem integerLiteral_text :
    (integerLiteral negative v).text = (if negative then ['-'] else []) ++ Nat.toDigits 10 v := by
  cases negative <;>
    simp [integerLiteral, DecimalLiteral.text, DecimalLiteral.pointText, Sign.text]

theorem integerLiteral_value :
    (integerLiteral negative v).value = (if negative then -1 else 1) * (v : ℚ) := by
  have hmantissa : (integerLiteral negative v).mantissa = v := by
    simp [DecimalLiteral.mantissa, integerLiteral]
  rw [DecimalLiteral.value, hmantissa]
  cases negative <;> simp [integerLiteral, Sign.factor]

variable (n : ℤ)

theorem integerLiteral_value_natAbs : (integerLiteral (decide (n < 0)) n.natAbs).value = n := by
  rw [integerLiteral_value, ← Int.cast_natCast]
  by_cases hneg : n < 0
  · rw [if_pos (by simpa using hneg), show (n.natAbs : ℤ) = -n by omega]
    simp
  · rw [if_neg (by simpa using hneg), show (n.natAbs : ℤ) = n by omega]
    simp

theorem validate_integerText_iff (fieldName : Option String) :
    (∃ normalized, validateDecimalString
      (.string ((if negative then ['-'] else []) ++ Nat.toDigits 10 v)) fieldName =
        .ok normalized) ↔ v ≤ maxDecimalIntegerPart := by
  rw [← integerLiteral_text]
  simp only [validateDecimalString_eq_ok_iff]
  apply Iff.intro
  · rintro ⟨_, d, htext, hrange, -⟩
    rw [DecimalLiteral.text_injective htext] at hrange
    simpa [integerLiteral] using hrange
  · intro hrange
    exact ⟨_, integerLiteral negative v, rfl, by simpa [integerLiteral] using hrange, rfl⟩

theorem serialize_integerText {negative : Bool} {v : ℕ} (h : v ≤ maxDecimalIntegerPart)
    (fieldName : Option String) :
    serializeToDecimalString
      (.string ((if negative then ['-'] else []) ++ Nat.toDigits 10 v)) fieldName =
        .ok ((if negative then ['-'] else []) ++ Nat.toDigits 10 v) := by
  rw [← integerLiteral_text]
  refine requireDecimalString_eq_ok_iff.mpr
    ⟨integerLiteral negative v, rfl, by simpa [integerLiteral] using h, rfl⟩

theorem validate_error_of_mem_e {text : List Char} (h : 'e' ∈ text)
    (fieldName : Option String) :
    ¬ ∃ normalized, validateDecimalString (.string text) fieldName = .ok normalized := by
  rintro ⟨normalized, hvalid⟩
  obtain ⟨d, rfl, -, -⟩ := validateDecimalString_eq_ok_iff.mp hvalid
  have hdigit {c : Char} (hc : c.isDigit = true) : c ≠ 'e' := by
    rintro rfl
    exact absurd hc (by decide)
  rw [DecimalLiteral.text, List.mem_append, List.mem_append] at h
  rcases h with (hsign | hwhole) | hpoint
  · cases hs : d.sign <;> simp [hs, Sign.text] at hsign
  · exact hdigit (d.whole_digits _ hwhole) rfl
  · unfold DecimalLiteral.pointText at hpoint
    split at hpoint
    · exact List.not_mem_nil hpoint
    · rcases List.mem_cons.mp hpoint with habsurd | hfraction
      · exact absurd habsurd (by decide)
      · exact hdigit (d.fraction_digits _ hfraction) rfl

/-! ## The three branches -/

theorem outputIsValidInput_string (text : List Char) :
    (SerializerInput.string text).OutputIsValidInput := by
  intro fieldName out h
  obtain ⟨d, rfl, hrange, rfl⟩ := requireDecimalString_eq_ok_iff.mp h
  refine ⟨⟨_, validateDecimalString_eq_ok_iff.mpr ⟨d.normalize, rfl, hrange, rfl⟩⟩,
    ⟨d.value, ⟨d, rfl, rfl⟩, d.normalize, rfl, d.value_normalize⟩, ?_⟩
  exact requireDecimalString_eq_ok_iff.mpr
    ⟨d.normalize, rfl, hrange, by rw [d.normalize_normalize]⟩

theorem denotes_integerText_iff (q : ℚ) :
    Denotes ((if negative then ['-'] else []) ++ Nat.toDigits 10 v) q ↔
      (if negative then -1 else 1) * (v : ℚ) = q := by
  rw [← integerLiteral_text, ← integerLiteral_value]
  apply Iff.intro
  · rintro ⟨d, htext, rfl⟩
    rw [DecimalLiteral.text_injective htext]
  · exact fun h => ⟨_, rfl, h⟩

theorem outputIsValidInput_bigint_iff :
    (SerializerInput.bigint n).OutputIsValidInput ↔ SerializerInput.InDecimalRange n := by
  have htext : bigintText n =
      (if decide (n < 0) then ['-'] else []) ++ Nat.toDigits 10 n.natAbs := by
    simp [bigintText]
  apply Iff.intro
  · intro h
    obtain ⟨hvalid, -, -⟩ := h none _ rfl
    rw [htext, validate_integerText_iff] at hvalid
    exact hvalid
  · intro hrange fieldName out h
    obtain rfl : bigintText n = out := Except.ok.inj h
    refine ⟨?_, ⟨n, rfl, ?_⟩, ?_⟩
    · rw [htext, validate_integerText_iff]
      exact hrange
    · rw [htext, denotes_integerText_iff, ← integerLiteral_value]
      exact integerLiteral_value_natAbs n
    · rw [htext]
      exact serialize_integerText hrange fieldName

theorem signed_natAbs_eq_iff (v : ℕ) :
    (if decide (n < 0) then -1 else 1) * (v : ℚ) = n ↔ v = n.natAbs := by
  have hne : (if decide (n < 0) then -1 else 1 : ℚ) ≠ 0 := by
    split <;> norm_num
  conv_lhs => rw [← integerLiteral_value_natAbs n, integerLiteral_value]
  rw [mul_right_inj' hne, Nat.cast_inj]

theorem outputIsValidInput_number_iff (n : IntegerDouble) :
    (SerializerInput.number n).OutputIsValidInput ↔
      SerializerInput.InDecimalRange n.val ∧ NoShorter n.val.natAbs := by
  rw [← shortestDecimal_eq_self_iff n.representable]
  have hplain (hlen : (Nat.toDigits 10 (shortestDecimal n.val.natAbs)).length ≤ 21) :
      n.toText = (if decide (n.val < 0) then ['-'] else []) ++
        Nat.toDigits 10 (shortestDecimal n.val.natAbs) := by
    simp [IntegerDouble.toText, naturalText, hlen]
  apply Iff.intro
  · intro h
    obtain ⟨hvalid, ⟨q, rfl, hdenotes⟩, -⟩ := h none _ rfl
    by_cases hlen : (Nat.toDigits 10 (shortestDecimal n.val.natAbs)).length ≤ 21
    · rw [hplain hlen, validate_integerText_iff] at hvalid
      rw [hplain hlen, denotes_integerText_iff, signed_natAbs_eq_iff] at hdenotes
      exact ⟨by rwa [hdenotes] at hvalid, hdenotes⟩
    · refine absurd hvalid (validate_error_of_mem_e ?_ none)
      simp only [IntegerDouble.toText, naturalText, if_neg hlen, List.mem_append]
      exact Or.inr (e_mem_exponentialText _)
  · rintro ⟨hrange, hself⟩ fieldName out h
    obtain rfl : n.toText = out := Except.ok.inj h
    have hlen : (Nat.toDigits 10 (shortestDecimal n.val.natAbs)).length ≤ 21 := by
      rw [hself]
      exact length_toDigits_le (by decide) (lt_of_le_of_lt hrange (by decide))
    rw [hplain hlen, hself]
    refine ⟨?_, ⟨n.val, rfl, ?_⟩, serialize_integerText hrange fieldName⟩
    · rw [validate_integerText_iff]
      exact hrange
    · rw [denotes_integerText_iff, signed_natAbs_eq_iff]

/-- The serializer's output is valid input for the input's value exactly on the
strings, on the bigints in the validator's range, and on the integer-valued
numbers in that range that are their own shortest decimal. -/
theorem serializer_output_valid_iff (input : SerializerInput) :
    input.OutputIsValidInput ↔ input.IsSafelySerialized := by
  cases input with
  | string text => exact iff_of_true (outputIsValidInput_string text) trivial
  | number n => exact outputIsValidInput_number_iff n
  | bigint n => exact outputIsValidInput_bigint_iff n

/-- One above the int64 range a bigint still serializes, and the validator
rejects the text; 2^60 serializes to another integer. -/
theorem serializer_output_rejected :
    serializeToDecimalString (.bigint 9223372036854775808) none =
        .ok "9223372036854775808".toList ∧
      (∀ normalized, validateDecimalString (.string "9223372036854775808".toList) none ≠
        .ok normalized) ∧
      ¬ (SerializerInput.bigint 9223372036854775808).OutputIsValidInput ∧
      serializeToDecimalString (.number (.integer ⟨2 ^ 60, by decide, by decide⟩)) none =
        .ok "1152921504606847000".toList ∧
      ¬ (SerializerInput.number ⟨2 ^ 60, by decide, by decide⟩).OutputIsValidInput := by
  refine ⟨rfl, fun normalized h => ?_, fun h => ?_, rfl, fun h => ?_⟩
  · exact absurd ((validate_integerText_iff false 9223372036854775808 none).mp ⟨_, h⟩) (by decide)
  · exact absurd ((outputIsValidInput_bigint_iff _).mp h) (by decide)
  · have hexact := (shortestDecimal_eq_self_iff (by decide)).mpr
      ((outputIsValidInput_number_iff _).mp h).2
    exact absurd hexact (by decide)

end Fluxora.Serialization
