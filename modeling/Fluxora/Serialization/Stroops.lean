/-
# Amounts as stroops

A stroop is the seventh decimal place of an amount. `parseToStroops` turns a decimal string into
an exact integer number of stroops and `formatFromStroops` prints such an integer.
-/

import Fluxora.Serialization.Decimal

namespace Fluxora.Serialization

open Lib Lib.DigitText

/-- Stellar precision (7 decimal places). -/
def stellarDecimals : ℕ := 7

def stroopsPerUnit : ℕ := 10000000

/-- Parse a decimal string to stroops. -/
def parseToStroops (text : List Char) : Except DecimalSerializationError ℤ := do
  let validated ← requireDecimalString text none
  let parts := validated.splitOn '.'
  let integerPart := if parts.headD [] = [] then ['0'] else parts.headD []
  let decimalPart := parts.tail.headD []
  if decimalPart.length > stellarDecimals then
    throw ⟨.precisionExceeded,
      "Value exceeds maximum Stellar precision of 7 decimal places", none, .string text⟩
  let sign : ℤ := if integerPart.head? = some '-' then -1 else 1
  return sign * (DigitText.value (stripSign integerPart) * stroopsPerUnit +
    DigitText.value (padEnd stellarDecimals decimalPart) : ℕ)

/-- Format stroops back to a decimal string. -/
def formatFromStroops (stroops : ℤ) : List Char :=
  let sign := if stroops < 0 then ['-'] else []
  let integerPart := stroops.natAbs / stroopsPerUnit
  let decimalPart := stroops.natAbs % stroopsPerUnit
  let trimmed := dropTrailingZeros (padStart stellarDecimals (Nat.toDigits 10 decimalPart))
  if trimmed = [] then sign ++ Nat.toDigits 10 integerPart
  else sign ++ Nat.toDigits 10 integerPart ++ '.' :: trimmed

/-- The largest number of stroops an accepted amount can have. -/
def maxStroops : ℕ := maxDecimalIntegerPart * stroopsPerUnit + (stroopsPerUnit - 1)

namespace DecimalLiteral

/-- The number of stroops of a literal with at most seven fractional digits. -/
def stroops (d : DecimalLiteral) : ℤ :=
  d.sign.factor * (d.mantissa * 10 ^ (stellarDecimals - d.fraction.length) : ℕ)

theorem splitOn_text (d : DecimalLiteral) :
    let parts := d.text.splitOn '.'
    parts.headD [] = d.sign.text ++ d.whole ∧ parts.tail.headD [] = d.fraction := by
  have hfront : '.' ∉ d.sign.text ++ d.whole := fun h => by
    simpa using d.ne_point_of_mem _ h
  have hfraction : '.' ∉ d.fraction := fun h => ne_point_of_isDigit (d.fraction_digits _ h) rfl
  by_cases hnil : d.fraction = []
  · simp [text, pointText, hnil, List.splitOn_eq_singleton hfront]
  · rw [text, pointText, if_neg hnil, List.splitOn_append_cons_self,
      List.splitOn_eq_singleton hfront, List.splitOn_eq_singleton hfraction]
    exact ⟨rfl, rfl⟩

variable (d : DecimalLiteral)

theorem signed_whole_ne_nil : d.sign.text ++ d.whole ≠ [] := by
  simp [d.whole_ne_nil]

theorem head_signed_whole_eq_minus_iff :
    (d.sign.text ++ d.whole).head? = some '-' ↔ d.sign = .minus := by
  rw [← d.head_text_eq_minus_iff, text, List.head?_append_of_ne_nil _ d.signed_whole_ne_nil]

theorem stroops_eq (h : d.fraction.length ≤ stellarDecimals) :
    (d.stroops : ℚ) = d.value * 10 ^ stellarDecimals := by
  have hpow : (10 : ℚ) ^ stellarDecimals =
      10 ^ d.fraction.length * 10 ^ (stellarDecimals - d.fraction.length) := by
    rw [← pow_add, Nat.add_sub_cancel' h]
  rw [stroops, value, hpow]
  push_cast
  field_simp

theorem value_padEnd_fraction (h : d.fraction.length ≤ stellarDecimals) :
    DigitText.value d.whole * stroopsPerUnit +
        DigitText.value (padEnd stellarDecimals d.fraction) =
      d.mantissa * 10 ^ (stellarDecimals - d.fraction.length) := by
  have hunit : stroopsPerUnit =
      10 ^ d.fraction.length * 10 ^ (stellarDecimals - d.fraction.length) := by
    rw [← pow_add, Nat.add_sub_cancel' h]
    rfl
  rw [value_padEnd, mantissa_eq, hunit]
  ring

end DecimalLiteral

/-! ## What the parser accepts and returns -/

/-- The parser succeeds exactly on the literals in range whose normalized
fraction has at most seven digits, and returns their stroops. -/
theorem parseToStroops_eq_ok_iff {text : List Char} {s : ℤ} :
    parseToStroops text = .ok s ↔
      ∃ d : DecimalLiteral, d.text = text ∧
        DigitText.value d.whole ≤ maxDecimalIntegerPart ∧
        d.normalize.fraction.length ≤ stellarDecimals ∧ d.normalize.stroops = s := by
  have hparse (d : DecimalLiteral) (hrange : DigitText.value d.whole ≤ maxDecimalIntegerPart) :
      parseToStroops d.text =
        if d.normalize.fraction.length > stellarDecimals then
          .error ⟨.precisionExceeded,
            "Value exceeds maximum Stellar precision of 7 decimal places", none, .string d.text⟩
        else .ok d.normalize.stroops := by
    have hrequire : requireDecimalString d.text none = .ok d.normalize.text :=
      requireDecimalString_eq_ok_iff.mpr ⟨d, rfl, hrange, rfl⟩
    obtain ⟨hhead, htail⟩ := d.normalize.splitOn_text
    simp only [parseToStroops, hrequire, bind, Except.bind, hhead, htail,
      if_neg d.normalize.signed_whole_ne_nil, d.normalize.head_signed_whole_eq_minus_iff,
      d.normalize.stripSign_signed_whole]
    split
    · rfl
    · rename_i hprec
      rw [d.normalize.value_padEnd_fraction (not_lt.mp hprec), DecimalLiteral.stroops,
        Sign.factor_eq_ite]
      rfl
  apply Iff.intro
  · intro h
    cases hrequire : requireDecimalString text none with
    | error => simp [parseToStroops, hrequire, bind, Except.bind] at h
    | ok =>
      obtain ⟨d, rfl, hrange, -⟩ := requireDecimalString_eq_ok_iff.mp hrequire
      rw [hparse d hrange] at h
      split at h
      · cases h
      · rename_i hprec
        exact ⟨d, rfl, hrange, not_lt.mp hprec, Except.ok.inj h⟩
  · rintro ⟨d, rfl, hrange, hprec, rfl⟩
    rw [hparse d hrange, if_neg (not_lt.mpr hprec)]

theorem natAbs_stroops_le (d : DecimalLiteral)
    (hrange : DigitText.value d.whole ≤ maxDecimalIntegerPart)
    (hprec : d.fraction.length ≤ stellarDecimals) : d.stroops.natAbs ≤ maxStroops := by
  have hfactor : d.sign.factor.natAbs = 1 := by cases d.sign <;> rfl
  have hfraction : DigitText.value (padEnd stellarDecimals d.fraction) ≤ stroopsPerUnit - 1 := by
    have hlt := value_lt d.fraction d.fraction_digits
    have hpow : 10 ^ d.fraction.length * 10 ^ (stellarDecimals - d.fraction.length) =
        stroopsPerUnit := by
      rw [← pow_add, Nat.add_sub_cancel' hprec]
      rfl
    have hscaled := (Nat.mul_lt_mul_right
      (show 0 < 10 ^ (stellarDecimals - d.fraction.length) by positivity)).mpr hlt
    rw [hpow] at hscaled
    rw [value_padEnd]
    omega
  rw [DecimalLiteral.stroops, Int.natAbs_mul, hfactor, one_mul, Int.natAbs_natCast,
    ← d.value_padEnd_fraction hprec]
  exact Nat.add_le_add (Nat.mul_le_mul_right _ hrange) hfraction

/-! ## The printed literal -/

/-- The literal `formatFromStroops` prints. -/
def stroopsLiteral (s : ℤ) : DecimalLiteral where
  sign := if s < 0 then .minus else .absent
  whole := Nat.toDigits 10 (s.natAbs / stroopsPerUnit)
  fraction := dropTrailingZeros
    (padStart stellarDecimals (Nat.toDigits 10 (s.natAbs % stroopsPerUnit)))
  whole_ne_nil := Nat.toDigits_ne_nil
  whole_digits := isDigits_toDigits _
  fraction_digits := isDigits_dropTrailingZeros (isDigits_padStart (isDigits_toDigits _))

variable (s : ℤ)

theorem formatFromStroops_eq_text : formatFromStroops s = (stroopsLiteral s).text := by
  have hsign : (stroopsLiteral s).sign.text = if s < 0 then ['-'] else [] := by
    by_cases hneg : s < 0
    · simp only [stroopsLiteral, if_pos hneg, Sign.text]
    · simp only [stroopsLiteral, if_neg hneg, Sign.text]
  rw [DecimalLiteral.text, hsign, DecimalLiteral.pointText]
  by_cases htrim : (stroopsLiteral s).fraction = []
  · rw [if_pos htrim, List.append_nil]
    exact if_pos htrim
  · rw [if_neg htrim]
    exact if_neg htrim

theorem stroopsLiteral_normalize : (stroopsLiteral s).normalize = stroopsLiteral s := by
  simp only [DecimalLiteral.normalize, stroopsLiteral, dropTrailingZeros_idem]

theorem length_padded_remainder :
    (padStart stellarDecimals (Nat.toDigits 10 (s.natAbs % stroopsPerUnit))).length =
      stellarDecimals :=
  length_padStart (length_toDigits_le (by decide) (Nat.mod_lt _ (by decide)))

theorem stroopsLiteral_fraction_length_le : (stroopsLiteral s).fraction.length ≤ stellarDecimals :=
  (length_dropTrailingZeros_le _).trans (length_padded_remainder s).le

theorem stroops_stroopsLiteral : (stroopsLiteral s).stroops = s := by
  have hvalue := value_eq_dropTrailingZeros_mul
    (padStart stellarDecimals (Nat.toDigits 10 (s.natAbs % stroopsPerUnit)))
  rw [value_padStart, value_toDigits, length_padded_remainder] at hvalue
  have habs : (stroopsLiteral s).mantissa *
      10 ^ (stellarDecimals - (stroopsLiteral s).fraction.length) = s.natAbs := by
    rw [← (stroopsLiteral s).value_padEnd_fraction (stroopsLiteral_fraction_length_le s),
      value_padEnd]
    change DigitText.value (Nat.toDigits 10 (s.natAbs / stroopsPerUnit)) * stroopsPerUnit +
      DigitText.value (dropTrailingZeros _) * 10 ^ (stellarDecimals - _) = s.natAbs
    rw [value_toDigits]
    exact (congrArg _ hvalue.symm).trans (Nat.div_add_mod' _ _)
  rw [DecimalLiteral.stroops, habs]
  by_cases hneg : s < 0
  · simp only [stroopsLiteral, if_pos hneg, Sign.factor]
    omega
  · simp only [stroopsLiteral, if_neg hneg, Sign.factor]
    omega

theorem parseToStroops_formatFromStroops {s : ℤ} (h : s.natAbs ≤ maxStroops) :
    parseToStroops (formatFromStroops s) = .ok s := by
  refine parseToStroops_eq_ok_iff.mpr ⟨stroopsLiteral s, (formatFromStroops_eq_text s).symm, ?_⟩
  rw [stroopsLiteral_normalize]
  refine ⟨?_, stroopsLiteral_fraction_length_le s, stroops_stroopsLiteral s⟩
  change DigitText.value (Nat.toDigits 10 (s.natAbs / stroopsPerUnit)) ≤ maxDecimalIntegerPart
  rw [value_toDigits]
  exact Nat.lt_succ_iff.mp ((Nat.div_lt_iff_lt_mul (by decide)).mpr (by
    simp only [maxStroops, stroopsPerUnit] at h ⊢
    omega))

/-- The amount codec. Parsing succeeds exactly on the grammar's texts in range
with at most seven significant fractional digits, it is exact, printing is a
right inverse on the whole range it can produce, and printing what was parsed is
canonical and denotes the same number. -/
theorem amount_codec :
    (∀ text, (∃ s, parseToStroops text = .ok s) ↔
      ∃ d : DecimalLiteral, d.text = text ∧
        DigitText.value d.whole ≤ maxDecimalIntegerPart ∧
        (dropTrailingZeros d.fraction).length ≤ stellarDecimals) ∧
    (∀ (d : DecimalLiteral) s, parseToStroops d.text = .ok s →
      (s : ℚ) = d.value * 10 ^ stellarDecimals) ∧
    (∀ s : ℤ, (∃ text, parseToStroops text = .ok s) ↔ s.natAbs ≤ maxStroops) ∧
    (∀ s : ℤ, s.natAbs ≤ maxStroops → parseToStroops (formatFromStroops s) = .ok s) ∧
    (∀ (d : DecimalLiteral) s, parseToStroops d.text = .ok s →
      normalizeDecimalString (formatFromStroops s) = formatFromStroops s ∧
        Denotes (formatFromStroops s) d.value) := by
  have hexact (d : DecimalLiteral) (s : ℤ) (h : parseToStroops d.text = .ok s) :
      (s : ℚ) = d.value * 10 ^ stellarDecimals := by
    obtain ⟨d', htext, -, hprec, rfl⟩ := parseToStroops_eq_ok_iff.mp h
    rw [d'.normalize.stroops_eq hprec, d'.value_normalize, DecimalLiteral.text_injective htext]
  refine ⟨fun text => ?_, hexact, fun s => ?_, fun s => parseToStroops_formatFromStroops,
    fun d s h => ?_⟩
  · apply Iff.intro
    · rintro ⟨s, h⟩
      obtain ⟨d, htext, hrange, hprec, -⟩ := parseToStroops_eq_ok_iff.mp h
      exact ⟨d, htext, hrange, hprec⟩
    · rintro ⟨d, htext, hrange, hprec⟩
      exact ⟨_, parseToStroops_eq_ok_iff.mpr ⟨d, htext, hrange, hprec, rfl⟩⟩
  · apply Iff.intro
    · rintro ⟨text, h⟩
      obtain ⟨d, -, hrange, hprec, rfl⟩ := parseToStroops_eq_ok_iff.mp h
      exact natAbs_stroops_le d.normalize hrange hprec
    · exact fun h => ⟨_, parseToStroops_formatFromStroops h⟩
  · rw [formatFromStroops_eq_text, DecimalLiteral.normalizeDecimalString_text,
      stroopsLiteral_normalize]
    refine ⟨rfl, stroopsLiteral s, rfl, ?_⟩
    have hscaled := (stroopsLiteral s).stroops_eq (stroopsLiteral_fraction_length_le s)
    rw [stroops_stroopsLiteral, hexact d s h] at hscaled
    exact (mul_right_cancel₀ (by positivity) hscaled).symm

end Fluxora.Serialization
