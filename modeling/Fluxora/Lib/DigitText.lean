/-
# Decimal digit texts

A digit text is a list of ASCII digits read as a natural number in base ten.

Texts are lists of characters, so that slicing a string is taking and dropping.
-/

import Mathlib.Data.List.DropRight
import Mathlib.Tactic.Ring
import Mathlib.Tactic.Linarith

namespace Fluxora.Lib.DigitText

/-- Every character of the text is an ASCII digit. -/
def IsDigits (text : List Char) : Prop := ∀ c ∈ text, c.isDigit = true

/-- The natural number a digit text denotes; the empty text denotes zero. -/
def value (text : List Char) : ℕ := Nat.ofDigitChars 10 text 0

@[simp]
theorem value_nil : value [] = 0 := rfl

theorem value_append (front back : List Char) :
    value (front ++ back) = value front * 10 ^ back.length + value back := by
  rw [value, Nat.ofDigitChars_append, Nat.ofDigitChars_eq_ofDigitChars_zero]
  rw [Nat.mul_comm]
  rfl

@[simp]
theorem value_toDigits (n : ℕ) : value (Nat.toDigits 10 n) = n :=
  Nat.ofDigitChars_ten_toDigits

@[simp]
theorem value_replicate_zero (n : ℕ) : value (List.replicate n '0') = 0 := by
  simp [value]

theorem isDigits_toDigits (n : ℕ) : IsDigits (Nat.toDigits 10 n) := fun _ hc =>
  Nat.isDigit_of_mem_toDigits (by decide) (by decide) hc

variable {n width : ℕ}

theorem isDigit_of_mem_toString {c : Char} (hmem : c ∈ (toString n).toList) : c.isDigit = true := by
  rw [Nat.toString_eq_repr, Nat.repr, String.toList_ofList] at hmem
  exact isDigits_toDigits n c hmem

theorem toString_nat_inj {m : ℕ} (h : toString m = toString n) : m = n := by
  rw [Nat.toString_eq_repr, Nat.toString_eq_repr, Nat.repr, Nat.repr] at h
  have hdigits : Nat.toDigits 10 m = Nat.toDigits 10 n := String.ofList_inj.mp h
  rw [← value_toDigits m, hdigits, value_toDigits]

theorem isDigits_nil : IsDigits [] := fun _ h => absurd h List.not_mem_nil

theorem IsDigits.append {front back : List Char} (hfront : IsDigits front)
    (hback : IsDigits back) : IsDigits (front ++ back) := by
  intro c hc
  rcases List.mem_append.mp hc with h | h
  · exact hfront c h
  · exact hback c h

theorem IsDigits.of_append_left {front back : List Char} (h : IsDigits (front ++ back)) :
    IsDigits front := fun c hc => h c (List.mem_append_left _ hc)

theorem isDigits_replicate_zero (n : ℕ) : IsDigits (List.replicate n '0') := by
  intro c hc
  rw [(List.mem_replicate.mp hc).2]
  rfl

theorem digit_lt_ten {c : Char} (h : c.isDigit = true) : c.toNat - '0'.toNat < 10 := by
  simp only [Char.isDigit, ge_iff_le, Bool.and_eq_true, decide_eq_true_eq] at h
  obtain ⟨_, hhigh⟩ := h
  have : c.toNat ≤ 57 := hhigh
  have : '0'.toNat = 48 := rfl
  omega

variable (text : List Char)

theorem value_lt (h : IsDigits text) : value text < 10 ^ text.length := by
  induction text using List.reverseRecOn with
  | nil => simp
  | append_singleton _ c ih =>
    have hfront := ih h.of_append_left
    have hlast : value [c] < 10 := by
      simpa [value, Nat.ofDigitChars_cons] using
        digit_lt_ten (h c (List.mem_append_right _ (List.mem_singleton_self c)))
    rw [value_append]
    simp only [List.length_append, List.length_singleton, pow_succ, pow_zero, one_mul]
    nlinarith

/-! ## Dropping trailing zeros

Decimal codecs drop zeros on the right of a fraction. What is kept is a prefix
of the text, the rest is a run of zeros, and dropping twice changes nothing.
-/

/-- The text without its trailing zeros. -/
def dropTrailingZeros (text : List Char) : List Char := text.rdropWhile (· = '0')

@[simp]
theorem dropTrailingZeros_nil : dropTrailingZeros [] = [] := rfl

theorem dropTrailingZeros_append_replicate :
    ∃ n, text = dropTrailingZeros text ++ List.replicate n '0' := by
  refine ⟨(text.rtakeWhile (· = '0')).length, ?_⟩
  have hzeros : List.replicate (text.rtakeWhile (· = '0')).length '0' =
      text.rtakeWhile (· = '0') := by
    refine (List.eq_replicate_of_mem fun c hc => ?_).symm
    simpa using List.mem_rtakeWhile_imp hc
  rw [hzeros]
  exact List.rdropWhile_append_rtakeWhile.symm

theorem dropTrailingZeros_idem :
    dropTrailingZeros (dropTrailingZeros text) = dropTrailingZeros text :=
  List.rdropWhile_idempotent _ _

theorem isDigits_dropTrailingZeros {text : List Char} (h : IsDigits text) :
    IsDigits (dropTrailingZeros text) := by
  obtain ⟨n, hn⟩ := dropTrailingZeros_append_replicate text
  rw [hn] at h
  exact h.of_append_left

theorem value_eq_dropTrailingZeros_mul :
    value text = value (dropTrailingZeros text) *
      10 ^ (text.length - (dropTrailingZeros text).length) := by
  obtain ⟨n, hn⟩ := dropTrailingZeros_append_replicate text
  have hlength := congrArg List.length hn
  rw [List.length_append, List.length_replicate] at hlength
  have hpow : text.length - (dropTrailingZeros text).length = n := by omega
  rw [hpow]
  conv_lhs => rw [hn, value_append]
  simp

theorem length_dropTrailingZeros_le : (dropTrailingZeros text).length ≤ text.length :=
  (List.rdropWhile_prefix _ text).length_le

/-! ## Padding -/

/-- Pad on the left with zeros up to a width, as `String.prototype.padStart`. -/
def padStart (width : ℕ) (text : List Char) : List Char :=
  List.replicate (width - text.length) '0' ++ text

/-- Pad on the right with zeros up to a width, as `String.prototype.padEnd`. -/
def padEnd (width : ℕ) (text : List Char) : List Char :=
  text ++ List.replicate (width - text.length) '0'

@[simp]
theorem value_padStart (width : ℕ) (text : List Char) :
    value (padStart width text) = value text := by
  simp [padStart, value_append]

theorem value_padEnd (width : ℕ) (text : List Char) :
    value (padEnd width text) = value text * 10 ^ (width - text.length) := by
  simp [padEnd, value_append]

theorem length_padStart {text : List Char} (h : text.length ≤ width) :
    (padStart width text).length = width := by
  simp only [padStart, List.length_append, List.length_replicate]
  omega

theorem isDigits_padStart {text : List Char} (h : IsDigits text) : IsDigits (padStart width text) :=
  (isDigits_replicate_zero _).append h

theorem length_toDigits_le (hwidth : 0 < width) (h : n < 10 ^ width) :
    (Nat.toDigits 10 n).length ≤ width :=
  (Nat.length_toDigits_le_iff (by decide) hwidth).mpr h

end Fluxora.Lib.DigitText
