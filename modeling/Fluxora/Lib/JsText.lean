/-
# Texts as the source language sees them

Strings are lists of characters here. This module has the few operations of the
source language's standard library that the models need and that Lean does not
provide with the same meaning: trimming removes the white space and the line
terminators of the language standard, not only the ASCII blanks.
-/

import Mathlib.Data.List.Infix
import Fluxora.Lib.DigitText

namespace Fluxora.Lib.JsText

/-- The white space and line terminator code points that `trim` removes. -/
def isWhiteSpace (c : Char) : Bool :=
  (9 ≤ c.toNat && c.toNat ≤ 13) ||
    (0x2000 ≤ c.toNat && c.toNat ≤ 0x200A) ||
    [0x20, 0xA0, 0x1680, 0x2028, 0x2029, 0x202F, 0x205F, 0x3000, 0xFEFF].contains c.toNat

/-- `String.prototype.trim`. -/
def trim (text : List Char) : List Char :=
  (text.dropWhile isWhiteSpace).rdropWhile isWhiteSpace

variable {c : Char}

theorem trim_ne_nil_of_head {rest : List Char} (h : isWhiteSpace c = false) :
    trim (c :: rest) ≠ [] := by
  intro hnil
  rw [trim, List.dropWhile_cons_of_neg (by simp [h]), List.rdropWhile_eq_nil_iff] at hnil
  have := hnil c List.mem_cons_self
  simp [h] at this

theorem append_separator_inj {front front' back back' : List Char} (hback : c ∉ back)
    (hback' : c ∉ back') (h : front ++ c :: back = front' ++ c :: back') :
    front = front' ∧ back = back' := by
  rcases List.append_eq_append_iff.mp h with ⟨middle, hfront, hrest⟩ | ⟨middle, hfront, hrest⟩
  · cases middle with
    | nil =>
      rw [List.append_nil] at hfront
      exact ⟨hfront.symm, (List.cons_inj_right c).mp hrest⟩
    | cons =>
      rw [List.cons_append, List.cons.injEq] at hrest
      exact absurd (hrest.2 ▸ List.mem_append_right _ List.mem_cons_self) hback
  · cases middle with
    | nil =>
      rw [List.append_nil] at hfront
      exact ⟨hfront, ((List.cons_inj_right c).mp hrest).symm⟩
    | cons =>
      rw [List.cons_append, List.cons.injEq] at hrest
      exact absurd (hrest.2 ▸ List.mem_append_right _ List.mem_cons_self) hback'

theorem not_whiteSpace_of_isDigit (h : c.isDigit = true) : isWhiteSpace c = false := by
  simp only [Char.isDigit, ge_iff_le, Bool.and_eq_true, decide_eq_true_eq] at h
  have hlow : 48 ≤ c.toNat := h.1
  have hhigh : c.toNat ≤ 57 := h.2
  simp only [isWhiteSpace, List.contains_eq_mem, List.mem_cons, List.not_mem_nil, or_false,
    Bool.or_eq_false_iff, Bool.and_eq_false_iff, decide_eq_false_iff_not]
  omega

/-- The UTF-16 code units of a text, which is what `length`, `substring` and
`charCodeAt` count. -/
def codeUnits (text : List Char) : List ℕ :=
  text.flatMap fun c =>
    if c.toNat < 0x10000 then [c.toNat]
    else [0xD800 + (c.toNat - 0x10000) / 0x400, 0xDC00 + (c.toNat - 0x10000) % 0x400]

theorem length_codeUnits_le (text : List Char) :
    (codeUnits text).length ≤ 2 * text.length := by
  induction text with
  | nil => exact Nat.le_refl 0
  | cons c _ ih =>
    have hc : (if c.toNat < 0x10000 then [c.toNat]
        else [0xD800 + (c.toNat - 0x10000) / 0x400,
          0xDC00 + (c.toNat - 0x10000) % 0x400]).length ≤ 2 := by
      split_ifs <;> simp
    rw [codeUnits] at ih ⊢
    rw [List.flatMap_cons, List.length_append, List.length_cons]
    omega

/-- `String.prototype.includes`. -/
def includes (text pattern : String) : Bool := pattern.toList <:+: text.toList

/-- `Number.parseInt` in base ten, with `none` for NaN: leading blanks, a sign and
the longest run of digits. -/
def parseInt (text : List Char) : Option ℤ :=
  match text.dropWhile isWhiteSpace with
  | '-' :: rest => (digitRun rest).map fun n => -(n : ℤ)
  | '+' :: rest => (digitRun rest).map fun n => (n : ℤ)
  | rest => (digitRun rest).map fun n => (n : ℤ)
where
  digitRun (rest : List Char) : Option ℕ :=
    match rest.takeWhile Char.isDigit with
    | [] => none
    | digits => some (DigitText.value digits)

theorem parseInt_of_isDigits {digits : List Char} (hne : digits ≠ [])
    (h : DigitText.IsDigits digits) : parseInt digits = some (DigitText.value digits : ℤ) := by
  cases digits with
  | nil => exact absurd rfl hne
  | cons c rest =>
    have hc : c.isDigit = true := h c List.mem_cons_self
    have hrun : parseInt.digitRun (c :: rest) = some (DigitText.value (c :: rest)) := by
      rw [parseInt.digitRun, List.takeWhile_eq_self_iff.mpr h]
    rw [parseInt, List.dropWhile_cons_of_neg (by simp [not_whiteSpace_of_isDigit hc])]
    split
    · next hminus => exact absurd hc (by rw [List.head_eq_of_cons_eq hminus]; decide)
    · next hplus => exact absurd hc (by rw [List.head_eq_of_cons_eq hplus]; decide)
    · rw [hrun]
      rfl

theorem parseInt_toDigits (n : ℕ) : parseInt (Nat.toDigits 10 n) = some (n : ℤ) := by
  rw [parseInt_of_isDigits Nat.toDigits_ne_nil (DigitText.isDigits_toDigits n),
    DigitText.value_toDigits]

/-! ## Hexadecimal texts and percent encoding -/

/-- The value of a hexadecimal digit in either case. -/
def hexValue (c : Char) : Option ℕ :=
  if 48 ≤ c.toNat ∧ c.toNat ≤ 57 then some (c.toNat - 48)
  else if 97 ≤ c.toNat ∧ c.toNat ≤ 102 then some (c.toNat - 87)
  else if 65 ≤ c.toNat ∧ c.toNat ≤ 70 then some (c.toNat - 55)
  else none

/-- `Buffer.from(text, 'hex')`: pairs of digits, up to the first that is not one. -/
def hexBytes : List Char → List ℕ
  | high :: low :: rest =>
    match hexValue high, hexValue low with
    | some h, some l => (16 * h + l) :: hexBytes rest
    | _, _ => []
  | _ => []

/-- An escaped byte and what follows it. -/
def percentByte : List Char → Option (ℕ × List Char)
  | '%' :: high :: low :: rest =>
    match hexValue high, hexValue low with
    | some h, some l => some (16 * h + l, rest)
    | _, _ => none
  | _ => none

/-- The continuation bytes of a code point, read into its leading bits. -/
def continuationBytes : ℕ → ℕ → List Char → Option (ℕ × List Char)
  | 0, point, text => some (point, text)
  | n + 1, point, text =>
    match percentByte text with
    | some (byte, rest) =>
      if byte / 64 = 2 then continuationBytes n (64 * point + byte % 64) rest else none
    | none => none

/-- An escaped code point: the shortest form is the only one, and surrogates are none. -/
def percentChar (text : List Char) : Option (Char × List Char) :=
  match percentByte text with
  | none => none
  | some (byte, rest) =>
    if byte < 0x80 then some (Char.ofNat byte, rest)
    else
      let decoded :=
        if 0xC2 ≤ byte ∧ byte ≤ 0xDF then
          (continuationBytes 1 (byte % 32) rest).filter (0x80 ≤ ·.1)
        else if 0xE0 ≤ byte ∧ byte ≤ 0xEF then
          (continuationBytes 2 (byte % 16) rest).filter fun (point, _) =>
            0x800 ≤ point ∧ ¬ (0xD800 ≤ point ∧ point ≤ 0xDFFF)
        else if 0xF0 ≤ byte ∧ byte ≤ 0xF4 then
          (continuationBytes 3 (byte % 8) rest).filter fun (point, _) =>
            0x10000 ≤ point ∧ point ≤ 0x10FFFF
        else none
      decoded.map fun (point, rest) => (Char.ofNat point, rest)

/-- `decodeURIComponent`, with `none` for an error. Every character is looked at once, so
that the length of the text bounds the steps. -/
def decodeURIComponent (text : List Char) : Option (List Char) := go text.length text
where
  go : ℕ → List Char → Option (List Char)
    | _, [] => some []
    | 0, _ => none
    | n + 1, '%' :: rest =>
      (percentChar ('%' :: rest)).bind fun (c, rest) => (go n rest).map (c :: ·)
    | n + 1, c :: rest => (go n rest).map (c :: ·)

end Fluxora.Lib.JsText
