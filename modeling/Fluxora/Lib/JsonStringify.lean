/-
# Printing JSON values

`JSON.stringify` without indentation. A number prints as the decimal with the fewest
significant digits that rounds to the same double; here a double is its exact value.

What is printed has no control characters, whatever is in the texts of the value.
-/

import Mathlib.Data.Int.Log
import Mathlib.Data.Rat.Floor
import Fluxora.Lib.Json
import Fluxora.Lib.JsonText

namespace Fluxora.Lib.JsonStringify

open DigitText JsonText

/-! ## Numbers -/

/-- Round to an integer, ties to the even one. -/
def roundHalfEven (q : ℚ) : ℤ :=
  if Int.fract q < 1 / 2 ∨ (Int.fract q = 1 / 2 ∧ ⌊q⌋ % 2 = 0) then ⌊q⌋ else ⌊q⌋ + 1

/-- The double nearest to a positive number. -/
def roundToDouble (q : ℚ) : ℚ :=
  let unit : ℚ := 2 ^ max (Int.log 2 q - 52) (-1074)
  roundHalfEven (q / unit) * unit

/-- Of the two decimals with `k` digits next to a positive double those that round to it,
the nearer one first. -/
def decimals (q : ℚ) (k : ℕ) : List ℕ :=
  let unit : ℚ := 10 ^ (Int.log 10 q + 1 - k)
  let lower := ⌊q / unit⌋.toNat
  let upperFirst := 1 / 2 < Int.fract (q / unit) ∨
    (Int.fract (q / unit) = 1 / 2 ∧ lower % 2 = 1)
  (if upperFirst then [lower + 1, lower] else [lower, lower + 1]).filter fun s =>
    roundToDouble (s * unit) = q

/-- The digits of the shortest decimal of a positive double, and the position of its
point. Seventeen digits are always enough. -/
def shortestDecimal (q : ℚ) : List Char × ℤ :=
  match ((List.range 17).map (· + 1)).find? (decimals q · ≠ []) with
  | some k =>
    let digits := Nat.toDigits 10 ((decimals q k).headD 0)
    (dropTrailingZeros digits, Int.log 10 q + 1 + (digits.length - k))
  | none => ([], 0)

/-- The exponent with its sign. -/
def exponentText (e : ℤ) : List Char :=
  'e' :: (if 0 ≤ e then '+' else '-') :: Nat.toDigits 10 e.natAbs

/-- The text of a positive number with the given digits and position of the point. -/
def positiveText (digits : List Char) (n : ℤ) : List Char :=
  if digits.length ≤ n ∧ n ≤ 21 then
    digits ++ List.replicate (n - digits.length).toNat '0'
  else if 0 < n ∧ n ≤ 21 then digits.take n.toNat ++ '.' :: digits.drop n.toNat
  else if -6 < n ∧ n ≤ 0 then '0' :: '.' :: (List.replicate (-n).toNat '0' ++ digits)
  else
    match digits with
    | [digit] => digit :: exponentText (n - 1)
    | _ => digits.take 1 ++ '.' :: (digits.drop 1 ++ exponentText (n - 1))

/-- `Number.prototype.toString` -/
def numberText (q : ℚ) : List Char :=
  if q = 0 then ['0']
  else
    let (digits, n) := shortestDecimal |q|
    if q < 0 then '-' :: positiveText digits n else positiveText digits n

/-! ## Values -/

mutual

def stringify : Json → List Char
  | .null => ['n', 'u', 'l', 'l']
  | .bool true => ['t', 'r', 'u', 'e']
  | .bool false => ['f', 'a', 'l', 's', 'e']
  | .number q => numberText q
  | .string text => quote text.toList
  | .array items => '[' :: [','].intercalate (stringifyItems items) ++ [']']
  | .object entries => '{' :: [','].intercalate (stringifyEntries entries) ++ ['}']

def stringifyItems : List Json → List (List Char)
  | [] => []
  | item :: rest => stringify item :: stringifyItems rest

def stringifyEntries : List (String × Json) → List (List Char)
  | [] => []
  | (key, value) :: rest =>
    (quote key.toList ++ ':' :: stringify value) :: stringifyEntries rest

end

/-! ## No control characters -/

/-- No character of the text is a control character. -/
def Printable (text : List Char) : Prop := ∀ c ∈ text, 32 ≤ c.toNat

instance : DecidablePred Printable := fun text => List.decidableBAll _ text

theorem printable_nil : Printable [] := fun _ hc => by cases hc

variable {text : List Char}

theorem printable_cons {c : Char} : Printable (c :: text) ↔ 32 ≤ c.toNat ∧ Printable text :=
  List.forall_mem_cons

variable {text' : List Char}

theorem printable_append : Printable (text ++ text') ↔ Printable text ∧ Printable text' :=
  List.forall_mem_append

theorem Printable.of_subset (h : Printable text) (hsub : text' ⊆ text) : Printable text' :=
  fun c hc => h c (hsub hc)

theorem printable_replicate {c : Char} (hc : 32 ≤ c.toNat) (n : ℕ) :
    Printable (List.replicate n c) := by
  intro d hd
  rwa [List.eq_of_mem_replicate hd]

theorem printable_of_isDigits (h : IsDigits text) : Printable text := by
  intro c hc
  have hdigit := h c hc
  rw [Char.isDigit_iff_toNat] at hdigit
  exact le_trans (by decide) hdigit.1

theorem printable_toDigits (n : ℕ) : Printable (Nat.toDigits 10 n) :=
  printable_of_isDigits (isDigits_toDigits n)

theorem printable_exponentText (e : ℤ) : Printable (exponentText e) := by
  unfold exponentText
  rw [printable_cons, printable_cons]
  refine ⟨by decide, ?_, printable_toDigits _⟩
  split_ifs <;> decide

theorem printable_positiveText {digits : List Char} (h : Printable digits) (n : ℤ) :
    Printable (positiveText digits n) := by
  have hzeros : ∀ m, Printable (List.replicate m '0') := printable_replicate (by decide)
  have htake : ∀ m, Printable (digits.take m) := fun m => h.of_subset (List.take_subset m digits)
  have hdrop : ∀ m, Printable (digits.drop m) := fun m => h.of_subset (List.drop_subset m digits)
  unfold positiveText
  split_ifs
  · exact printable_append.mpr ⟨h, hzeros _⟩
  · exact printable_append.mpr ⟨htake _, printable_cons.mpr ⟨by decide, hdrop _⟩⟩
  · exact printable_cons.mpr ⟨by decide, printable_cons.mpr
      ⟨by decide, printable_append.mpr ⟨hzeros _, h⟩⟩⟩
  · split
    · exact printable_cons.mpr ⟨(printable_cons.mp h).1, printable_exponentText _⟩
    · exact printable_append.mpr ⟨htake _, printable_cons.mpr
        ⟨by decide, printable_append.mpr ⟨hdrop _, printable_exponentText _⟩⟩⟩

theorem printable_shortestDecimal (q : ℚ) : Printable (shortestDecimal q).1 := by
  unfold shortestDecimal
  split
  · exact printable_of_isDigits (isDigits_dropTrailingZeros (isDigits_toDigits _))
  · exact printable_nil

theorem printable_numberText (q : ℚ) : Printable (numberText q) := by
  have hpositive := printable_positiveText (printable_shortestDecimal |q|) (shortestDecimal |q|).2
  unfold numberText
  split_ifs
  · exact printable_cons.mpr ⟨by decide, printable_nil⟩
  · exact printable_cons.mpr ⟨by decide, hpositive⟩
  · exact hpositive

theorem printable_digitChar : ∀ n < 16, 32 ≤ (Nat.digitChar n).toNat := by decide

theorem printable_escape (c : Char) : Printable (escape c) := by
  have hpair : ∀ d : Char, 32 ≤ d.toNat → Printable ['\\', d] := fun d hd =>
    printable_cons.mpr ⟨by decide, printable_cons.mpr ⟨hd, printable_nil⟩⟩
  unfold escape
  split_ifs with _ _ _ _ _ _ _ hcontrol
  any_goals exact hpair _ (by decide)
  · refine printable_append.mpr ⟨?_, ?_⟩
    · decide
    · exact printable_cons.mpr ⟨printable_digitChar _ (by omega),
        printable_cons.mpr ⟨printable_digitChar _ (by omega), printable_nil⟩⟩
  · exact printable_cons.mpr ⟨not_lt.mp hcontrol, printable_nil⟩

theorem printable_quote (text : List Char) : Printable (quote text) := by
  refine printable_cons.mpr
    ⟨by decide, printable_append.mpr ⟨?_, printable_cons.mpr ⟨by decide, printable_nil⟩⟩⟩
  intro c hc
  obtain ⟨d, _, hd⟩ := List.mem_flatMap.mp hc
  exact printable_escape d c hd

theorem printable_intercalate {texts : List (List Char)} (h : ∀ text ∈ texts, Printable text) :
    Printable ([','].intercalate texts) := by
  induction texts with
  | nil => exact printable_nil
  | cons _ rest ih =>
    obtain ⟨htext, hrest⟩ := List.forall_mem_cons.mp h
    cases rest with
    | nil => rwa [List.intercalate_singleton]
    | cons =>
      rw [List.intercalate_cons_cons]
      exact printable_append.mpr ⟨printable_append.mpr
        ⟨htext, printable_cons.mpr ⟨by decide, printable_nil⟩⟩, ih hrest⟩

mutual

theorem printable_stringify : ∀ value : Json, Printable (stringify value)
  | .null => by
    rw [stringify]
    decide
  | .bool true => by
    rw [stringify]
    decide
  | .bool false => by
    rw [stringify]
    decide
  | .number q => by
    rw [stringify]
    exact printable_numberText q
  | .string text => by
    rw [stringify]
    exact printable_quote text.toList
  | .array items => by
    rw [stringify]
    exact printable_cons.mpr ⟨by decide, printable_append.mpr
      ⟨printable_intercalate (printable_stringifyItems items),
        printable_cons.mpr ⟨by decide, printable_nil⟩⟩⟩
  | .object entries => by
    rw [stringify]
    exact printable_cons.mpr ⟨by decide, printable_append.mpr
      ⟨printable_intercalate (printable_stringifyEntries entries),
        printable_cons.mpr ⟨by decide, printable_nil⟩⟩⟩

theorem printable_stringifyItems :
    ∀ items : List Json, ∀ text ∈ stringifyItems items, Printable text
  | [] => by
    rw [stringifyItems]
    exact fun _ htext => by cases htext
  | item :: rest => by
    rw [stringifyItems]
    exact List.forall_mem_cons.mpr ⟨printable_stringify item, printable_stringifyItems rest⟩

theorem printable_stringifyEntries :
    ∀ entries : List (String × Json), ∀ text ∈ stringifyEntries entries, Printable text
  | [] => by
    rw [stringifyEntries]
    exact fun _ htext => by cases htext
  | (key, value) :: rest => by
    rw [stringifyEntries]
    refine List.forall_mem_cons.mpr ⟨?_, printable_stringifyEntries rest⟩
    exact printable_append.mpr ⟨printable_quote key.toList,
      printable_cons.mpr ⟨by decide, printable_stringify value⟩⟩

end

end Fluxora.Lib.JsonStringify
