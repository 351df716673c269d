/-
# Reading database rows

The database driver returns a row as named values. The readers turn one column into a
domain value or fail with an error that names the table, the column and the reason;
no reader repairs a value. A column that the statement did not select is not a NULL:
it is absent, and every reader refuses it.
-/

import Fluxora.Lib.Json
import Fluxora.Lib.JsText

namespace Fluxora.Db

open Lib Lib.JsText

/-- A value as the driver returns it. -/
inductive DriverValue
  | null
  | bool (b : Bool)
  | number (q : ℚ)
  | string (text : String)
  /-- A valid date, in milliseconds. -/
  | date (instant : ℤ)
  | array (items : List Json)
  | object (entries : List (String × Json))

abbrev Row := List (String × DriverValue)

structure RowMappingError where
  table : String
  column : String
  reason : String
  /-- What was received, without its contents. -/
  received : String
  deriving DecidableEq

def int32Max : ℤ := 2147483647

/-- `Number.MAX_SAFE_INTEGER`. -/
def bigintSafeMax : ℤ := 2 ^ 53 - 1

/-- A value for an error message, with `none` for an absent column. -/
def describeValue : Option DriverValue → String
  | none => "undefined"
  | some .null => "null"
  | some (.bool _) => "boolean"
  | some (.number _) => "number"
  | some (.string text) =>
    let length := (codeUnits text.toList).length
    s!"string(length={length})"
  | some (.date _) => "Date"
  | some (.array items) =>
    let length := items.length
    s!"array(length={length})"
  | some (.object _) => "object"

/-- The value of `^[+-]?\d+$`. -/
def integerString (text : List Char) : Option ℤ :=
  match text with
  | '-' :: digits => (unsigned digits).map fun n => -(n : ℤ)
  | '+' :: digits => (unsigned digits).map fun n => (n : ℤ)
  | digits => (unsigned digits).map fun n => (n : ℤ)
where
  unsigned (digits : List Char) : Option ℕ :=
    if digits ≠ [] ∧ digits.all Char.isDigit then some (DigitText.value digits) else none

section

variable (table : String) (row : Row) (column : String)

def fail {α : Type} (reason : String) (value : Option DriverValue) :
    Except RowMappingError α :=
  .error ⟨table, column, reason, describeValue value⟩

def readString : DriverValue → Except RowMappingError String
  | .string text =>
    if text = "" then fail table column "expected a non-empty string" (some (.string text))
    else .ok text
  | value => fail table column "expected a string" (some value)

def requireString : Except RowMappingError String :=
  match row.lookup column with
  | none => fail table column "required column was NULL or absent" none
  | some .null => fail table column "required column was NULL or absent" (some .null)
  | some value => readString table column value

def optionalString : Except RowMappingError (Option String) :=
  match row.lookup column with
  | none => fail table column "expected a selected column" none
  | some .null => .ok none
  | some value => (readString table column value).map some

def checkBounds (lower upper parsed : ℤ) (value : DriverValue) : Except RowMappingError ℤ :=
  if parsed < lower ∨ upper < parsed then
    fail table column s!"expected an integer within [{lower}, {upper}]" (some value)
  else .ok parsed

/-- Integers arrive as numbers or, from a `bigint` column, as decimal texts. A text
beyond the safe integers is refused because the number it would become is rounded. -/
def readInt (lower upper : ℤ) : DriverValue → Except RowMappingError ℤ
  | .number q =>
    if q.den = 1 then checkBounds table column lower upper q.num (.number q)
    else fail table column "expected an integer" (some (.number q))
  | .string text =>
    match integerString text.toList with
    | none => fail table column "expected a decimal integer string" (some (.string text))
    | some parsed =>
      if bigintSafeMax < |parsed| then
        fail table column "value exceeds the safe integer range" (some (.string text))
      else checkBounds table column lower upper parsed (.string text)
  | value => fail table column "expected a number or a decimal integer string" (some value)

def requireInt (lower upper : ℤ) : Except RowMappingError ℤ :=
  match row.lookup column with
  | none => fail table column "required column was NULL or absent" none
  | some .null => fail table column "required column was NULL or absent" (some .null)
  | some value => readInt table column lower upper value

/-- `requireInt(column, { min: 0 })`. -/
def requireNat : Except RowMappingError ℕ :=
  (requireInt table row column 0 int32Max).map Int.toNat

/-- With `Date.parse` for the texts. -/
def readDate (parseDate : String → Option ℤ) : DriverValue → Except RowMappingError ℤ
  | .date instant => .ok instant
  | .string text =>
    match parseDate text with
    | some instant => .ok instant
    | none => fail table column "expected a parseable timestamp string" (some (.string text))
  | value => fail table column "expected a Date or a timestamp string" (some value)

def requireDate (parseDate : String → Option ℤ) : Except RowMappingError ℤ :=
  match row.lookup column with
  | none => fail table column "required column was NULL or absent" none
  | some .null => fail table column "required column was NULL or absent" (some .null)
  | some value => readDate table column parseDate value

def requireJsonObject : Except RowMappingError (List (String × Json)) :=
  match row.lookup column with
  | none => fail table column "required JSON column was NULL or absent" none
  | some .null => fail table column "required JSON column was NULL or absent" (some .null)
  | some (.array items) =>
    fail table column "expected a JSON object, not an array" (some (.array items))
  | some (.object entries) => .ok entries
  | some value => fail table column "expected a JSON object" (some value)

variable {table row column}

theorem requireString_of_absent (habsent : row.lookup column = none) :
    requireString table row column =
      .error ⟨table, column, "required column was NULL or absent", "undefined"⟩ := by
  rw [requireString, habsent]
  rfl

end

end Fluxora.Db
