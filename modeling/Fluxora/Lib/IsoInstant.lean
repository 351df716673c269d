/-
# Instants as ISO texts

`Date.prototype.toISOString`: an instant, in milliseconds from 1970 on, as a date and a
time of day of the Gregorian calendar. The days are counted from 1 March of the year 0,
so that the leap day is the last of its year.
-/

import Mathlib.Data.Int.Basic

namespace Fluxora.Lib.IsoInstant

/-- A decimal with at least `width` digits. -/
def padded (width : ℕ) (n : ℕ) : String := String.ofList ((Nat.toDigits 10 n).leftpad width '0')

/-- Year, month and day of the day that is `days` days after 1 January 1970. -/
def civilDate (days : ℤ) : ℤ × ℕ × ℕ :=
  let shifted := days + 719468
  let era := shifted / 146097
  let dayOfEra := (shifted % 146097).toNat
  let yearOfEra := (dayOfEra - dayOfEra / 1460 + dayOfEra / 36524 - dayOfEra / 146096) / 365
  let dayOfYear := dayOfEra - (365 * yearOfEra + yearOfEra / 4 - yearOfEra / 100)
  let monthFromMarch := (5 * dayOfYear + 2) / 153
  let day := dayOfYear - (153 * monthFromMarch + 2) / 5 + 1
  let month := if monthFromMarch < 10 then monthFromMarch + 3 else monthFromMarch - 9
  let year := era * 400 + yearOfEra
  (if month ≤ 2 then year + 1 else year, month, day)

/-- Years outside of four digits are written with a sign and six digits. -/
def yearText (year : ℤ) : String :=
  if 0 ≤ year ∧ year ≤ 9999 then padded 4 year.toNat
  else (if year < 0 then "-" else "+") ++ padded 6 year.natAbs

def toISOString (instant : ℤ) : String :=
  let (year, month, day) := civilDate (instant / 86400000)
  let millis := (instant % 86400000).toNat
  yearText year ++ "-" ++ padded 2 month ++ "-" ++ padded 2 day ++ "T" ++
    padded 2 (millis / 3600000) ++ ":" ++ padded 2 (millis / 60000 % 60) ++ ":" ++
    padded 2 (millis / 1000 % 60) ++ "." ++ padded 3 (millis % 1000) ++ "Z"

theorem toISOString_ne_empty (instant : ℤ) : toISOString instant ≠ "" := by
  intro hempty
  have hlength := congrArg String.length hempty
  simp [toISOString] at hlength

example : toISOString 951782399999 = "2000-02-28T23:59:59.999Z" := by decide +kernel

example : toISOString (-1) = "1969-12-31T23:59:59.999Z" := by decide +kernel

end Fluxora.Lib.IsoInstant
