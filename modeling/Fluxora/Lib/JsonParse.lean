/-
# Reading JSON texts

`JSON.parse`. A value is read from the beginning of a text, with what is left after it. Texts are
read as UTF-16 code units, pairs of which make a character; half a pair becomes the replacement
character. The last of several entries with one key counts.
-/

import Fluxora.Lib.JsonStringify
import Fluxora.Lib.Utf8

namespace Fluxora.Lib.JsonParse

open JsText JsonText JsonStringify DigitText
open Utf8 (replacementCharacter)

/-! ## Texts between quotes -/

/-- What a character after a backslash stands for. -/
def unescape (c : Char) : Option ℕ :=
  match c with
  | '"' => some 34
  | '\\' => some 92
  | '/' => some 47
  | 'b' => some 8
  | 'f' => some 12
  | 'n' => some 10
  | 'r' => some 13
  | 't' => some 9
  | _ => none

def hexUnit (a b c d : Char) : Option ℕ := do
  let a ← hexValue a
  let b ← hexValue b
  let c ← hexValue c
  let d ← hexValue d
  some (((a * 16 + b) * 16 + c) * 16 + d)

/-- The code units of a text after its opening quote, and what is left after the closing one. -/
def readUnits : List Char → Option (List ℕ × List Char)
  | [] => none
  | '"' :: rest => some ([], rest)
  | '\\' :: 'u' :: a :: b :: c :: d :: rest => do
      let unit ← hexUnit a b c d
      let (units, rest) ← readUnits rest
      some (unit :: units, rest)
  | '\\' :: c :: rest => do
      let unit ← unescape c
      let (units, rest) ← readUnits rest
      some (unit :: units, rest)
  | c :: rest =>
    if c.toNat < 32 ∨ c = '\\' then none
    else do
      let (units, rest) ← readUnits rest
      some (codeUnits [c] ++ units, rest)

def charsOfUnits : List ℕ → List Char
  | [] => []
  | high :: rest =>
    if 0xD800 ≤ high ∧ high < 0xDC00 then
      match rest with
      | [] => [replacementCharacter]
      | low :: after =>
        if 0xDC00 ≤ low ∧ low < 0xE000 then
          Char.ofNat (0x10000 + (high - 0xD800) * 0x400 + (low - 0xDC00)) :: charsOfUnits after
        else replacementCharacter :: charsOfUnits (low :: after)
    else if 0xDC00 ≤ high ∧ high < 0xE000 then replacementCharacter :: charsOfUnits rest
    else Char.ofNat high :: charsOfUnits rest

def readString (text : List Char) : Option (String × List Char) := do
  let (units, rest) ← readUnits text
  some (String.ofList (charsOfUnits units), rest)

/-! ## Numbers -/

def isNumberChar (c : Char) : Bool :=
  c.isDigit || c = '-' || c = '+' || c = '.' || c = 'e' || c = 'E'

/-- The exponent at the end of a number. -/
def exponentValue : List Char → Option ℤ
  | [] => some 0
  | c :: rest =>
    if c = 'e' ∨ c = 'E' then
      let (sign, digits) : ℤ × List Char :=
        match rest with
        | '-' :: digits => (-1, digits)
        | '+' :: digits => (1, digits)
        | digits => (1, digits)
      if digits = [] ∨ digits.all Char.isDigit = false then none
      else some (sign * value digits)
    else none

/-- A decimal without its sign. -/
def decimalValue (text : List Char) : Option ℚ :=
  let whole := text.takeWhile Char.isDigit
  if whole = [] ∨ (1 < whole.length ∧ whole.head? = some '0') then none
  else
    let afterWhole := text.dropWhile Char.isDigit
    match afterWhole with
    | '.' :: afterPoint =>
      let decimals := afterPoint.takeWhile Char.isDigit
      if decimals = [] then none
      else (exponentValue (afterPoint.dropWhile Char.isDigit)).map fun e =>
        (value whole + value decimals / 10 ^ decimals.length) * 10 ^ e
    | _ => (exponentValue afterWhole).map fun e => value whole * 10 ^ e

/-- The double of a number as it is written. -/
def numberValue : List Char → Option ℚ
  | '-' :: text => (decimalValue text).map fun q => if q = 0 then 0 else -roundToDouble q
  | text => (decimalValue text).map fun q => if q = 0 then 0 else roundToDouble q

def readNumber (text : List Char) : Option (ℚ × List Char) :=
  (numberValue (text.takeWhile isNumberChar)).map fun q => (q, text.dropWhile isNumberChar)

/-! ## Values -/

def isBlank (c : Char) : Bool := c = ' ' || c = '\t' || c = '\n' || c = '\r'

def skip (text : List Char) : List Char := text.dropWhile isBlank

mutual

/-- A value at the beginning of a text. The fuel need not exceed the length of the text. -/
def readValue : ℕ → List Char → Option (Json × List Char)
  | 0, _ => none
  | fuel + 1, text =>
    match skip text with
    | 'n' :: 'u' :: 'l' :: 'l' :: rest => some (.null, rest)
    | 't' :: 'r' :: 'u' :: 'e' :: rest => some (.bool true, rest)
    | 'f' :: 'a' :: 'l' :: 's' :: 'e' :: rest => some (.bool false, rest)
    | '"' :: rest => (readString rest).map fun read => (.string read.1, read.2)
    | '[' :: rest =>
      match skip rest with
      | ']' :: rest => some (.array [], rest)
      | _ => (readItems fuel rest).map fun read => (.array read.1, read.2)
    | '{' :: rest =>
      match skip rest with
      | '}' :: rest => some (.object [], rest)
      | _ => (readEntries fuel [] rest).map fun read => (.object read.1, read.2)
    | text => (readNumber text).map fun read => (.number read.1, read.2)

/-- The items of an array that is not empty, up to its end. -/
def readItems : ℕ → List Char → Option (List Json × List Char)
  | 0, _ => none
  | fuel + 1, text =>
    (readValue fuel text).bind fun (item, rest) =>
      match skip rest with
      | ',' :: rest => (readItems fuel rest).map fun read => (item :: read.1, read.2)
      | ']' :: rest => some ([item], rest)
      | _ => none

/-- The entries of an object that is not empty, after those that have been read. -/
def readEntries :
    ℕ → List (String × Json) → List Char → Option (List (String × Json) × List Char)
  | 0, _, _ => none
  | fuel + 1, entries, text =>
    match skip text with
    | '"' :: rest =>
      (readString rest).bind fun (key, rest) =>
        match skip rest with
        | ':' :: rest =>
          (readValue fuel rest).bind fun (value, rest) =>
            let entries := Properties.set key value entries
            match skip rest with
            | ',' :: rest => readEntries fuel entries rest
            | '}' :: rest => some (entries, rest)
            | _ => none
        | _ => none
    | _ => none

end

/-- `JSON.parse`, with `none` for a syntax error. -/
def parse (text : List Char) : Option Json :=
  (readValue (text.length + 1) text).bind fun (value, rest) =>
    if skip rest = [] then some value else none

/-! ## Printed texts are read back -/

theorem hexValue_digitChar : ∀ n < 16, hexValue (Nat.digitChar n) = some n := by decide

theorem readUnits_escape (c : Char) (rest : List Char) :
    readUnits (escape c ++ rest) =
      (readUnits rest).map fun read => (codeUnits [c] ++ read.1, read.2) := by
  have hunits : ∀ n, n < 0x10000 → c.toNat = n → codeUnits [c] = [n] := by
    intro n hn hc
    rw [codeUnits, List.flatMap_singleton, hc, if_pos hn]
  have hmap : ∀ n, codeUnits [c] = [n] → ((readUnits rest).bind fun read =>
      some (n :: read.1, read.2)) =
        (readUnits rest).map fun read => (codeUnits [c] ++ read.1, read.2) := by
    intro n hn
    rw [hn]
    cases readUnits rest <;> rfl
  unfold escape
  split_ifs with h1 h2 h3 h4 h5 h6 h7 h8
  · exact hmap 34 (hunits 34 (by omega) h1)
  · exact hmap 92 (hunits 92 (by omega) h2)
  · exact hmap 8 (hunits 8 (by omega) h3)
  · exact hmap 9 (hunits 9 (by omega) h4)
  · exact hmap 10 (hunits 10 (by omega) h5)
  · exact hmap 12 (hunits 12 (by omega) h6)
  · exact hmap 13 (hunits 13 (by omega) h7)
  · have hhigh := hexValue_digitChar (c.toNat / 16) (by omega)
    have hlow := hexValue_digitChar (c.toNat % 16) (by omega)
    have hunit : hexUnit '0' '0' (Nat.digitChar (c.toNat / 16)) (Nat.digitChar (c.toNat % 16)) =
        some c.toNat := by
      rw [hexUnit, hhigh, hlow]
      change some (((0 * 16 + 0) * 16 + c.toNat / 16) * 16 + c.toNat % 16) = some c.toNat
      congr 1
      omega
    rw [← hmap c.toNat (hunits _ (by omega) rfl)]
    change readUnits ('\\' :: 'u' :: '0' :: '0' :: Nat.digitChar (c.toNat / 16) ::
      Nat.digitChar (c.toNat % 16) :: rest) = _
    rw [readUnits, hunit]
    rfl
  · have hquote : c ≠ '"' := fun h => h1 (congrArg Char.toNat h)
    have hbackslash : c ≠ '\\' := fun h => h2 (congrArg Char.toNat h)
    change readUnits (c :: rest) = _
    rw [readUnits.eq_def]
    split
    · rename_i heq
      cases heq
    · rename_i heq
      exact absurd (List.cons.inj heq).1 hquote
    · rename_i heq
      exact absurd (List.cons.inj heq).1 hbackslash
    · rename_i heq
      exact absurd (List.cons.inj heq).1 hbackslash
    · rename_i heq
      cases heq
      rw [if_neg (not_or.mpr ⟨h8, hbackslash⟩)]
      cases readUnits rest <;> rfl

theorem codeUnits_cons (c : Char) (text : List Char) :
    codeUnits (c :: text) = codeUnits [c] ++ codeUnits text := by
  rw [codeUnits, codeUnits, codeUnits, List.flatMap_cons, List.flatMap_singleton]

theorem readUnits_quoted (text rest : List Char) :
    readUnits (text.flatMap escape ++ '"' :: rest) = some (codeUnits text, rest) := by
  induction text with
  | nil => rfl
  | cons c text ih =>
    rw [List.flatMap_cons, List.append_assoc, readUnits_escape, ih, Option.map_some,
      codeUnits_cons c text]

theorem charsOfUnits_codeUnits (text : List Char) : charsOfUnits (codeUnits text) = text := by
  induction text with
  | nil => rfl
  | cons c _ ih =>
    have hrange : c.toNat < 0xD800 ∨ (0xDFFF < c.toNat ∧ c.toNat < 0x110000) := c.valid
    rw [codeUnits_cons, codeUnits, List.flatMap_singleton]
    split_ifs with hsmall
    · rw [List.singleton_append, charsOfUnits.eq_def]
      simp only
      rw [if_neg (by omega), if_neg (by omega), ih, Char.ofNat_toNat]
    · have hchar : 0x10000 + (0xD800 + (c.toNat - 0x10000) / 0x400 - 0xD800) * 0x400 +
          (0xDC00 + (c.toNat - 0x10000) % 0x400 - 0xDC00) = c.toNat := by omega
      rw [List.cons_append, List.singleton_append, charsOfUnits.eq_def]
      simp only
      rw [if_pos (by omega), if_pos (by omega), ih, hchar, Char.ofNat_toNat]

theorem readString_quoted (text : String) (rest : List Char) :
    readString (text.toList.flatMap escape ++ '"' :: rest) = some (text, rest) := by
  rw [readString, readUnits_quoted]
  change some (String.ofList (charsOfUnits (codeUnits text.toList)), rest) = _
  rw [charsOfUnits_codeUnits, String.ofList_toList]

/-! ## Printed values are read back -/

/-- The values whose numbers are read back, with distinct keys in every object. -/
inductive Readable : Json → Prop
  | null : Readable .null
  | bool (b : Bool) : Readable (.bool b)
  | number {q : ℚ} (hvalue : numberValue (numberText q) = some q)
      (hchars : ∀ c ∈ numberText q, isNumberChar c = true) : Readable (.number q)
  | string (text : String) : Readable (.string text)
  | array {items : List Json} (hitems : ∀ item ∈ items, Readable item) : Readable (.array items)
  | object {entries : List (String × Json)} (hkeys : (Properties.keys entries).Nodup)
      (hentries : ∀ entry ∈ entries, Readable entry.2) : Readable (.object entries)

/-- The text that follows a value in a JSON text. -/
def EndsValue (rest : List Char) : Prop := ∀ c ∈ rest.head?, isNumberChar c = false

variable {c : Char} {v : Json} {fuel : ℕ}

theorem skip_of_head {rest : List Char} (h : isBlank c = false) :
    skip (c :: rest) = c :: rest := List.dropWhile_cons_of_neg (by simp [h])

theorem readNumber_append {text rest : List Char} {q : ℚ} (hvalue : numberValue text = some q)
    (hchars : ∀ c ∈ text, isNumberChar c = true) (hrest : EndsValue rest) :
    readNumber (text ++ rest) = some (q, rest) := by
  have htake : rest.takeWhile isNumberChar = [] := by
    cases rest with
    | nil => rfl
    | cons c => exact List.takeWhile_cons_of_neg (by simp [hrest c rfl])
  have hdrop : rest.dropWhile isNumberChar = rest := by
    cases rest with
    | nil => rfl
    | cons c => exact List.dropWhile_cons_of_neg (by simp [hrest c rfl])
  rw [readNumber, List.takeWhile_append_of_pos hchars, List.dropWhile_append_of_pos hchars, htake,
    hdrop, List.append_nil, hvalue]
  rfl

theorem isBlank_of_isNumberChar (hc : isNumberChar c = true) : isBlank c = false := by
  by_contra h
  rw [isBlank, Bool.not_eq_false] at h
  simp only [Bool.or_eq_true, decide_eq_true_eq] at h
  rcases h with ((rfl | rfl) | rfl) | rfl <;> exact absurd hc (by decide)

theorem readValue_number {text rest : List Char} {q : ℚ} (fuel : ℕ)
    (hvalue : numberValue text = some q) (hchars : ∀ c ∈ text, isNumberChar c = true)
    (hrest : EndsValue rest) : readValue (fuel + 1) (text ++ rest) = some (.number q, rest) := by
  have hread := readNumber_append hvalue hchars hrest
  cases text with
  | nil => cases hvalue
  | cons c =>
    have hc := hchars c List.mem_cons_self
    rw [readValue, List.cons_append, skip_of_head (isBlank_of_isNumberChar hc)]
    -- no other kind of value begins like a number
    split
    any_goals
      rename_i heq
      obtain ⟨rfl, -⟩ := List.cons.inj heq
      exact absurd hc (by decide)
    rw [← List.cons_append, hread]
    rfl

theorem stringify_head (h : Readable v) :
    ∃ c text, stringify v = c :: text ∧ isBlank c = false ∧ c ≠ ']' := by
  cases h with
  | null => exact ⟨_, _, by rw [stringify], by decide, by decide⟩
  | bool b => cases b <;> exact ⟨_, _, by rw [stringify], by decide, by decide⟩
  | @number q hvalue hchars =>
    rw [stringify]
    cases htext : numberText q with
    | nil =>
      rw [htext] at hvalue
      cases hvalue
    | cons c text =>
      have hc : isNumberChar c = true := hchars c (by rw [htext]; exact List.mem_cons_self)
      exact ⟨c, text, rfl, isBlank_of_isNumberChar hc,
        fun heq => absurd hc (by rw [heq]; decide)⟩
  | string => exact ⟨_, _, by rw [stringify, quote]; rfl, by decide, by decide⟩
  | array | object => exact ⟨_, _, by rw [stringify]; rfl, by decide, by decide⟩

theorem set_of_notMem {key : String} {value : Json} {entries : List (String × Json)}
    (h : key ∉ Properties.keys entries) :
    Properties.set key value entries = entries ++ [(key, value)] := by
  induction entries with
  | nil => rfl
  | cons _ _ ih =>
    obtain ⟨hne, hrest⟩ := not_or.mp (List.mem_cons.not.mp h)
    rw [Properties.set, if_neg (Ne.symm hne), ih hrest, List.cons_append]

theorem notMem_keys_of_nodup {read entries : List (String × Json)} {entry : String × Json}
    (h : (Properties.keys (read ++ entry :: entries)).Nodup) :
    entry.1 ∉ Properties.keys read := by
  rw [Properties.keys, List.map_append, List.nodup_append] at h
  exact fun hmem => h.2.2 _ hmem _ (List.mem_cons_self) rfl

theorem readValue_array {text rest : List Char} {items : List Json} (hblank : isBlank c = false)
    (hend : c ≠ ']')
    (hitems : readItems fuel (c :: text) = some (items, rest)) :
    readValue (fuel + 1) ('[' :: c :: text) = some (.array items, rest) := by
  rw [readValue, skip_of_head (by decide)]
  simp only [skip_of_head hblank, hitems, Option.map_some]
  split
  · rename_i heq
    exact absurd (List.cons.inj heq).1 hend
  · rfl

theorem readValue_object {text rest : List Char} {entries : List (String × Json)}
    (hentries : readEntries fuel [] ('"' :: text) = some (entries, rest)) :
    readValue (fuel + 1) ('{' :: '"' :: text) = some (.object entries, rest) := by
  change (readEntries fuel [] ('"' :: text)).map _ = _
  rw [hentries]
  rfl

theorem readEntries_entry {key : String} {value : Json} {entries : List (String × Json)}
    {text rest : List Char} (hvalue : readValue fuel text = some (value, rest)) :
    readEntries (fuel + 1) entries (quote key.toList ++ ':' :: text) =
      match skip rest with
      | ',' :: rest => readEntries fuel (Properties.set key value entries) rest
      | '}' :: rest => some (Properties.set key value entries, rest)
      | _ => none := by
  rw [quote, List.cons_append, List.cons_append, List.append_assoc, readEntries,
    skip_of_head (by decide)]
  simp only [List.singleton_append, readString_quoted, Option.bind_some,
    skip_of_head (show isBlank ':' = false by decide), hvalue]

mutual

theorem readValue_stringify : ∀ v : Json, Readable v → ∀ (fuel : ℕ) (rest : List Char),
    (stringify v).length < fuel → EndsValue rest →
      readValue fuel (stringify v ++ rest) = some (v, rest)
  | _, _, 0, _, hfuel, _ => absurd hfuel (Nat.not_lt_zero _)
  | .null, _, fuel + 1, rest, _, _ => by
    rw [stringify]
    rfl
  | .bool true, _, fuel + 1, rest, _, _ => by
    rw [stringify]
    rfl
  | .bool false, _, fuel + 1, rest, _, _ => by
    rw [stringify]
    rfl
  | .number q, hv, fuel + 1, rest, _, hrest => by
    cases hv with
    | number hvalue hchars =>
      rw [stringify]
      exact readValue_number fuel hvalue hchars hrest
  | .string text, _, fuel + 1, rest, _, _ => by
    rw [stringify, quote, List.cons_append, List.cons_append, List.append_assoc]
    change (readString (text.toList.flatMap escape ++ '"' :: rest)).map _ = _
    rw [readString_quoted]
    rfl
  | .array items, hv, fuel + 1, rest, hfuel, _ => by
    cases hv with
    | array hitems =>
      rw [stringify] at hfuel ⊢
      cases items with
      | nil =>
        rw [stringifyItems]
        rfl
      | cons item items =>
        have hread := readItems_stringify item items hitems fuel rest (by
          simp only [List.length_cons, List.length_append, List.length_nil] at hfuel
          omega)
        obtain ⟨c, text, hhead, hblank, hend⟩ :=
          stringify_head (hitems item List.mem_cons_self)
        obtain ⟨text', hjoined⟩ : ∃ text',
            [','].intercalate (stringifyItems (item :: items)) ++ ']' :: rest =
              c :: text' := by
          rw [stringifyItems]
          cases stringifyItems items with
          | nil => exact ⟨_, by rw [List.intercalate_singleton, hhead]; rfl⟩
          | cons => exact ⟨_, by rw [List.intercalate_cons_cons, hhead]; rfl⟩
        rw [List.cons_append, List.cons_append, List.append_assoc, List.singleton_append,
          hjoined]
        rw [hjoined] at hread
        exact readValue_array hblank hend hread
  | .object entries, hv, fuel + 1, rest, hfuel, _ => by
    cases hv with
    | object hkeys hentries =>
      rw [stringify] at hfuel ⊢
      cases entries with
      | nil =>
        rw [stringifyEntries]
        rfl
      | cons entry entries =>
        have hread := readEntries_stringify entry entries hentries [] hkeys fuel rest (by
          simp only [List.length_cons, List.length_append, List.length_nil] at hfuel
          omega)
        obtain ⟨text', hjoined⟩ : ∃ text',
            [','].intercalate (stringifyEntries (entry :: entries)) ++ '}' :: rest =
              '"' :: text' := by
          rw [stringifyEntries]
          cases stringifyEntries entries with
          | nil => exact ⟨_, by rw [List.intercalate_singleton]; rfl⟩
          | cons => exact ⟨_, by rw [List.intercalate_cons_cons]; rfl⟩
        rw [List.cons_append, List.cons_append, List.append_assoc, List.singleton_append,
          hjoined]
        rw [hjoined] at hread
        exact readValue_object hread

theorem readItems_stringify : ∀ (item : Json) (items : List Json),
    (∀ v ∈ item :: items, Readable v) → ∀ (fuel : ℕ) (rest : List Char),
      ([','].intercalate (stringifyItems (item :: items))).length + 1 < fuel →
        readItems fuel ([','].intercalate (stringifyItems (item :: items)) ++ ']' :: rest) =
          some (item :: items, rest)
  | _, _, _, 0, _, hfuel => absurd hfuel (Nat.not_lt_zero _)
  | item, [], hv, fuel + 1, rest, hfuel => by
    rw [stringifyItems, stringifyItems, List.intercalate_singleton] at hfuel ⊢
    rw [readItems, readValue_stringify item (hv item List.mem_cons_self) fuel _ (by omega)
      (fun c hc => by cases hc; rfl)]
    rfl
  | item, next :: items, hv, fuel + 1, rest, hfuel => by
    rw [stringifyItems, stringifyItems, List.intercalate_cons_cons] at hfuel ⊢
    rw [← stringifyItems] at hfuel ⊢
    simp only [List.length_append, List.length_singleton] at hfuel
    have hnext := readItems_stringify next items (fun v h => hv v (List.mem_cons_of_mem _ h)) fuel
      rest (by omega)
    rw [List.append_assoc, List.append_assoc, readItems,
      readValue_stringify item (hv item List.mem_cons_self) fuel _ (by omega)
        (fun c hc => by cases hc; rfl)]
    change (readItems fuel ([','].intercalate (stringifyItems (next :: items)) ++
      ']' :: rest)).map _ = _
    rw [hnext]
    rfl

theorem readEntries_stringify : ∀ (entry : String × Json) (entries : List (String × Json)),
    (∀ entry' ∈ entry :: entries, Readable entry'.2) → ∀ read : List (String × Json),
      (Properties.keys (read ++ entry :: entries)).Nodup → ∀ (fuel : ℕ) (rest : List Char),
        ([','].intercalate (stringifyEntries (entry :: entries))).length + 1 < fuel →
          readEntries fuel read
              ([','].intercalate (stringifyEntries (entry :: entries)) ++ '}' :: rest) =
            some (read ++ entry :: entries, rest)
  | _, _, _, _, _, 0, _, hfuel => absurd hfuel (Nat.not_lt_zero _)
  | (key, value), [], hv, read, hkeys, fuel + 1, rest, hfuel => by
    have hnew := notMem_keys_of_nodup hkeys
    rw [stringifyEntries, stringifyEntries, List.intercalate_singleton] at hfuel ⊢
    simp only [List.length_append, List.length_cons] at hfuel
    have hvalue := readValue_stringify value (hv _ List.mem_cons_self) fuel ('}' :: rest)
      (by omega) (fun c hc => by cases hc; rfl)
    rw [List.append_assoc, List.cons_append, readEntries_entry hvalue, set_of_notMem hnew]
    rfl
  | (key, value), (key', value') :: entries, hv, read, hkeys, fuel + 1, rest, hfuel => by
    have hnew := notMem_keys_of_nodup hkeys
    rw [stringifyEntries, stringifyEntries, List.intercalate_cons_cons] at hfuel ⊢
    rw [← stringifyEntries] at hfuel ⊢
    simp only [List.length_append, List.length_cons, List.length_nil] at hfuel
    have hvalue := readValue_stringify value (hv _ List.mem_cons_self) fuel
      (',' :: ([','].intercalate (stringifyEntries ((key', value') :: entries)) ++ '}' :: rest))
      (by omega) (fun c hc => by cases hc; rfl)
    have hnext := readEntries_stringify (key', value') entries
      (fun entry' h => hv entry' (List.mem_cons_of_mem _ h)) (read ++ [(key, value)])
      (by rwa [List.append_assoc]) fuel rest (by omega)
    rw [List.append_assoc, List.append_assoc, List.append_assoc, List.cons_append,
      List.singleton_append, readEntries_entry hvalue, set_of_notMem hnew]
    change readEntries fuel _ ([','].intercalate (stringifyEntries ((key', value') :: entries)) ++
      '}' :: rest) = _
    rw [hnext, List.append_assoc]
    rfl

end

theorem parse_stringify (h : Readable v) : parse (stringify v) = some v := by
  have hread := readValue_stringify v h ((stringify v).length + 1) [] (by omega) nofun
  rw [List.append_nil] at hread
  rw [parse, hread]
  rfl

theorem stringify_inj {v' : Json} (h : Readable v) (h' : Readable v')
    (heq : stringify v = stringify v') : v = v' := by
  have hsame : some v = some v' := by rw [← parse_stringify h, ← parse_stringify h', heq]
  exact Option.some.inj hsame

end Fluxora.Lib.JsonParse

/-! ## Numbers of texts and differences of numbers

`Number(text)` of the language standard. It reads more than the decimals of JSON: white space
around the number, leading zeros, a point without digits on one side of it, and binary, octal
and hexadecimal integers. A finite double is its exact value here; NaN and the infinities are
`none`.
-/

namespace Fluxora.Lib.JsNumber

open DigitText JsText
open JsonStringify (roundToDouble)

/-! ## Rounding -/

/-- The double nearest to a number of either sign. -/
def round (q : ℚ) : ℚ := if q < 0 then -roundToDouble (-q) else roundToDouble q

/-- The difference of two doubles, as the doubles subtract. -/
def sub (x y : ℚ) : ℚ := round (x - y)

/-- The double of a value that is not negative, unless it overflows. -/
def finite (q : ℚ) : Option ℚ :=
  if q = 0 then some 0 else if roundToDouble q < 2 ^ 1024 then some (roundToDouble q) else none

/-! ## `Number` of a text -/

/-- A decimal without its sign. -/
def unsignedDecimal (text : List Char) : Option ℚ :=
  let whole := text.takeWhile Char.isDigit
  match text.dropWhile Char.isDigit with
  | '.' :: afterPoint =>
    let decimals := afterPoint.takeWhile Char.isDigit
    if whole = [] ∧ decimals = [] then none
    else (JsonParse.exponentValue (afterPoint.dropWhile Char.isDigit)).map fun e =>
      (value whole + value decimals / 10 ^ decimals.length) * 10 ^ e
  | afterWhole =>
    if whole = [] then none
    else (JsonParse.exponentValue afterWhole).map fun e => value whole * 10 ^ e

/-- The base that the letter after a leading zero stands for. -/
def radix (c : Char) : Option ℕ :=
  if c = 'b' ∨ c = 'B' then some 2
  else if c = 'o' ∨ c = 'O' then some 8
  else if c = 'x' ∨ c = 'X' then some 16
  else none

/-- An integer in a base up to sixteen. -/
def radixValue (base : ℕ) (digits : List Char) : Option ℕ :=
  if digits = [] then none
  else
    (digits.mapM fun c => (hexValue c).filter (· < base)).map
      (·.foldl (fun read digit => base * read + digit) 0)

/-- A decimal after its sign, if it has one. `Infinity` is not finite. -/
def signedDecimal : List Char → Option ℚ
  | '-' :: text => ((unsignedDecimal text).bind finite).map fun q => -q
  | '+' :: text => (unsignedDecimal text).bind finite
  | text => (unsignedDecimal text).bind finite

/-- `Number(text)`, with `none` for NaN and the infinities. -/
def number (text : String) : Option ℚ :=
  match trim text.toList with
  | [] => some 0
  | '0' :: c :: digits =>
    match radix c with
    | some base => (radixValue base digits).bind fun n => finite n
    | none => signedDecimal ('0' :: c :: digits)
  | trimmed => signedDecimal trimmed

/-- `Number.isInteger` of a finite number. -/
def isInteger (q : ℚ) : Bool := q.den = 1

end Fluxora.Lib.JsNumber

/-! ## The grammar of JSON texts

Which texts are JSON, with the greatest nesting of containers in them. A phrase is a value, or
what stands between the brackets of an array or the braces of an object that is not empty.
-/

namespace Fluxora.Lib.JsonGrammar

/-- A blank text. -/
def IsBlank (text : List Char) : Prop := ∀ c ∈ text, JsonParse.isBlank c = true

/-- The text between the quotes of a string. -/
inductive IsStringBody : List Char → Prop
  | nil : IsStringBody []
  | plain {c : Char} {rest : List Char} (hc : 32 ≤ c.toNat) (hquote : c ≠ '"')
      (hbackslash : c ≠ '\\') (h : IsStringBody rest) : IsStringBody (c :: rest)
  | escape {c : Char} {rest : List Char} (hc : (JsonParse.unescape c).isSome = true)
      (h : IsStringBody rest) : IsStringBody ('\\' :: c :: rest)
  | unicode {a b c d : Char} {rest : List Char}
      (hdigits : (JsonParse.hexUnit a b c d).isSome = true)
      (h : IsStringBody rest) : IsStringBody ('\\' :: 'u' :: a :: b :: c :: d :: rest)

def IsString (text : List Char) : Prop := ∃ body, IsStringBody body ∧ text = '"' :: body ++ ['"']

def IsNumber (text : List Char) : Prop :=
  (∀ c ∈ text, JsonParse.isNumberChar c = true) ∧ (JsonParse.numberValue text).isSome = true

inductive Phrase
  | value
  | elements
  | members

/-- A phrase of a nesting, and its text. -/
inductive Derives : Phrase → ℕ → List Char → Prop
  | null : Derives .value 0 ['n', 'u', 'l', 'l']
  | true : Derives .value 0 ['t', 'r', 'u', 'e']
  | false : Derives .value 0 ['f', 'a', 'l', 's', 'e']
  | number {text : List Char} (h : IsNumber text) : Derives .value 0 text
  | string {text : List Char} (h : IsString text) : Derives .value 0 text
  | emptyArray {blank : List Char} (h : IsBlank blank) : Derives .value 1 ('[' :: blank ++ [']'])
  | array {depth : ℕ} {text : List Char} (h : Derives .elements depth text) :
      Derives .value (depth + 1) ('[' :: text ++ [']'])
  | emptyObject {blank : List Char} (h : IsBlank blank) : Derives .value 1 ('{' :: blank ++ ['}'])
  | object {depth : ℕ} {text : List Char} (h : Derives .members depth text) :
      Derives .value (depth + 1) ('{' :: text ++ ['}'])
  | element {depth : ℕ} {before text after : List Char} (hbefore : IsBlank before)
      (h : Derives .value depth text) (hafter : IsBlank after) :
      Derives .elements depth (before ++ text ++ after)
  | member {depth : ℕ} {before key after text : List Char} (hbefore : IsBlank before)
      (hkey : IsString key) (hafter : IsBlank after) (h : Derives .elements depth text) :
      Derives .members depth (before ++ key ++ after ++ ':' :: text)
  | more {phrase : Phrase} {depth depth' : ℕ} {text text' : List Char} (hphrase : phrase ≠ .value)
      (h : Derives phrase depth text) (h' : Derives phrase depth' text') :
      Derives phrase (max depth depth') (text ++ ',' :: text')

/-- A JSON text is a value with blanks around it, which is what an element is. -/
def IsJsonText (depth : ℕ) (text : List Char) : Prop := Derives .elements depth text

end Fluxora.Lib.JsonGrammar
