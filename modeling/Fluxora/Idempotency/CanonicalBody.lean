/-
# The fingerprint of a request body

A body is printed with the keys of its objects in order, and the text is hashed. Values are
printed as `JSON.stringify` does; keys are put between quotes as they are. A key that contains a
quotation mark and a colon ends there for whoever reads the text, and so different bodies can have
one text.
-/

import Fluxora.Lib.JsonOrder

namespace Fluxora.Idempotency

open Lib Lib.Properties Lib.JsText Lib.JsonText Lib.JsonStringify Lib.JsonParse Lib.DoubleText
open Lib.JsonOrder

/-! ## The text of a body -/

/-- The order of `Array.prototype.sort`, by UTF-16 code units. -/
def UnitsLe (key key' : String) : Prop := codeUnits key.toList ≤ codeUnits key'.toList

instance : DecidableRel UnitsLe := fun key key' =>
  inferInstanceAs (Decidable (codeUnits key.toList ≤ codeUnits key'.toList))

mutual

/-- `canonicalizeBody` for the values of JSON. -/
def canonicalizeBody : Json → List Char
  | .null => trim (stringify .null)
  | .bool b => trim (stringify (.bool b))
  | .number q => trim (stringify (.number q))
  | .string text => trim (stringify (.string text))
  | .array items => '[' :: [','].intercalate (canonicalizeItems items) ++ [']']
  | .object entries =>
    let canonical := canonicalizeEntries entries
    let sortedKeys := (keys entries).insertionSort UnitsLe
    let parts := sortedKeys.map fun key =>
      '"' :: key.toList ++ '"' :: ':' :: (canonical.lookup key).getD []
    '{' :: [','].intercalate parts ++ ['}']

def canonicalizeItems : List Json → List (List Char)
  | [] => []
  | item :: rest => canonicalizeBody item :: canonicalizeItems rest

def canonicalizeEntries : List (String × Json) → List (String × List Char)
  | [] => []
  | (key, value) :: rest => (key, canonicalizeBody value) :: canonicalizeEntries rest

end

/-- `hashBody` over the digest function. -/
def hashBody (sha256 : String → String) (body : Json) : String :=
  sha256 (String.ofList (canonicalizeBody body))

/-! ## Its order of keys -/

theorem codeUnits_inj {key key' : String}
    (h : codeUnits key.toList = codeUnits key'.toList) : key = key' := by
  apply String.toList_inj.mp
  rw [← charsOfUnits_codeUnits key.toList, h, charsOfUnits_codeUnits]

instance : Std.Total UnitsLe := ⟨fun key _ => le_total (codeUnits key.toList) _⟩

instance : IsTrans String UnitsLe :=
  ⟨fun key _ _ h h' => le_trans (show codeUnits key.toList ≤ _ from h) h'⟩

instance : Std.Antisymm UnitsLe :=
  ⟨fun key _ h h' => codeUnits_inj (le_antisymm (show codeUnits key.toList ≤ _ from h) h')⟩

/-! ## Texts in the order of the entries -/

mutual

/-- A value printed with its entries in the order they have. -/
def orderedText : Json → List Char
  | .null => stringify .null
  | .bool b => stringify (.bool b)
  | .number q => stringify (.number q)
  | .string text => stringify (.string text)
  | .array [] => ['[', ']']
  | .array (item :: rest) => '[' :: (orderedText item ++ closeItems rest)
  | .object [] => ['{', '}']
  | .object ((key, value) :: rest) =>
    '{' :: '"' :: (key.toList ++ '"' :: ':' :: (orderedText value ++ closeEntries rest))

/-- The items after the first. -/
def closeItems : List Json → List Char
  | [] => [']']
  | item :: rest => ',' :: (orderedText item ++ closeItems rest)

def closeEntries : List (String × Json) → List Char
  | [] => ['}']
  | (key, value) :: rest =>
    ',' :: '"' :: (key.toList ++ '"' :: ':' :: (orderedText value ++ closeEntries rest))

end

/-- A key does not end before its last character. -/
def Unambiguous (key : String) : Prop := ¬ ['"', ':'] <:+: key.toList

variable {rest' : List Char} {v : Json} {rest : List Char}

theorem key_append_inj {key key' : String} (h : Unambiguous key) (h' : Unambiguous key')
    (heq : key.toList ++ '"' :: ':' :: rest = key'.toList ++ '"' :: ':' :: rest') :
    key = key' ∧ rest = rest' := by
  -- otherwise the longer key goes on with the quotation mark and the colon
  have hlonger : ∀ {short long : String} {more after after' : List Char}, Unambiguous long →
      long.toList = short.toList ++ more → '"' :: ':' :: after = more ++ '"' :: ':' :: after' →
        more = [] := by
    intro short long more after after' hlong hmore hafter
    match more with
    | [] => rfl
    | [c] =>
      obtain ⟨rfl, htail⟩ := List.cons.inj hafter
      cases htail
    | c :: d :: more =>
      obtain ⟨rfl, htail⟩ := List.cons.inj hafter
      obtain ⟨rfl, -⟩ := List.cons.inj htail
      exact absurd ⟨short.toList, more, by rw [hmore, List.append_assoc]; rfl⟩ hlong
  rcases List.append_eq_append_iff.mp heq with ⟨more, hkey, hrest⟩ | ⟨more, hkey, hrest⟩
  · obtain rfl := hlonger h' hkey hrest
    rw [List.append_nil] at hkey
    exact ⟨String.toList_inj.mp hkey.symm, (List.cons.inj (List.cons.inj hrest).2).2⟩
  · obtain rfl := hlonger h hkey hrest
    rw [List.append_nil] at hkey
    exact ⟨String.toList_inj.mp hkey, (List.cons.inj (List.cons.inj hrest).2).2.symm⟩

theorem numberText_head {q : ℚ} (hq : IsDouble q) :
    ∃ c text, numberText q = c :: text ∧ isNumberChar c = true := by
  cases htext : numberText q with
  | nil =>
    have hvalue := numberValue_numberText hq
    rw [htext, numberValue.eq_def] at hvalue
    cases hvalue
  | cons c text => exact ⟨c, text, rfl, isNumberText_numberText hq c (htext ▸ List.mem_cons_self)⟩

theorem endsValue_closeItems (items : List Json) (rest : List Char) :
    EndsValue (closeItems items ++ rest) := by
  intro c hc
  cases items <;> rw [closeItems] at hc <;> cases hc <;> rfl

theorem endsValue_closeEntries (entries : List (String × Json)) (rest : List Char) :
    EndsValue (closeEntries entries ++ rest) := by
  intro c hc
  cases entries <;> rw [closeEntries] at hc <;> cases hc <;> rfl

/-! ### Kinds of values -/

/-- The kind of the values whose text begins with a character. -/
def charKind (c : Char) : ℕ :=
  if isNumberChar c then 0
  else
    match c with
    | 'n' => 1
    | 't' => 2
    | 'f' => 3
    | '"' => 4
    | '[' => 5
    | '{' => 6
    | _ => 7

def kind : Json → ℕ
  | .number _ => 0
  | .null => 1
  | .bool true => 2
  | .bool false => 3
  | .string _ => 4
  | .array _ => 5
  | .object _ => 6

theorem kind_lt (v : Json) : kind v < 7 := by
  unfold kind
  split <;> decide

theorem orderedText_head (hv : Parsed v) :
    ∃ c text, orderedText v = c :: text ∧ charKind c = kind v := by
  cases hv with
  | null => exact ⟨_, _, by rw [orderedText, stringify], by decide⟩
  | bool b => cases b <;> exact ⟨_, _, by rw [orderedText, stringify], by decide⟩
  | number hdouble =>
    obtain ⟨c, text, htext, hc⟩ := numberText_head hdouble
    refine ⟨c, text, by rw [orderedText, stringify, htext], ?_⟩
    unfold charKind
    rw [if_pos hc, kind]
  | string => exact ⟨_, _, by rw [orderedText, stringify, quote]; rfl, by rfl⟩
  | @array items =>
    cases items with
    | nil | cons => exact ⟨_, _, by rw [orderedText], by rfl⟩
  | @object entries =>
    cases entries with
    | nil | cons => exact ⟨_, _, by rw [orderedText], by rfl⟩

theorem kind_eq {v' : Json} (hv : Parsed v) (hv' : Parsed v')
    (heq : orderedText v ++ rest = orderedText v' ++ rest') : kind v = kind v' := by
  obtain ⟨c, text, htext, hc⟩ := orderedText_head hv
  obtain ⟨c', text', htext', hc'⟩ := orderedText_head hv'
  rw [htext, htext'] at heq
  rw [← hc, ← hc', (List.cons.inj heq).1]

theorem orderedText_ne_bracket (hv : Parsed v) {rest : List Char} :
    orderedText v ++ rest ≠ ']' :: rest' := by
  intro heq
  obtain ⟨c, text, htext, hc⟩ := orderedText_head hv
  rw [htext] at heq
  rw [(List.cons.inj heq).1] at hc
  exact absurd (kind_lt v) (hc ▸ by decide)

/-! ### Texts tell values apart -/

/-- What the proof below needs of the values in a list. -/
structure Clear (v : Json) : Prop where
  parsed : Parsed v
  keys : EveryKey Unambiguous v

theorem Clear.items {items : List Json} (h : Clear (.array items)) : ∀ v ∈ items, Clear v :=
  fun v hv => ⟨h.parsed.items v hv, h.keys.items v hv⟩

theorem Clear.entries {entries : List (String × Json)} (h : Clear (.object entries)) :
    ∀ entry ∈ entries, Unambiguous entry.1 ∧ Clear entry.2 := fun entry hmem =>
  ⟨(h.keys.entries entry hmem).1, h.parsed.entries entry hmem, (h.keys.entries entry hmem).2⟩

theorem orderedText_array (item : Json) (rest : List Json) :
    ',' :: (orderedText (.array (item :: rest))).tail = closeItems (item :: rest) := by
  rw [orderedText, closeItems, List.tail_cons]

theorem orderedText_object (entry : String × Json) (rest : List (String × Json)) :
    ',' :: (orderedText (.object (entry :: rest))).tail = closeEntries (entry :: rest) := by
  rw [orderedText, closeEntries, List.tail_cons]

theorem orderedText_array_eq {item : Json} {items : List Json} (hitem : Parsed item)
    {items' : List Json}
    (heq : orderedText (.array (item :: items)) ++ rest = orderedText (.array items') ++ rest') :
    items' ≠ [] := by
  rintro rfl
  rw [orderedText, orderedText, List.cons_append, List.cons_append, List.append_assoc] at heq
  exact orderedText_ne_bracket hitem (List.cons.inj heq).2

theorem orderedText_object_eq {entry : String × Json} {entries entries' : List (String × Json)}
    (heq : orderedText (.object (entry :: entries)) ++ rest = orderedText (.object entries') ++
      rest') : entries' ≠ [] := by
  rintro rfl
  rw [orderedText, orderedText] at heq
  cases (List.cons.inj (List.cons.inj heq).2).1

mutual

theorem orderedText_append_inj : ∀ {v v' : Json}, Clear v → Clear v' →
    ∀ {rest rest' : List Char}, EndsValue rest → EndsValue rest' →
      orderedText v ++ rest = orderedText v' ++ rest' → v = v' ∧ rest = rest'
  | .null, v', hv, hv', rest, rest', _, _, heq => by
    have hkind := kind_eq hv.parsed hv'.parsed heq
    cases v' with
    | null => exact ⟨rfl, List.append_cancel_left heq⟩
    | bool b => cases b <;> cases hkind
    | _ => cases hkind
  | .bool b, v', hv, hv', rest, rest', _, _, heq => by
    have hkind := kind_eq hv.parsed hv'.parsed heq
    cases v' with
    | bool b' =>
      have hsame : b = b' := by cases b <;> cases b' <;> first | rfl | cases hkind
      subst hsame
      exact ⟨rfl, List.append_cancel_left heq⟩
    | _ => cases b <;> cases hkind
  | .number q, v', hv, hv', rest, rest', hrest, hrest', heq => by
    have hkind := kind_eq hv.parsed hv'.parsed heq
    cases v' with
    | number =>
      have hq := hv.parsed.isDouble
      have hq' := hv'.parsed.isDouble
      have hread := readNumber_append (numberValue_numberText hq)
        (isNumberText_numberText hq) hrest
      have hread' := readNumber_append (numberValue_numberText hq')
        (isNumberText_numberText hq') hrest'
      rw [orderedText, orderedText, stringify, stringify] at heq
      rw [heq, hread'] at hread
      obtain ⟨rfl, rfl⟩ := Prod.mk.inj (Option.some.inj hread)
      exact ⟨rfl, rfl⟩
    | bool b => cases b <;> cases hkind
    | _ => cases hkind
  | .string text, v', hv, hv', rest, rest', _, _, heq => by
    have hkind := kind_eq hv.parsed hv'.parsed heq
    cases v' with
    | string =>
      rw [orderedText, orderedText, stringify, stringify, quote, quote, List.cons_append,
        List.cons_append, List.cons_append, List.cons_append, List.append_assoc,
        List.append_assoc] at heq
      have hread := readString_quoted text rest
      rw [← List.singleton_append, (List.cons.inj heq).2, List.singleton_append,
        readString_quoted] at hread
      obtain ⟨rfl, rfl⟩ := Prod.mk.inj (Option.some.inj hread)
      exact ⟨rfl, rfl⟩
    | bool b => cases b <;> cases hkind
    | _ => cases hkind
  | .array items, v', hv, hv', rest, rest', _, _, heq => by
    have hkind := kind_eq hv.parsed hv'.parsed heq
    cases v' with
    | array items' =>
      match items, items' with
      | [], [] => exact ⟨rfl, List.append_cancel_left heq⟩
      | [], item' :: items' =>
        exact absurd rfl
          (orderedText_array_eq (hv'.items item' List.mem_cons_self).parsed heq.symm)
      | item :: items, [] =>
        exact absurd rfl
          (orderedText_array_eq (hv.items item List.mem_cons_self).parsed heq)
      | item :: items, item' :: items' =>
        have htail : closeItems (item :: items) ++ rest =
            closeItems (item' :: items') ++ rest' := by
          rw [← orderedText_array, ← orderedText_array, List.cons_append,
            List.cons_append, ← List.tail_append_of_ne_nil (by rw [orderedText]; nofun), heq,
            List.tail_append_of_ne_nil (by rw [orderedText]; nofun)]
        obtain ⟨hitems, hrest⟩ :=
          closeItems_append_inj (item :: items) hv.items hv'.items htail
        exact ⟨congrArg Json.array hitems, hrest⟩
    | bool b => cases b <;> cases hkind
    | _ => cases hkind
  | .object entries, v', hv, hv', rest, rest', _, _, heq => by
    have hkind := kind_eq hv.parsed hv'.parsed heq
    cases v' with
    | object entries' =>
      match entries, entries' with
      | [], [] => exact ⟨rfl, List.append_cancel_left heq⟩
      | [], entry' :: entries' => exact absurd rfl (orderedText_object_eq heq.symm)
      | entry :: entries, [] => exact absurd rfl (orderedText_object_eq heq)
      | entry :: entries, entry' :: entries' =>
        have htail : closeEntries (entry :: entries) ++ rest =
            closeEntries (entry' :: entries') ++ rest' := by
          rw [← orderedText_object, ← orderedText_object, List.cons_append,
            List.cons_append, ← List.tail_append_of_ne_nil (by rw [orderedText]; nofun), heq,
            List.tail_append_of_ne_nil (by rw [orderedText]; nofun)]
        obtain ⟨hentries, hrest⟩ :=
          closeEntries_append_inj (entry :: entries) hv.entries hv'.entries htail
        exact ⟨congrArg Json.object hentries, hrest⟩
    | bool b => cases b <;> cases hkind
    | _ => cases hkind

theorem closeItems_append_inj : ∀ (items : List Json) {items' : List Json},
    (∀ v ∈ items, Clear v) → (∀ v ∈ items', Clear v) → ∀ {rest rest' : List Char},
      closeItems items ++ rest = closeItems items' ++ rest' → items = items' ∧ rest = rest'
  | [], [], _, _, rest, rest', heq => ⟨rfl, (List.cons.inj heq).2⟩
  | [], _ :: _, _, _, rest, rest', heq => by
    rw [closeItems, closeItems] at heq
    cases (List.cons.inj heq).1
  | _ :: _, [], _, _, rest, rest', heq => by
    rw [closeItems, closeItems] at heq
    cases (List.cons.inj heq).1
  | item :: items, item' :: items', hv, hv', rest, rest', heq => by
    rw [closeItems, closeItems, List.cons_append, List.cons_append, List.append_assoc,
      List.append_assoc] at heq
    obtain ⟨rfl, htail⟩ := orderedText_append_inj (hv item List.mem_cons_self)
      (hv' item' List.mem_cons_self) (endsValue_closeItems _ _) (endsValue_closeItems _ _)
      (List.cons.inj heq).2
    obtain ⟨rfl, rfl⟩ := closeItems_append_inj items
      (fun v h => hv v (List.mem_cons_of_mem _ h))
      (fun v h => hv' v (List.mem_cons_of_mem _ h)) htail
    exact ⟨rfl, rfl⟩

theorem closeEntries_append_inj : ∀ (entries : List (String × Json))
    {entries' : List (String × Json)}, (∀ entry ∈ entries, Unambiguous entry.1 ∧ Clear entry.2) →
      (∀ entry ∈ entries', Unambiguous entry.1 ∧ Clear entry.2) → ∀ {rest rest' : List Char},
        closeEntries entries ++ rest = closeEntries entries' ++ rest' →
          entries = entries' ∧ rest = rest'
  | [], [], _, _, rest, rest', heq => ⟨rfl, (List.cons.inj heq).2⟩
  | [], _ :: _, _, _, rest, rest', heq => by
    rw [closeEntries, closeEntries] at heq
    cases (List.cons.inj heq).1
  | _ :: _, [], _, _, rest, rest', heq => by
    rw [closeEntries, closeEntries] at heq
    cases (List.cons.inj heq).1
  | (key, value) :: entries, (key', value') :: entries', hv, hv', rest, rest', heq => by
    obtain ⟨hkey, hvalue⟩ := hv _ List.mem_cons_self
    obtain ⟨hkey', hvalue'⟩ := hv' _ List.mem_cons_self
    rw [closeEntries, closeEntries, List.cons_append, List.cons_append, List.cons_append,
      List.cons_append, List.append_assoc, List.append_assoc, List.cons_append,
      List.cons_append, List.cons_append, List.cons_append, List.append_assoc,
      List.append_assoc] at heq
    obtain ⟨rfl, htext⟩ := key_append_inj hkey hkey' (List.cons.inj (List.cons.inj heq).2).2
    obtain ⟨rfl, htail⟩ := orderedText_append_inj hvalue hvalue'
      (endsValue_closeEntries _ _) (endsValue_closeEntries _ _) htext
    obtain ⟨rfl, rfl⟩ := closeEntries_append_inj entries
      (fun v h => hv v (List.mem_cons_of_mem _ h))
      (fun v h => hv' v (List.mem_cons_of_mem _ h)) htail
    exact ⟨rfl, rfl⟩

end

/-! ## The text of a body is that of its sorted form -/

theorem isPlain_of_isNumberChar {c : Char} (hc : isNumberChar c = true) : IsPlain c := by
  rw [isNumberChar] at hc
  simp only [Bool.or_eq_true, decide_eq_true_eq] at hc
  rcases hc with (((((hdigit | rfl) | rfl) | rfl) | rfl) | rfl)
  · obtain ⟨hlow, hhigh⟩ := Char.isDigit_iff_toNat.mp hdigit
    rw [show '0'.toNat = 48 from rfl] at hlow
    rw [show '9'.toNat = 57 from rfl] at hhigh
    exact ⟨by omega, by omega, by omega, by omega⟩
  all_goals exact ⟨by decide, by decide, by decide, by decide⟩

theorem trim_numberText {q : ℚ} (hq : IsDouble q) : trim (numberText q) = numberText q :=
  trim_of_isPlain fun c hc => isPlain_of_isNumberChar (isNumberText_numberText hq c hc)

theorem intercalate_items (item : Json) (items : List Json) :
    [','].intercalate ((item :: items).map orderedText) ++ [']'] =
      orderedText item ++ closeItems items := by
  induction items generalizing item with
  | nil => rw [List.map_singleton, List.intercalate_singleton, closeItems]
  | cons next _ ih =>
    rw [List.map_cons, List.map_cons, List.intercalate_cons_cons, List.append_assoc,
      List.append_assoc, ← List.map_cons, ih next, closeItems]
    rfl

/-- An object's parts as the text has them. -/
def part (entry : String × Json) : List Char :=
  '"' :: entry.1.toList ++ '"' :: ':' :: orderedText entry.2

theorem intercalate_parts (entry : String × Json) (entries : List (String × Json)) :
    [','].intercalate ((entry :: entries).map part) ++ ['}'] =
      part entry ++ closeEntries entries := by
  induction entries generalizing entry with
  | nil => rw [List.map_singleton, List.intercalate_singleton, closeEntries]
  | cons next _ ih =>
    rw [List.map_cons, List.map_cons, List.intercalate_cons_cons, List.append_assoc,
      List.append_assoc, ← List.map_cons, ih next, closeEntries, part, part]
    simp

theorem array_text (items : List Json) :
    '[' :: [','].intercalate (items.map orderedText) ++ [']'] = orderedText (.array items) := by
  cases items with
  | nil => rw [orderedText]; rfl
  | cons => rw [List.cons_append, intercalate_items, orderedText]

theorem object_text (entries : List (String × Json)) :
    '{' :: [','].intercalate (entries.map part) ++ ['}'] = orderedText (.object entries) := by
  cases entries with
  | nil => rw [orderedText]; rfl
  | cons =>
    rw [List.cons_append, intercalate_parts, orderedText, part]
    simp

theorem lookup_canonicalizeEntries (entries : List (String × Json)) (key : String) :
    (canonicalizeEntries entries).lookup key = (entries.lookup key).map canonicalizeBody := by
  induction entries with
  | nil =>
    rw [canonicalizeEntries]
    rfl
  | cons entry _ ih =>
    obtain ⟨k, value⟩ := entry
    rw [canonicalizeEntries, List.lookup_cons, List.lookup_cons]
    cases key == k with
    | true => rfl
    | false => exact ih

mutual

theorem canonicalizeBody_eq : ∀ {v : Json}, Parsed v →
    canonicalizeBody v = orderedText (sortKeys UnitsLe v)
  | .null, _ => by rw [canonicalizeBody, sortKeys, orderedText, stringify]; rfl
  | .bool true, _ => by rw [canonicalizeBody, sortKeys, orderedText, stringify]; rfl
  | .bool false, _ => by rw [canonicalizeBody, sortKeys, orderedText, stringify]; rfl
  | .number q, h => by
    rw [canonicalizeBody, sortKeys, orderedText, stringify, trim_numberText h.isDouble]
  | .string text, _ => by
    rw [canonicalizeBody, sortKeys, orderedText, stringify, trim_quote]
  | .array items, h => by
    rw [canonicalizeBody, canonicalizeItems_eq items h.items, array_text, sortKeys]
  | .object entries, h => by
    have hvalues := canonicalizeEntries_eq entries h.entries
    rw [canonicalizeBody, sortKeys, ← object_text, List.map_map]
    congr 3
    refine List.map_congr_left fun key hkey => ?_
    obtain ⟨value, hvalue, hmem⟩ := exists_lookup (mem_insertionSort_keys.mp hkey)
    rw [lookup_canonicalizeEntries, hvalue, Option.map_some, Function.comp_apply, part,
      lookup_sortEntries, hvalue]
    dsimp only [Option.map_some, Option.getD_some]
    rw [hvalues _ hmem]

theorem canonicalizeItems_eq : ∀ items : List Json, (∀ item ∈ items, Parsed item) →
    canonicalizeItems items = (sortItems UnitsLe items).map orderedText
  | [], _ => by rw [canonicalizeItems, sortItems]; rfl
  | item :: rest, h => by
    rw [canonicalizeItems, sortItems, List.map_cons,
      canonicalizeBody_eq (h item List.mem_cons_self),
      canonicalizeItems_eq rest fun v hv => h v (List.mem_cons_of_mem _ hv)]

theorem canonicalizeEntries_eq : ∀ entries : List (String × Json),
    (∀ entry ∈ entries, Parsed entry.2) → ∀ entry ∈ entries,
      canonicalizeBody entry.2 = orderedText (sortKeys UnitsLe entry.2)
  | [], _ => fun _ hmem => absurd hmem List.not_mem_nil
  | _ :: rest, h => List.forall_mem_cons.mpr
      ⟨canonicalizeBody_eq (h _ List.mem_cons_self),
        canonicalizeEntries_eq rest fun v hv => h v (List.mem_cons_of_mem _ hv)⟩

end

mutual

theorem Clear.sortKeys : ∀ {v : Json}, Clear v → Clear (sortKeys UnitsLe v)
  | .null, h => by rwa [JsonOrder.sortKeys]
  | .bool _, h => by rwa [JsonOrder.sortKeys]
  | .number _, h => by rwa [JsonOrder.sortKeys]
  | .string _, h => by rwa [JsonOrder.sortKeys]
  | .array items, h => by
    rw [JsonOrder.sortKeys]
    have hitems := clear_sortItems items h.items
    exact ⟨.array fun v hv => (hitems v hv).parsed, .array fun v hv => (hitems v hv).keys⟩
  | .object entries, h => by
    rw [JsonOrder.sortKeys]
    have hvalues := clear_sortEntries entries fun entry hmem => (h.entries entry hmem).2
    have hentry : ∀ entry ∈ ((keys entries).insertionSort UnitsLe).map fun key =>
        (key, ((sortEntries UnitsLe entries).lookup key).getD .null),
        Unambiguous entry.1 ∧ Clear entry.2 := by
      intro entry hentry
      obtain ⟨key, hkey, rfl⟩ := List.mem_map.mp hentry
      obtain ⟨_, hvalue, hmem⟩ := exists_lookup (mem_insertionSort_keys.mp hkey)
      rw [lookup_sortEntries, hvalue]
      exact ⟨(h.entries _ hmem).1, hvalues _ hmem⟩
    refine ⟨.object ?_ fun entry hmem => (hentry entry hmem).2.parsed,
      .object (fun entry hmem => (hentry entry hmem).1)
        fun entry hmem => (hentry entry hmem).2.keys⟩
    rw [keys_sortKeys]
    exact (List.perm_insertionSort UnitsLe _).nodup_iff.mpr h.parsed.nodup

theorem clear_sortItems : ∀ items : List Json, (∀ item ∈ items, Clear item) →
    ∀ item ∈ sortItems UnitsLe items, Clear item
  | [], _ => by
    rw [sortItems]
    exact fun _ hmem => absurd hmem List.not_mem_nil
  | item :: rest, h => by
    rw [sortItems]
    exact List.forall_mem_cons.mpr ⟨(h item List.mem_cons_self).sortKeys,
      clear_sortItems rest fun v hv => h v (List.mem_cons_of_mem _ hv)⟩

theorem clear_sortEntries : ∀ entries : List (String × Json),
    (∀ entry ∈ entries, Clear entry.2) → ∀ entry ∈ entries,
      Clear (JsonOrder.sortKeys UnitsLe entry.2)
  | [], _ => fun _ hmem => absurd hmem List.not_mem_nil
  | entry :: rest, h => List.forall_mem_cons.mpr
      ⟨(h entry List.mem_cons_self).sortKeys,
        clear_sortEntries rest fun v hv => h v (List.mem_cons_of_mem _ hv)⟩

end

/-! ## Bodies with the same text -/

theorem canonicalizeBody_congr {a b : Json} (ha : Parsed a) (hb : Parsed b)
    (hsame : SameUpToOrder a b) : canonicalizeBody a = canonicalizeBody b := by
  rw [canonicalizeBody_eq ha, canonicalizeBody_eq hb, (sortKeys_eq_iff ha hb).mpr hsame]

theorem same_of_canonicalizeBody_eq {a b : Json} (ha : Clear a) (hb : Clear b)
    (heq : canonicalizeBody a = canonicalizeBody b) : SameUpToOrder a b := by
  rw [canonicalizeBody_eq ha.parsed, canonicalizeBody_eq hb.parsed] at heq
  have hends : EndsValue [] := fun c hc => by cases hc
  have hsorted := orderedText_append_inj ha.sortKeys hb.sortKeys hends hends
    (congrArg (· ++ []) heq)
  exact (sortKeys_eq_iff ha.parsed hb.parsed).mp hsorted.1

/-- Two bodies whose keys end where they should have one text, and one fingerprint, exactly
when they are equal up to the order of keys. -/
theorem canonicalizeBody_eq_iff {a b : Json} (ha : Parsed a) (hb : Parsed b)
    (hkeys : EveryKey Unambiguous a) (hkeys' : EveryKey Unambiguous b) :
    (canonicalizeBody a = canonicalizeBody b ↔ SameUpToOrder a b) ∧
      ∀ sha256 : String → String, Function.Injective sha256 →
        (hashBody sha256 a = hashBody sha256 b ↔ SameUpToOrder a b) := by
  have htext : canonicalizeBody a = canonicalizeBody b ↔ SameUpToOrder a b :=
    ⟨same_of_canonicalizeBody_eq ⟨ha, hkeys⟩ ⟨hb, hkeys'⟩, canonicalizeBody_congr ha hb⟩
  refine ⟨htext, fun sha256 hfree => ?_⟩
  rw [hashBody, hashBody, hfree.eq_iff, String.ofList_inj, htext]

/-! ### Two bodies with one text -/

def twoTexts (first second : String × String) : Json :=
  .object [(first.1, .string first.2), (second.1, .string second.2)]

theorem twoTexts_parsed {first second : String × String} (hne : first.1 ≠ second.1) :
    Parsed (twoTexts first second) :=
  .object (List.nodup_cons.mpr ⟨by simpa using hne, List.nodup_singleton _⟩) (by
    intro entry hmem
    rcases List.mem_cons.mp hmem with rfl | hmem
    · exact .string _
    · rw [List.mem_singleton.mp hmem]
      exact .string _)

theorem twoTexts_everyKey {p : String → Prop} {first second : String × String}
    (hfirst : p first.1) (hsecond : p second.1) : EveryKey p (twoTexts first second) := by
  refine .object ?_ ?_
  · intro entry hmem
    rcases List.mem_cons.mp hmem with rfl | hmem
    · exact hfirst
    · rw [List.mem_singleton.mp hmem]
      exact hsecond
  · intro entry hmem
    rcases List.mem_cons.mp hmem with rfl | hmem
    · exact .string _
    · rw [List.mem_singleton.mp hmem]
      exact .string _

theorem canonicalizeBody_swapped :
    canonicalizeBody (twoTexts ("sender", "G") ("amount", "10")) =
      canonicalizeBody (twoTexts ("amount", "10") ("sender", "G")) := by
  have hplain : Unambiguous "sender" ∧ Unambiguous "amount" := by
    constructor <;> (rw [Unambiguous]; decide)
  exact (canonicalizeBody_eq_iff (twoTexts_parsed (by decide)) (twoTexts_parsed (by decide))
    (twoTexts_everyKey hplain.1 hplain.2) (twoTexts_everyKey hplain.2 hplain.1)).1.mpr
    ⟨List.Perm.swap _ _ _, ⟨.string "G", rfl, rfl⟩, ⟨.string "10", rfl, rfl⟩, trivial⟩

/-- A key that goes on behind a quotation mark and a colon takes the place of two entries. -/
theorem canonicalizeBody_confused : ∃ a b : Json, Parsed a ∧ Parsed b ∧
    canonicalizeBody a = canonicalizeBody b ∧ ¬ SameUpToOrder a b ∧
      ∀ sha256, hashBody sha256 a = hashBody sha256 b := by
  have htext : canonicalizeBody (.object [("a\":\"1\",\"b", .string "2")]) =
      canonicalizeBody (twoTexts ("a", "1") ("b", "2")) := by decide +kernel
  have hkeys : (keys [("a\":\"1\",\"b", Json.string "2")]).Nodup := List.nodup_singleton _
  refine ⟨_, _, .object hkeys ?_, twoTexts_parsed (by decide), htext, ?_, ?_⟩
  · intro entry hmem
    rw [List.mem_singleton.mp hmem]
    exact .string _
  · intro hsame
    exact absurd hsame.1.length_eq (by decide)
  · intro sha256
    rw [hashBody, hashBody, htext]

end Fluxora.Idempotency
