/-
# The text of a flat JSON object

What `JSON.stringify` prints for a string and for an object whose values have been printed
already. Texts of plain characters are printed between quotes as they are.
-/

import Fluxora.Lib.JsText

namespace Fluxora.Lib.JsonText

/-! ## Strings -/

/-- Two hexadecimal digits. -/
def hexByte (n : ℕ) : List Char := [Nat.digitChar (n / 16), Nat.digitChar (n % 16)]

/-- A character inside a JSON string. -/
def escape (c : Char) : List Char :=
  if c.toNat = 34 then ['\\', '"']
  else if c.toNat = 92 then ['\\', '\\']
  else if c.toNat = 8 then ['\\', 'b']
  else if c.toNat = 9 then ['\\', 't']
  else if c.toNat = 10 then ['\\', 'n']
  else if c.toNat = 12 then ['\\', 'f']
  else if c.toNat = 13 then ['\\', 'r']
  else if c.toNat < 32 then ['\\', 'u', '0', '0'] ++ hexByte c.toNat
  else [c]

def quote (text : List Char) : List Char := '"' :: text.flatMap escape ++ ['"']

/-- A character from the plus sign to the small z, without the comma and the
backslash. Letters, digits, signs and the point are plain. -/
def IsPlain (c : Char) : Prop :=
  43 ≤ c.toNat ∧ c.toNat ≤ 122 ∧ c.toNat ≠ 44 ∧ c.toNat ≠ 92

theorem escape_of_isPlain {c : Char} (h : IsPlain c) : escape c = [c] := by
  obtain ⟨hlow, hhigh, _, hbackslash⟩ := h
  unfold escape
  repeat rw [if_neg (by omega)]

variable {text : List Char}

theorem quote_of_isPlain (h : ∀ c ∈ text, IsPlain c) : quote text = '"' :: text ++ ['"'] := by
  have hsame : text.flatMap escape = text := by
    induction text with
    | nil => rfl
    | cons c _ ih =>
      rw [List.flatMap_cons, escape_of_isPlain (h c List.mem_cons_self),
        ih fun d hd => h d (List.mem_cons_of_mem _ hd)]
      rfl
  rw [quote, hsame]

theorem quote_inj {text' : List Char} (h : ∀ c ∈ text, IsPlain c) (h' : ∀ c ∈ text', IsPlain c)
    (heq : quote text = quote text') : text = text' := by
  rw [quote_of_isPlain h, quote_of_isPlain h'] at heq
  exact List.append_cancel_right (List.cons.inj heq).2

theorem comma_notMem_of_isPlain (h : ∀ c ∈ text, IsPlain c) : ',' ∉ text :=
  fun hmem => (h ',' hmem).2.2.1 rfl

theorem comma_notMem_quote (h : ∀ c ∈ text, IsPlain c) : ',' ∉ quote text := by
  rw [quote_of_isPlain h]
  intro hmem
  rcases List.mem_append.mp hmem with hfront | hlast
  · rcases List.mem_cons.mp hfront with hquote | htext
    · exact absurd hquote (by decide)
    · exact comma_notMem_of_isPlain h htext
  · exact absurd (List.mem_singleton.mp hlast) (by decide)

/-! ## Trimming what has been printed -/

theorem not_whiteSpace_of_isPlain {c : Char} (h : IsPlain c) : JsText.isWhiteSpace c = false := by
  obtain ⟨hlow, hhigh, _, _⟩ := h
  simp [JsText.isWhiteSpace]
  omega

theorem trim_eq_self (hhead : ∀ c ∈ text.head?, JsText.isWhiteSpace c = false)
    (hlast : ∀ c ∈ text.getLast?, JsText.isWhiteSpace c = false) : JsText.trim text = text := by
  cases text with
  | nil => rfl
  | cons c =>
    rw [JsText.trim, List.dropWhile_cons_of_neg (by simp [hhead c rfl]),
      List.rdropWhile_eq_self_iff]
    intro hne
    rw [hlast _ (List.getLast?_eq_getLast_of_ne_nil hne)]
    exact Bool.false_ne_true

theorem trim_quote (text : List Char) : JsText.trim (quote text) = quote text := by
  apply trim_eq_self
  · intro c hc
    cases hc
    rfl
  · intro c hc
    have hquote : (quote text).getLast? = some '"' := by
      rw [quote, List.getLast?_append]
      rfl
    rw [hquote] at hc
    cases hc
    rfl

theorem trim_of_isPlain (h : ∀ c ∈ text, IsPlain c) : JsText.trim text = text :=
  trim_eq_self (fun c hc => not_whiteSpace_of_isPlain (h c (List.mem_of_head? hc)))
    fun c hc => not_whiteSpace_of_isPlain (h c (List.mem_of_getLast? hc))

/-! ## Objects -/

/-- A property with its key between quotes. -/
def property (entry : String × List Char) : List Char :=
  '"' :: entry.1.toList ++ '"' :: ':' :: entry.2

/-- An object of properties that have been printed. -/
def object (entries : List (String × List Char)) : List Char :=
  '{' :: [','].intercalate (entries.map property) ++ ['}']

theorem object_inj {entries entries' : List (String × List Char)}
    (hkeys : entries.map Prod.fst = entries'.map Prod.fst)
    (hcomma : ∀ entry ∈ entries, ',' ∉ property entry)
    (hcomma' : ∀ entry ∈ entries', ',' ∉ property entry)
    (heq : object entries = object entries') : entries = entries' := by
  have hjoined := List.append_cancel_right (List.cons.inj heq).2
  have hread : ∀ {printed : List (String × List Char)}, printed ≠ [] →
      (∀ entry ∈ printed, ',' ∉ property entry) →
      List.splitOn ',' ([','].intercalate (printed.map property)) = printed.map property := by
    intro printed hne hplain
    apply List.splitOn_intercalate ','
    · intro text htext
      obtain ⟨entry, hentry, rfl⟩ := List.mem_map.mp htext
      exact hplain entry hentry
    · simpa using hne
  have hparts : entries.map property = entries'.map property := by
    cases entries with
    | nil =>
      cases entries' with
      | nil => rfl
      | cons => cases hkeys
    | cons =>
      cases entries' with
      | nil => cases hkeys
      | cons =>
        rw [← hread (List.cons_ne_nil _ _) hcomma, ← hread (List.cons_ne_nil _ _) hcomma',
          hjoined]
  -- equal keys are cancelled one by one
  clear hread hjoined hcomma hcomma' heq
  induction entries generalizing entries' with
  | nil =>
    cases entries' with
    | nil => rfl
    | cons => cases hkeys
  | cons first _ ih =>
    cases entries' with
    | nil => cases hkeys
    | cons first' =>
      obtain ⟨hkey, hkeys'⟩ := List.cons.inj hkeys
      obtain ⟨hprinted, hparts'⟩ := List.cons.inj hparts
      have hvalue : first.2 = first'.2 := by
        rw [property, property, hkey] at hprinted
        exact (List.cons.inj (List.cons.inj (List.append_cancel_left hprinted)).2).2
      rw [ih hkeys' hparts', Prod.ext hkey hvalue]

end Fluxora.Lib.JsonText
