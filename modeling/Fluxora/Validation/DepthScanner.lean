/-
# The depth of a body while it arrives

The scanner reads the bytes of a JSON body in the chunks they come in. It knows strings, and
escapes in them, only to pass over the brackets there.
-/

import Fluxora.Lib.JsonParse

namespace Fluxora.Validation

open Lib Lib.JsonGrammar

/-! ## The scanner -/

structure JsonDepthScanner where
  maxDepth : ℕ
  depth : ℕ := 0
  inString : Bool := false
  escaped : Bool := false
  overflowed : Bool := false

namespace JsonDepthScanner

/-- One byte of a chunk. -/
def scanByte (s : JsonDepthScanner) (c : UInt8) : JsonDepthScanner :=
  if s.inString then
    if s.escaped then { s with escaped := false }
    else if c = 0x5c then { s with escaped := true }
    else if c = 0x22 then { s with inString := false }
    else s
  else if c = 0x22 then { s with inString := true }
  else if c = 0x7b ∨ c = 0x5b then
    { s with depth := s.depth + 1, overflowed := s.maxDepth < s.depth + 1 }
  else if c = 0x7d ∨ c = 0x5d then { s with depth := s.depth - 1 }
  else s

/-- The loop over the bytes of a chunk, which an overflow ends. -/
def scanFrom : JsonDepthScanner → List UInt8 → JsonDepthScanner
  | s, [] => s
  | s, c :: rest => if (s.scanByte c).overflowed then s.scanByte c else (s.scanByte c).scanFrom rest

/-- Feed the next raw chunk. -/
def push (s : JsonDepthScanner) (chunk : List UInt8) : JsonDepthScanner × Bool :=
  if s.overflowed then (s, false) else (s.scanFrom chunk, !(s.scanFrom chunk).overflowed)

/-- The scanner after some chunks, and what it has answered to them. -/
def pushAll (s : JsonDepthScanner) : List (List UInt8) → JsonDepthScanner × List Bool
  | [] => (s, [])
  | chunk :: rest =>
    let last := (s.push chunk).1.pushAll rest
    (last.1, (s.push chunk).2 :: last.2)

/-! ## Chunks -/

variable {s : JsonDepthScanner} {front back : List UInt8}

theorem push_snd (s : JsonDepthScanner) (chunk : List UInt8) :
    (s.push chunk).2 = !(s.push chunk).1.overflowed := by
  rw [push]
  split_ifs with h
  · simp [h]
  · rfl

theorem push_of_overflowed (h : s.overflowed = true) (chunk : List UInt8) :
    (s.push chunk).1 = s := by
  simp [push, h]

theorem push_cons (h : s.overflowed = false) (c : UInt8) (rest : List UInt8) :
    (s.push (c :: rest)).1 = ((s.scanByte c).push rest).1 := by
  simp only [push, h, scanFrom]
  split_ifs <;> simp_all

theorem push_append (s : JsonDepthScanner) (front back : List UInt8) :
    (s.push (front ++ back)).1 = ((s.push front).1.push back).1 := by
  induction front generalizing s with
  | nil => cases h : s.overflowed <;> simp [push, scanFrom, h]
  | cons c rest ih =>
    cases h : s.overflowed with
    | true => simp only [push_of_overflowed h]
    | false => rw [List.cons_append, push_cons h, push_cons h, ih]

theorem pushAll_eq (h : s.overflowed = false) (chunks : List (List UInt8)) :
    (s.pushAll chunks).1 = (s.push chunks.flatten).1 ∧
      (false ∈ (s.pushAll chunks).2 ↔ (s.push chunks.flatten).1.overflowed = true) := by
  induction chunks generalizing s with
  | nil => simp [pushAll, push, h, scanFrom]
  | cons chunk rest ih =>
    rw [List.flatten_cons, push_append, pushAll, List.mem_cons, push_snd]
    cases hnext : (s.push chunk).1.overflowed with
    | false =>
      obtain ⟨hlast, hanswers⟩ := ih hnext
      exact ⟨hlast, by simpa using hanswers⟩
    | true =>
      have hstays : ∀ rest, ((s.push chunk).1.pushAll rest).1 = (s.push chunk).1 := by
        intro rest
        induction rest with
        | nil => rfl
        | cons _ _ ih =>
          rw [pushAll, push_of_overflowed hnext]
          exact ih
      rw [push_of_overflowed hnext]
      exact ⟨hstays rest, iff_of_true (Or.inl rfl) hnext⟩

end JsonDepthScanner

/-! ## Texts -/

namespace JsonDepthScanner

/-- The scanner after the bytes of a text. -/
def read (s : JsonDepthScanner) (text : List Char) : JsonDepthScanner :=
  (s.push (Utf8.bytes text)).1

/-- Between two tokens, in so many containers. -/
def outside (maxDepth depth : ℕ) : JsonDepthScanner := { maxDepth, depth }

/-- In a string, in so many containers. -/
def inside (maxDepth depth : ℕ) : JsonDepthScanner := { maxDepth, depth, inString := true }

variable {m k : ℕ}

theorem read_append (s : JsonDepthScanner) (text text' : List Char) :
    s.read (text ++ text') = (s.read text).read text' := by
  rw [read, Utf8.bytes_append, push_append]
  rfl

theorem read_nil (s : JsonDepthScanner) : s.read [] = s := by
  cases h : s.overflowed <;> simp [read, Utf8.bytes, push, scanFrom, h]

variable {c : Char}

theorem read_singleton {s : JsonDepthScanner} (h : s.overflowed = false) (hc : c.toNat < 128) :
    s.read [c] = s.scanByte (UInt8.ofNat c.toNat) := by
  have hbytes : Utf8.bytes [c] = [UInt8.ofNat c.toNat] := by
    rw [Utf8.bytes, List.flatMap_singleton, String.utf8EncodeChar]
    exact if_pos (by simpa using Nat.le_of_lt_succ hc)
  rw [read, hbytes, push_cons h]
  cases hnext : (s.scanByte (UInt8.ofNat c.toNat)).overflowed <;> simp [push, scanFrom, hnext]

/-- Characters that mean nothing between tokens. -/
def IsInert (c : Char) : Prop := c.toNat < 128 ∧ c.toNat ∉ [0x22, 0x5b, 0x5d, 0x7b, 0x7d]

theorem read_inert {text : List Char} (h : ∀ c ∈ text, IsInert c) :
    (outside m k).read text = outside m k := by
  induction text with
  | nil => exact read_nil _
  | cons c rest ih =>
    obtain ⟨⟨hascii, hother⟩, hrest⟩ := List.forall_mem_cons.mp h
    have hbyte : UInt8.ofNat c.toNat ∉ ([0x22, 0x5b, 0x5d, 0x7b, 0x7d] : List UInt8) := by
      intro hmem
      have hvalue := List.mem_map.mpr ⟨_, hmem, UInt8.toNat_ofNat'⟩
      rw [Nat.mod_eq_of_lt (by omega)] at hvalue
      exact hother hvalue
    have hstep : (outside m k).scanByte (UInt8.ofNat c.toNat) = outside m k := by
      simp only [List.mem_cons, List.not_mem_nil, or_false, not_or] at hbyte
      simp [scanByte, outside, hbyte]
    rw [← List.singleton_append, read_append, read_singleton rfl hascii, hstep, ih hrest]

theorem push_inside {bytes : List UInt8} (h : ∀ c ∈ bytes, c ≠ 0x22 ∧ c ≠ 0x5c) :
    ((inside m k).push bytes).1 = inside m k := by
  induction bytes with
  | nil => rfl
  | cons c rest ih =>
    obtain ⟨⟨hquote, hbackslash⟩, hrest⟩ := List.forall_mem_cons.mp h
    have hstep : (inside m k).scanByte c = inside m k := by
      simp [scanByte, inside, hquote, hbackslash]
    rw [push_cons rfl, hstep, ih hrest]

theorem read_plain (hquote : c ≠ '"') (hbackslash : c ≠ '\\') :
    (inside m k).read [c] = inside m k := by
  rw [read, Utf8.bytes, List.flatMap_singleton]
  refine push_inside fun byte hbyte => ?_
  have hne : ∀ d : Char, d.toNat < 128 → c ≠ d → byte ≠ UInt8.ofNat d.toNat := by
    rintro d hd hcd rfl
    rcases Utf8.byte_utf8EncodeChar hbyte with heq | hhigh
    · rw [UInt8.toNat_ofNat', Nat.mod_eq_of_lt (by omega)] at heq
      exact hcd (Char.toNat_inj.mp heq).symm
    · rw [UInt8.toNat_ofNat', Nat.mod_eq_of_lt (by omega)] at hhigh
      omega
  exact ⟨hne '"' (by decide) hquote, hne '\\' (by decide) hbackslash⟩

theorem read_escaped (hc : c.toNat < 128) : (inside m k).read ['\\', c] = inside m k := by
  have hfirst : (inside m k).read ['\\'] = { inside m k with escaped := true } :=
    read_singleton rfl (by decide)
  rw [← List.singleton_append, read_append, hfirst, read_singleton rfl hc]
  rfl

theorem read_stringBody {body : List Char} (h : IsStringBody body) :
    (inside m k).read body = inside m k := by
  induction h with
  | nil => exact read_nil _
  | plain _ hquote hbackslash _ ih =>
    rw [← List.singleton_append, read_append, read_plain hquote hbackslash, ih]
  | @escape c rest hc _ ih =>
    have hascii : c.toNat < 128 := by
      unfold JsonParse.unescape at hc
      split at hc <;> first | decide | cases hc
    change (inside m k).read (['\\', c] ++ rest) = _
    rw [read_append, read_escaped hascii, ih]
  | @unicode a b c d rest hdigits _ ih =>
    have hplain : ∀ x, (JsText.hexValue x).isSome = true → (inside m k).read [x] = inside m k := by
      intro x hx
      apply read_plain
      · rintro rfl
        exact absurd hx (by decide)
      · rintro rfl
        exact absurd hx (by decide)
    obtain ⟨_, hdigits⟩ := Option.isSome_iff_exists.mp hdigits
    obtain ⟨_, ha, hdigits⟩ := Option.bind_eq_some_iff.mp hdigits
    obtain ⟨_, hb, hdigits⟩ := Option.bind_eq_some_iff.mp hdigits
    obtain ⟨_, hc, hdigits⟩ := Option.bind_eq_some_iff.mp hdigits
    obtain ⟨_, hd, -⟩ := Option.bind_eq_some_iff.mp hdigits
    change (inside m k).read (['\\', 'u'] ++ ([a] ++ ([b] ++ ([c] ++ ([d] ++ rest))))) = _
    rw [read_append, read_escaped (by decide), read_append, hplain a (by rw [ha]; rfl),
      read_append, hplain b (by rw [hb]; rfl), read_append, hplain c (by rw [hc]; rfl),
      read_append, hplain d (by rw [hd]; rfl), ih]

end JsonDepthScanner

/-! ## Nesting -/

open JsonDepthScanner

/-- A text between tokens is passed over if its nesting is allowed, and stops the scanner
otherwise. -/
def Nests (depth : ℕ) (text : List Char) : Prop :=
  ∀ m k, k ≤ m → (k + depth ≤ m → (outside m k).read text = outside m k) ∧
    (m < k + depth → ((outside m k).read text).overflowed = true)

theorem read_of_overflowed {s : JsonDepthScanner} (h : s.overflowed = true) (text : List Char) :
    (s.read text).overflowed = true := by
  rw [JsonDepthScanner.read, push_of_overflowed h, h]

theorem nests_zero {text : List Char} (h : ∀ m k, (outside m k).read text = outside m k) :
    Nests 0 text := fun m k hle => ⟨fun _ => h m k, fun hlt => absurd hlt (by omega)⟩

theorem Nests.append {depth depth' : ℕ} {text text' : List Char} (h : Nests depth text)
    (h' : Nests depth' text') : Nests (max depth depth') (text ++ text') := by
  intro m k hle
  rw [read_append]
  apply And.intro
  · intro hall
    rw [(h m k hle).1 (by omega), (h' m k hle).1 (by omega)]
  · intro hover
    by_cases hfirst : m < k + depth
    · exact read_of_overflowed ((h m k hle).2 hfirst) text'
    · rw [(h m k hle).1 (by omega)]
      exact (h' m k hle).2 (by omega)

theorem Nests.container {depth : ℕ} {text : List Char} (h : Nests depth text) {c c' : Char}
    (hopen : c = '[' ∨ c = '{') (hclose : c' = ']' ∨ c' = '}') :
    Nests (depth + 1) (c :: text ++ [c']) := by
  intro m k hle
  have hfirst : (outside m k).read [c] = { outside m (k + 1) with overflowed := m < k + 1 } := by
    rcases hopen with rfl | rfl <;> exact read_singleton rfl (by decide)
  have hlast : (outside m (k + 1)).read [c'] = outside m k := by
    rcases hclose with rfl | rfl <;> exact read_singleton rfl (by decide)
  rw [← List.singleton_append, List.append_assoc, read_append, read_append, hfirst]
  by_cases hroom : m < k + 1
  · refine ⟨fun hall => absurd hall (by omega), fun _ => ?_⟩
    exact read_of_overflowed (read_of_overflowed (decide_eq_true hroom) text) [c']
  · have hinner : { outside m (k + 1) with overflowed := m < k + 1 } = outside m (k + 1) := by
      simp [outside, hroom]
    rw [hinner]
    apply And.intro
    · intro hall
      rw [(h m (k + 1) (by omega)).1 (by omega), hlast]
    · intro hover
      exact read_of_overflowed ((h m (k + 1) (by omega)).2 (by omega)) [c']

theorem nests_blank {text : List Char} (h : IsBlank text) : Nests 0 text := by
  refine nests_zero fun m k => read_inert fun c hc => ?_
  have hblank := h c hc
  simp only [JsonParse.isBlank, Bool.or_eq_true, decide_eq_true_eq] at hblank
  rcases hblank with ((rfl | rfl) | rfl) | rfl <;> exact ⟨by decide, by decide⟩

theorem nests_string {text : List Char} (h : IsString text) : Nests 0 text := by
  obtain ⟨body, hbody, rfl⟩ := h
  refine nests_zero fun m k => ?_
  have hfirst : (outside m k).read ['"'] = inside m k := read_singleton rfl (by decide)
  have hlast : (inside m k).read ['"'] = outside m k := read_singleton rfl (by decide)
  rw [← List.singleton_append, List.append_assoc, read_append, read_append, hfirst,
    read_stringBody hbody, hlast]

theorem nests_number {text : List Char} (h : IsNumber text) : Nests 0 text := by
  refine nests_zero fun m k => read_inert fun c hc => ?_
  have hnumber := h.1 c hc
  simp only [JsonParse.isNumberChar, Bool.or_eq_true, decide_eq_true_eq] at hnumber
  obtain ((((hdigit | rfl) | rfl) | rfl) | rfl) | rfl := hnumber
  · obtain ⟨hzero, hnine⟩ : 48 ≤ c.toNat ∧ c.toNat ≤ 57 := Char.isDigit_iff_toNat.mp hdigit
    exact ⟨by omega, by simp; omega⟩
  all_goals exact ⟨by decide, by decide⟩

theorem Derives.nests {phrase : Phrase} {depth : ℕ} {text : List Char}
    (h : Derives phrase depth text) : Nests depth text := by
  have hcolon : Nests 0 [':'] := nests_zero fun m k => read_inert (by simp [IsInert])
  have hcomma : Nests 0 [','] := nests_zero fun m k => read_inert (by simp [IsInert])
  induction h with
  | null | true | false => exact nests_zero fun m k => read_inert (by simp [IsInert])
  | number h => exact nests_number h
  | string h => exact nests_string h
  | emptyArray h => exact (nests_blank h).container (Or.inl rfl) (Or.inl rfl)
  | array _ ih => exact ih.container (Or.inl rfl) (Or.inl rfl)
  | emptyObject h => exact (nests_blank h).container (Or.inr rfl) (Or.inr rfl)
  | object _ ih => exact ih.container (Or.inr rfl) (Or.inr rfl)
  | element hbefore _ hafter ih =>
    simpa using ((nests_blank hbefore).append ih).append (nests_blank hafter)
  | member hbefore hkey hafter _ ih =>
    simpa using (((((nests_blank hbefore).append (nests_string hkey)).append
      (nests_blank hafter)).append hcolon).append ih)
  | more _ _ _ ih ih' => simpa using (ih.append hcomma).append ih'

/-- **The scanner stops on the texts that are nested too deeply**, and on no others, wherever
their bytes were cut: it has overflowed, and it has refused a chunk. What it makes of bytes is
never a matter of the cuts. -/
theorem jsonDepthScanner_overflow_iff {depth : ℕ} {text : List Char} (h : IsJsonText depth text)
    (maxDepth : ℕ) (chunks : List (List UInt8)) (hcut : chunks.flatten = Utf8.bytes text) :
    ((pushAll { maxDepth } chunks).1.overflowed = true ↔ maxDepth < depth) ∧
      (false ∈ (pushAll { maxDepth } chunks).2 ↔ maxDepth < depth) ∧
      ∀ other : List (List UInt8), other.flatten = chunks.flatten →
        (pushAll { maxDepth } other).1 = (pushAll { maxDepth } chunks).1 := by
  obtain ⟨hlast, hanswers⟩ := pushAll_eq (s := { maxDepth }) rfl chunks
  have hnests := Derives.nests h maxDepth 0 (Nat.zero_le _)
  rw [Nat.zero_add] at hnests
  have hover : ((pushAll { maxDepth } chunks).1.overflowed = true ↔ maxDepth < depth) := by
    rw [hlast, hcut]
    change ((outside maxDepth 0).read text).overflowed = true ↔ _
    apply Iff.intro
    · intro hstopped
      by_contra hroom
      rw [hnests.1 (not_lt.mp hroom)] at hstopped
      cases hstopped
    · exact hnests.2
  refine ⟨hover, ?_, fun other hsame => ?_⟩
  · rw [hanswers, ← hlast, hover]
  · rw [hlast, (pushAll_eq (s := { maxDepth }) rfl other).1, hsame]

/-- The text `["\""]` in two chunks, cut behind the backslash. -/
theorem jsonDepthScanner_overflow_iff_quote :
    IsJsonText 1 "[\"\\\"\"]".toList ∧
      ((pushAll { maxDepth := 0 } [[0x5b, 0x22, 0x5c], [0x22, 0x22, 0x5d]]).1.overflowed = true ↔
        0 < 1) := by
  have hblank : IsBlank [] := fun _ h => absurd h List.not_mem_nil
  have hstring : IsString ['"', '\\', '"', '"'] := ⟨['\\', '"'], .escape rfl .nil, rfl⟩
  have htext : IsJsonText 1 ['[', '"', '\\', '"', '"', ']'] :=
    .element hblank (.array (.element hblank (.string hstring) hblank)) hblank
  exact ⟨htext, (jsonDepthScanner_overflow_iff htext 0 _ (by decide)).1⟩

end Fluxora.Validation
