/-
# Backtracking patterns

A pattern is tried at a place of a text. It may match there in several ways, which are listed in
the order in which a backtracking matcher tries them: the longest repetition first, the left
alternative first. The match is the first way.
-/

import Mathlib.Data.List.Infix
import Mathlib.Data.List.TakeWhile

namespace Fluxora.Lib

universe u

variable {α : Type u}

/-- A place of a text: what is before it, the last symbol first, what is behind it, and what
the groups have read on the way. A group that has read nothing is empty. -/
structure Place (α : Type u) where
  before : List α
  rest : List α
  groups : ℕ → List α

namespace Place

def advance (place : Place α) (n : ℕ) : Place α :=
  { place with
    before := (place.rest.take n).reverse ++ place.before
    rest := place.rest.drop n }

/-- What was read on the way to a later place. -/
def textTo (place later : Place α) : List α :=
  place.rest.take (place.rest.length - later.rest.length)

/-- The later place is behind the text. -/
structure Reads (place : Place α) (text : List α) (later : Place α) : Prop where
  rest : place.rest = text ++ later.rest
  before : later.before = text.reverse ++ place.before

theorem Reads.textTo {place later : Place α} {text : List α} (h : place.Reads text later) :
    place.textTo later = text := by
  rw [Place.textTo, h.rest, List.length_append, Nat.add_sub_cancel, List.take_left]

theorem Reads.refl (place : Place α) : place.Reads [] place := ⟨rfl, rfl⟩

theorem Reads.trans {place middle later : Place α} {front back : List α}
    (h : place.Reads front middle) (h' : middle.Reads back later) :
    place.Reads (front ++ back) later where
  rest := by rw [h.rest, h'.rest, List.append_assoc]
  before := by rw [h'.before, h.before, List.reverse_append, List.append_assoc]

theorem reads_advance (place : Place α) (n : ℕ) :
    place.Reads (place.rest.take n) (place.advance n) where
  rest := (List.take_append_drop n place.rest).symm
  before := rfl

end Place

/-! ## Patterns -/

inductive Pattern (α : Type u)
  | empty
  | times (n : ℕ) (p : α → Bool)
  | many (least : ℕ) (p : α → Bool)
  | seq (first second : Pattern α)
  | alt (first second : Pattern α)
  | group (n : ℕ) (inner : Pattern α)
  | same (n : ℕ)
  | boundary (word : α → Bool)
  | atEnd
  | ahead (inner : Pattern α)

namespace Pattern

def symbol (p : α → Bool) : Pattern α := times 1 p

def optional (inner : Pattern α) : Pattern α := alt inner empty

def inOrder : List (Pattern α) → Pattern α
  | [] => empty
  | first :: rest => seq first (inOrder rest)

/-- The first of some patterns that matches; none of no patterns does. -/
def oneOf : List (Pattern α) → Pattern α
  | [] => symbol fun _ => false
  | first :: rest => alt first (oneOf rest)

def startsWith (p : α → Bool) (text : List α) : Bool := (text.head?.map p).getD false

variable [DecidableEq α]

/-- The ways to match at a place, as the places where they end. -/
def ways : Pattern α → Place α → List (Place α)
  | empty, place => [place]
  | times n p, place =>
    if n ≤ (place.rest.takeWhile p).length then [place.advance n] else []
  | many least p, place =>
    let run := (place.rest.takeWhile p).length
    (List.range' least (run + 1 - least)).reverse.map place.advance
  | seq first second, place => (ways first place).flatMap (ways second)
  | alt first second, place => ways first place ++ ways second place
  | group n inner, place => (ways inner place).map fun later =>
    { later with groups := Function.update later.groups n (place.textTo later) }
  | same n, place =>
    if place.groups n <+: place.rest then [place.advance (place.groups n).length] else []
  | boundary word, place =>
    if startsWith word place.before ≠ startsWith word place.rest then [place] else []
  | atEnd, place => if place.rest.isEmpty then [place] else []
  | ahead inner, place =>
    match ways inner place with
    | [] => []
    | later :: _ => [{ place with groups := later.groups }]

def startOf (before rest : List α) : Place α := ⟨before, rest, fun _ => []⟩

/-- The first way to match a text whose left context is given, the last symbol first. -/
def firstWay (pattern : Pattern α) (before rest : List α) : Option (Place α) :=
  (pattern.ways (startOf before rest)).head?

/-- The pattern matches the text from its beginning to its end. -/
def matchesWhole (pattern : Pattern α) (text : List α) : Bool :=
  (firstWay (seq pattern atEnd) [] text).isSome

section Ways

variable {pattern first second inner : Pattern α} {place later : Place α} {n : ℕ} {p : α → Bool}

@[simp] theorem mem_ways_empty : later ∈ ways empty place ↔ later = place :=
  List.mem_singleton

@[simp] theorem mem_ways_seq : later ∈ ways (seq first second) place ↔
    ∃ middle ∈ ways first place, later ∈ ways second middle :=
  List.mem_flatMap

@[simp] theorem mem_ways_alt : later ∈ ways (alt first second) place ↔
    later ∈ ways first place ∨ later ∈ ways second place :=
  List.mem_append

theorem mem_ways_group : later ∈ ways (group n inner) place ↔ ∃ middle ∈ ways inner place,
    { middle with groups := Function.update middle.groups n (place.textTo middle) } = later :=
  List.mem_map

theorem mem_ways_times : later ∈ ways (times n p) place ↔
    n ≤ (place.rest.takeWhile p).length ∧ later = place.advance n :=
  List.mem_ite_nil_right.trans (and_congr_right' List.mem_singleton)

theorem mem_ways_many {least : ℕ} : later ∈ ways (many least p) place ↔
    ∃ n, least ≤ n ∧ n ≤ (place.rest.takeWhile p).length ∧ later = place.advance n := by
  apply List.mem_map.trans
  apply Iff.intro
  · rintro ⟨n, hn, rfl⟩
    rw [List.mem_reverse, List.mem_range'_1] at hn
    exact ⟨n, hn.1, by omega, rfl⟩
  · rintro ⟨n, hleast, hmost, rfl⟩
    refine ⟨n, ?_, rfl⟩
    rw [List.mem_reverse, List.mem_range'_1]
    omega

theorem mem_ways_boundary {word : α → Bool} : later ∈ ways (boundary word) place ↔
    startsWith word place.before ≠ startsWith word place.rest ∧ later = place :=
  List.mem_ite_nil_right.trans (and_congr_right' List.mem_singleton)

theorem mem_ways_atEnd : later ∈ ways atEnd place ↔ place.rest = [] ∧ later = place :=
  List.mem_ite_nil_right.trans (and_congr List.isEmpty_iff List.mem_singleton)

theorem mem_ways_same : later ∈ ways (same n) place ↔
    place.groups n <+: place.rest ∧ later = place.advance (place.groups n).length :=
  List.mem_ite_nil_right.trans (and_congr_right' List.mem_singleton)

theorem exists_of_mem_ways_ahead (h : later ∈ ways (ahead inner) place) :
    ∃ first ∈ ways inner place, later = { place with groups := first.groups } := by
  change later ∈ match ways inner place with
    | [] => []
    | first :: _ => [{ place with groups := first.groups }] at h
  cases hways : ways inner place with
  | nil =>
    rw [hways] at h
    cases h
  | cons first =>
    rw [hways] at h
    exact ⟨first, List.mem_cons_self, List.mem_singleton.mp h⟩

theorem matchesWhole_iff {text : List α} : pattern.matchesWhole text = true ↔
    ∃ later ∈ ways pattern (startOf [] text), later.rest = [] := by
  rw [matchesWhole, firstWay, List.isSome_head?]
  apply Iff.intro
  · intro hne
    obtain ⟨_, hmem⟩ := List.exists_mem_of_ne_nil _ hne
    obtain ⟨later, hlater, hend⟩ := mem_ways_seq.mp hmem
    exact ⟨later, hlater, (mem_ways_atEnd.mp hend).1⟩
  · rintro ⟨later, hlater, hend⟩
    exact List.ne_nil_of_mem (mem_ways_seq.mpr ⟨later, hlater, mem_ways_atEnd.mpr ⟨hend, rfl⟩⟩)

theorem exists_reads (h : later ∈ ways pattern place) : ∃ text, place.Reads text later := by
  induction pattern generalizing place later with
  | empty => exact ⟨[], mem_ways_empty.mp h ▸ Place.Reads.refl _⟩
  | times n => exact ⟨_, (mem_ways_times.mp h).2 ▸ place.reads_advance n⟩
  | many =>
    obtain ⟨n, -, -, rfl⟩ := mem_ways_many.mp h
    exact ⟨_, place.reads_advance n⟩
  | seq _ _ ihFirst ihSecond =>
    obtain ⟨middle, hfirst, hsecond⟩ := mem_ways_seq.mp h
    obtain ⟨front, hfront⟩ := ihFirst hfirst
    obtain ⟨back, hback⟩ := ihSecond hsecond
    exact ⟨_, hfront.trans hback⟩
  | alt _ _ ihFirst ihSecond => exact (mem_ways_alt.mp h).elim ihFirst ihSecond
  | group _ _ ih =>
    obtain ⟨middle, hinner, rfl⟩ := mem_ways_group.mp h
    obtain ⟨text, hrest, hbefore⟩ := ih hinner
    exact ⟨text, hrest, hbefore⟩
  | same => exact ⟨_, (mem_ways_same.mp h).2 ▸ place.reads_advance _⟩
  | boundary => exact ⟨[], (mem_ways_boundary.mp h).2 ▸ Place.Reads.refl _⟩
  | atEnd => exact ⟨[], (mem_ways_atEnd.mp h).2 ▸ Place.Reads.refl _⟩
  | ahead =>
    obtain ⟨first, -, rfl⟩ := exists_of_mem_ways_ahead h
    exact ⟨[], rfl, rfl⟩

/-- The groups that a pattern may set. -/
def groupsOf : Pattern α → List ℕ
  | seq first second => groupsOf first ++ groupsOf second
  | alt first second => groupsOf first ++ groupsOf second
  | group n inner => n :: groupsOf inner
  | ahead inner => groupsOf inner
  | _ => []

theorem groups_eq_of_not_mem (h : later ∈ ways pattern place) (hn : n ∉ groupsOf pattern) :
    later.groups n = place.groups n := by
  induction pattern generalizing place later with
  | empty => rw [mem_ways_empty.mp h]
  | times => rw [(mem_ways_times.mp h).2]; rfl
  | many =>
    obtain ⟨m, -, -, rfl⟩ := mem_ways_many.mp h
    rfl
  | seq _ _ ihFirst ihSecond =>
    obtain ⟨middle, hfirst, hsecond⟩ := mem_ways_seq.mp h
    rw [groupsOf, List.mem_append, not_or] at hn
    rw [ihSecond hsecond hn.2, ihFirst hfirst hn.1]
  | alt _ _ ihFirst ihSecond =>
    rw [groupsOf, List.mem_append, not_or] at hn
    exact (mem_ways_alt.mp h).elim (ihFirst · hn.1) (ihSecond · hn.2)
  | group _ _ ih =>
    obtain ⟨middle, hinner, rfl⟩ := mem_ways_group.mp h
    rw [groupsOf, List.mem_cons, not_or] at hn
    rw [← ih hinner hn.2]
    exact Function.update_of_ne hn.1 _ _
  | same => rw [(mem_ways_same.mp h).2]; rfl
  | boundary => rw [(mem_ways_boundary.mp h).2]
  | atEnd => rw [(mem_ways_atEnd.mp h).2]
  | ahead _ ih =>
    obtain ⟨first, hfirst, rfl⟩ := exists_of_mem_ways_ahead h
    have hsame : first.groups n = place.groups n := ih hfirst hn
    exact hsame

theorem groups_isPrefix {text : List α} (h : later ∈ ways (seq (group n inner) second) place)
    (hn : n ∉ groupsOf second) (hreads : place.Reads text later) : later.groups n <+: text := by
  obtain ⟨middle, hfirst, hsecond⟩ := mem_ways_seq.mp h
  rw [groups_eq_of_not_mem hsecond hn]
  obtain ⟨front, hinner, rfl⟩ := mem_ways_group.mp hfirst
  obtain ⟨_, hfront⟩ := exists_reads hinner
  obtain ⟨_, hback⟩ := exists_reads hsecond
  change Function.update front.groups n (place.textTo front) n <+: text
  rw [Function.update_self, hfront.textTo, ← hreads.textTo,
    (hfront.trans ⟨hback.rest, hback.before⟩).textTo]
  exact List.prefix_append _ _

/-- Every match has a symbol of a kind. -/
def Needs (kind : α → Bool) : Pattern α → Prop
  | times n p => 0 < n ∧ ∀ c, p c = true → kind c = true
  | many least p => 0 < least ∧ ∀ c, p c = true → kind c = true
  | seq first second => Needs kind first ∨ Needs kind second
  | alt first second => Needs kind first ∧ Needs kind second
  | group _ inner => Needs kind inner
  | _ => False

variable {kind : α → Bool}

omit [DecidableEq α] in
theorem needs_inOrder {parts : List (Pattern α)} (hpart : pattern ∈ parts)
    (hneeds : pattern.Needs kind) : (inOrder parts).Needs kind := by
  induction parts with
  | nil => cases hpart
  | cons _ _ ih =>
    cases List.mem_cons.mp hpart with
    | inl hfirst => exact Or.inl (hfirst ▸ hneeds)
    | inr hrest => exact Or.inr (ih hrest)

omit [DecidableEq α] in
theorem le_length_takeWhile_iff {l : List α} :
    n ≤ (l.takeWhile p).length ↔ n ≤ l.length ∧ ∀ c ∈ l.take n, p c = true := by
  induction l generalizing n with
  | nil => simp
  | cons d _ ih =>
    cases n with
    | zero => simp
    | succ =>
      rw [List.takeWhile_cons, List.take_succ_cons, List.forall_mem_cons, List.length_cons]
      cases hd : p d with
      | false => simp
      | true => simp [ih]

omit [DecidableEq α] in
theorem exists_mem_of_advance (hn : 0 < n)
    (hlong : n ≤ (place.rest.takeWhile p).length) : ∃ c ∈ place.rest.take n, p c = true := by
  obtain ⟨hlength, hall⟩ := le_length_takeWhile_iff.mp hlong
  obtain ⟨c, run, hrun⟩ := List.exists_cons_of_length_pos
    (show 0 < (place.rest.take n).length by rw [List.length_take]; omega)
  have hc : c ∈ place.rest.take n := hrun ▸ List.mem_cons_self
  exact ⟨c, hc, hall c hc⟩

theorem exists_mem_of_needs (h : later ∈ ways pattern place) (hneeds : pattern.Needs kind) :
    ∃ text, place.Reads text later ∧ ∃ c ∈ text, kind c = true := by
  induction pattern generalizing place later with
  | times n =>
    obtain ⟨hlong, rfl⟩ := mem_ways_times.mp h
    obtain ⟨c, hc, hp⟩ := exists_mem_of_advance hneeds.1 hlong
    exact ⟨_, place.reads_advance n, c, hc, hneeds.2 c hp⟩
  | many =>
    obtain ⟨n, hleast, hlong, rfl⟩ := mem_ways_many.mp h
    obtain ⟨c, hc, hp⟩ := exists_mem_of_advance (lt_of_lt_of_le hneeds.1 hleast) hlong
    exact ⟨_, place.reads_advance n, c, hc, hneeds.2 c hp⟩
  | seq _ _ ihFirst ihSecond =>
    obtain ⟨middle, hfirst, hsecond⟩ := mem_ways_seq.mp h
    cases hneeds with
    | inl hfront =>
      obtain ⟨front, hreads, c, hc, hkind⟩ := ihFirst hfirst hfront
      obtain ⟨back, hback⟩ := exists_reads hsecond
      exact ⟨_, hreads.trans hback, c, List.mem_append_left _ hc, hkind⟩
    | inr hback =>
      obtain ⟨back, hreads, c, hc, hkind⟩ := ihSecond hsecond hback
      obtain ⟨front, hfront⟩ := exists_reads hfirst
      exact ⟨_, hfront.trans hreads, c, List.mem_append_right _ hc, hkind⟩
  | alt _ _ ihFirst ihSecond =>
    exact (mem_ways_alt.mp h).elim (ihFirst · hneeds.1) (ihSecond · hneeds.2)
  | group _ _ ih =>
    obtain ⟨middle, hinner, rfl⟩ := mem_ways_group.mp h
    obtain ⟨text, hreads, hkind⟩ := ih hinner hneeds
    exact ⟨text, ⟨hreads.rest, hreads.before⟩, hkind⟩
  | empty | same | boundary | atEnd | ahead => cases hneeds

end Ways

/-! ## Going over a text -/

/-- A part of a text: a symbol that is kept, or the text of a match with its groups. -/
inductive Token (α : Type u)
  | kept (c : α)
  | found (text : List α) (groups : ℕ → List α)

def Token.text : Token α → List α
  | kept c => [c]
  | found text _ => text

def textOf (tokens : List (Token α)) : List α := tokens.flatMap Token.text

/-- The parts of a text, after some symbols that belong to the last match. After an empty match
a symbol is kept. -/
def tokens (pattern : Pattern α) : ℕ → List α → List α → List (Token α)
  | 0, before, [] => (pattern.firstWay before []).toList.map fun later => .found [] later.groups
  | _ + 1, _, [] => []
  | skipped + 1, before, c :: rest => tokens pattern skipped (c :: before) rest
  | 0, before, c :: rest =>
    match pattern.firstWay before (c :: rest) with
    | none => .kept c :: tokens pattern 0 (c :: before) rest
    | some later =>
      match (startOf before (c :: rest)).textTo later with
      | [] => .found [] later.groups :: .kept c :: tokens pattern 0 (c :: before) rest
      | text => .found text later.groups ::
          tokens pattern (text.length - 1) (c :: before) rest

/-- What stands in the place of a match. -/
def render (replacement : List α → (ℕ → List α) → List α) : Token α → List α
  | .kept c => [c]
  | .found text groups => replacement text groups

/-- Replace every match. -/
def replaceAll (pattern : Pattern α) (replacement : List α → (ℕ → List α) → List α)
    (text : List α) : List α :=
  (tokens pattern 0 [] text).flatMap (render replacement)

/-- The parts of a text that stands behind some symbols: a symbol is kept where the pattern
does not match, or matches no text. -/
inductive Scanned (pattern : Pattern α) : List α → List (Token α) → Prop
  | nil (before : List α) : Scanned pattern before []
  | kept {before : List α} {c : α} {parts : List (Token α)}
      (hnone : ∀ later, pattern.firstWay before (c :: textOf parts) = some later →
        later.rest = c :: textOf parts)
      (hrest : Scanned pattern (c :: before) parts) : Scanned pattern before (.kept c :: parts)
  | found {before text : List α} {parts : List (Token α)} {later : Place α}
      (hway : pattern.firstWay before (text ++ textOf parts) = some later)
      (hreads : (startOf before (text ++ textOf parts)).Reads text later)
      (hrest : Scanned pattern (text.reverse ++ before) parts) :
      Scanned pattern before (.found text later.groups :: parts)

theorem exists_reads_firstWay {pattern : Pattern α} {before rest : List α} {later : Place α}
    (h : pattern.firstWay before rest = some later) :
    ∃ text, (startOf before rest).Reads text later ∧ rest = text ++ later.rest := by
  obtain ⟨text, hreads⟩ := exists_reads (List.mem_of_head? h)
  exact ⟨text, hreads, hreads.rest⟩

theorem scanned_tokens (pattern : Pattern α) (rest : List α) :
    ∀ skipped before, skipped ≤ rest.length →
      textOf (tokens pattern skipped before rest) = rest.drop skipped ∧
        Scanned pattern ((rest.take skipped).reverse ++ before)
          (tokens pattern skipped before rest) := by
  induction rest with
  | nil =>
    intro skipped before hskipped
    obtain rfl : skipped = 0 := Nat.le_zero.mp hskipped
    rw [tokens]
    cases hway : pattern.firstWay before [] with
    | none => exact ⟨rfl, .nil _⟩
    | some =>
      obtain ⟨text, hreads, hrest⟩ := exists_reads_firstWay hway
      obtain rfl : text = [] := (List.append_eq_nil_iff.mp hrest.symm).1
      exact ⟨rfl, .found hway hreads (.nil _)⟩
  | cons c rest ih =>
    intro skipped before hskipped
    cases skipped with
    | succ skipped =>
      rw [tokens]
      obtain ⟨htext, hscanned⟩ := ih skipped (c :: before) (Nat.le_of_succ_le_succ hskipped)
      refine ⟨htext, ?_⟩
      rw [List.take_succ_cons, List.reverse_cons, List.append_assoc]
      exact hscanned
    | zero =>
      rw [tokens]
      change _ = c :: rest ∧ Scanned pattern before _
      have htext := (ih 0 (c :: before) (Nat.zero_le _)).1
      have hscanned : Scanned pattern (c :: before) _ := (ih 0 (c :: before) (Nat.zero_le _)).2
      rw [List.drop_zero] at htext
      cases hway : pattern.firstWay before (c :: rest) with
      | none =>
        refine ⟨congrArg (c :: ·) htext, .kept ?_ hscanned⟩
        rw [htext, hway]
        exact fun _ h => by cases h
      | some later =>
        obtain ⟨text, hreads, hrest⟩ := exists_reads_firstWay hway
        simp only [hreads.textTo]
        cases text with
        | nil =>
          have hparts : textOf (.kept c :: tokens pattern 0 (c :: before) rest) =
              c :: rest := congrArg (c :: ·) htext
          refine ⟨hparts, .found ?_ ?_ (.kept ?_ hscanned)⟩
          · rwa [hparts]
          · rwa [hparts]
          · intro first hfirst
            rw [htext, List.reverse_nil, List.nil_append, hway] at hfirst
            rw [htext, ← Option.some.inj hfirst, hrest]
            rfl
        | cons d text =>
          obtain rfl : c = d := List.head_eq_of_cons_eq hrest
          have hrest : rest = text ++ later.rest := List.tail_eq_of_cons_eq hrest
          have hlength : text.length ≤ rest.length := by
            rw [hrest, List.length_append]
            exact Nat.le_add_right _ _
          change textOf (.found (c :: text) later.groups ::
              tokens pattern text.length (c :: before) rest) = c :: rest ∧
            Scanned pattern before (.found (c :: text) later.groups ::
              tokens pattern text.length (c :: before) rest)
          obtain ⟨hback, hlater⟩ := ih text.length (c :: before) hlength
          have hparts : c :: text ++
              textOf (tokens pattern text.length (c :: before) rest) = c :: rest := by
            rw [hback, hrest, List.drop_left, List.cons_append]
          refine ⟨hparts, .found ?_ ?_ ?_⟩
          · rw [hparts]
            exact hway
          · rw [hparts]
            exact hreads
          · have htake : rest.take text.length = text := by rw [hrest, List.take_left]
            rw [htake] at hlater
            rw [List.reverse_cons, List.append_assoc]
            exact hlater

theorem textOf_tokens (pattern : Pattern α) (text : List α) :
    textOf (tokens pattern 0 [] text) = text :=
  (scanned_tokens pattern text 0 [] (Nat.zero_le _)).1

theorem scanned (pattern : Pattern α) (text : List α) :
    Scanned pattern [] (tokens pattern 0 [] text) :=
  (scanned_tokens pattern text 0 [] (Nat.zero_le _)).2

end Pattern

end Fluxora.Lib
