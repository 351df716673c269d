/-
# Keys that redaction leaves

The scan for account keys goes on behind a key it has found, and the mask of a key keeps its last
four characters. A further key may begin among them: the mask does not cut it, and the scan does
not find it. It stays in the result if it ends before the middle of the next mask.
-/

import Fluxora.Lib.Replacement
import Fluxora.Pii.Sanitizer

namespace Fluxora.Pii

open Lib Lib.Pattern

/-! ## Keys -/

/-- G and 55 base32 characters. -/
structure IsKeyShaped (key : CodeUnits) : Prop where
  length : key.length = 56
  head : key.head? = some 'G'.toNat
  base32 : ∀ u ∈ key, isBase32 u = true

def ContainsKey (text : CodeUnits) : Prop := ∃ key, key <:+: text ∧ IsKeyShaped key

theorem ContainsKey.mono {text text' : CodeUnits} (h : ContainsKey text) (hin : text <:+: text') :
    ContainsKey text' := by
  obtain ⟨key, hkey, hshape⟩ := h
  exact ⟨key, hkey.trans hin, hshape⟩

theorem not_containsKey_of_short {text : CodeUnits} (hshort : text.length < 56) :
    ¬ ContainsKey text := by
  rintro ⟨key, hkey, hshape⟩
  have hle := hkey.length_le
  rw [hshape.length] at hle
  omega

theorem isKeyShaped_cons_iff {u : ℕ} {rest : CodeUnits} : IsKeyShaped (u :: rest) ↔
    u = 'G'.toNat ∧ rest.length = 55 ∧ ∀ v ∈ rest, isBase32 v = true := by
  apply Iff.intro
  · rintro ⟨hlength, hhead, hall⟩
    exact ⟨Option.some.inj hhead, Nat.succ.inj hlength, (List.forall_mem_cons.mp hall).2⟩
  · rintro ⟨rfl, hlength, hall⟩
    exact ⟨congrArg (· + 1) hlength, rfl, List.forall_mem_cons.mpr ⟨by decide, hall⟩⟩

theorem mem_ways_stellarKey {place later : Place ℕ} : later ∈ stellarKey.ways place ↔
    IsKeyShaped (place.rest.take 56) ∧ later = place.advance 56 := by
  have hadvance : (place.advance 1).advance 55 = place.advance 56 := by
    simp only [Place.advance, List.drop_drop, Place.mk.injEq, and_true]
    rw [← List.append_assoc, ← List.reverse_append, ← List.take_add]
  simp only [stellarKey, inOrder, symbol, mem_ways_seq, mem_ways_times, mem_ways_empty,
    le_length_takeWhile_iff]
  cases hplace : place.rest with
  | nil =>
    apply Iff.intro
    · rintro ⟨_, ⟨⟨hone, -⟩, -⟩, -⟩
      cases hone
    · rintro ⟨hkey, -⟩
      cases hkey.length
  | cons u rest =>
    have htake : (u :: rest).take 56 = u :: rest.take 55 := List.take_succ_cons
    rw [htake, isKeyShaped_cons_iff]
    apply Iff.intro
    · rintro ⟨_, ⟨⟨-, hfirst⟩, rfl⟩, _, ⟨⟨hmany, hrest⟩, rfl⟩, rfl⟩
      rw [Place.advance, hplace] at hmany hrest
      refine ⟨⟨?_, List.length_take_of_le hmany, hrest⟩, hadvance⟩
      exact beq_iff_eq.mp (hfirst u List.mem_cons_self)
    · rintro ⟨⟨rfl, hlength, hall⟩, rfl⟩
      refine ⟨_, ⟨⟨by simp, by simp⟩, rfl⟩, _, ⟨⟨?_, ?_⟩, rfl⟩, hadvance.symm⟩
      · rw [Place.advance, hplace]
        change 55 ≤ rest.length
        rw [List.length_take] at hlength
        omega
      · rw [Place.advance, hplace]
        exact hall

theorem firstWay_stellarKey {before rest : CodeUnits} {later : Place ℕ} :
    stellarKey.firstWay before rest = some later ↔
      IsKeyShaped (rest.take 56) ∧ later = (startOf before rest).advance 56 := by
  apply Iff.intro
  · exact fun h => (mem_ways_stellarKey).mp (List.mem_of_head? h)
  · intro h
    have hmem : later ∈ stellarKey.ways (startOf before rest) := (mem_ways_stellarKey).mpr h
    obtain ⟨first, hfirst⟩ : ∃ first, stellarKey.firstWay before rest = some first :=
      Option.isSome_iff_exists.mp (List.isSome_head?.mpr (List.ne_nil_of_mem hmem))
    rw [hfirst, ((mem_ways_stellarKey).mp (List.mem_of_head? hfirst)).2, h.2]

theorem matchesWhole_stellarKey {text : CodeUnits} :
    stellarKey.matchesWhole text = true ↔ IsKeyShaped text := by
  have hwhole : text.drop 56 = [] → text.take 56 = text := by
    intro hnone
    have happend := List.take_append_drop 56 text
    rwa [hnone, List.append_nil] at happend
  rw [matchesWhole_iff]
  apply Iff.intro
  · rintro ⟨later, hlater, hend⟩
    obtain ⟨hkey, rfl⟩ := (mem_ways_stellarKey).mp hlater
    exact hwhole hend ▸ hkey
  · intro hkey
    have hend : text.drop 56 = [] := List.drop_eq_nil_of_le (by rw [hkey.length])
    exact ⟨_, (mem_ways_stellarKey).mpr ⟨(hwhole hend).symm ▸ hkey, rfl⟩, hend⟩

theorem maskStellarKey_eq {key : CodeUnits} (hkey : IsKeyShaped key) :
    maskStellarKey key = key.take 4 ++ 46 :: ([] ++ 46 :: key.drop 52) := by
  rw [maskStellarKey, if_pos ((matchesWhole_stellarKey).mpr hkey), hkey.length]
  simp [units, JsText.codeUnits]

theorem not_containsKey_maskStellarKey (value : CodeUnits) :
    ¬ ContainsKey (maskStellarKey value) := by
  apply not_containsKey_of_short
  by_cases hkey : IsKeyShaped value
  · rw [maskStellarKey_eq hkey]
    simp [hkey.length]
  · rw [maskStellarKey, if_neg fun h => hkey ((matchesWhole_stellarKey).mp h)]
    decide

/-! ## The masked text -/

/-- The parts of a text between which the scan for keys tells. -/
def keyParts (text : CodeUnits) : List (Token ℕ) := tokens stellarKey 0 [] text

/-- What is left of the next key in front of the dots, if a key is next. -/
def nextKeyStart : List (Token ℕ) → CodeUnits
  | .found key _ :: _ => key.take 4
  | _ => []

/-- The last four characters of a key that the scan finds, the text behind it and the first
four characters of the key that it finds next contain a key. -/
def Rejoins (text : CodeUnits) : Prop :=
  ∃ front key groups between back,
    keyParts text = front ++ .found key groups :: (between.map .kept ++ back) ∧
      ContainsKey (key.drop 52 ++ between ++ nextKeyStart back)

abbrev mask : Token ℕ → CodeUnits := render fun found _ => maskStellarKey found

section

variable {before text key run : CodeUnits} {parts : List (Token ℕ)} {groups : ℕ → CodeUnits}

theorem isKeyShaped_of_reads {rest : CodeUnits} {later : Place ℕ}
    (hway : stellarKey.firstWay before (key ++ rest) = some later)
    (hreads : (startOf before (key ++ rest)).Reads key later) : IsKeyShaped key := by
  obtain ⟨hkey, rfl⟩ := (firstWay_stellarKey).mp hway
  have hread := (Place.reads_advance (startOf before (key ++ rest)) 56).textTo
  rw [hreads.textTo] at hread
  rwa [hread]

theorem isKeyShaped_of_found (hscanned : Scanned stellarKey before parts) :
    ∀ key groups, .found key groups ∈ parts → IsKeyShaped key := by
  intro key groups hmem
  induction hscanned with
  | nil => cases hmem
  | kept _ _ ih =>
    cases List.mem_cons.mp hmem with
    | inl hsame => cases hsame
    | inr hlater => exact ih hlater
  | found hway hreads _ ih =>
    cases List.mem_cons.mp hmem with
    | inl hsame =>
      cases hsame
      exact isKeyShaped_of_reads hway hreads
    | inr hlater => exact ih hlater

theorem mask_found (hkey : IsKeyShaped key) :
    mask (.found key groups) = key.take 4 ++ 46 :: ([] ++ 46 :: key.drop 52) :=
  maskStellarKey_eq hkey

theorem exists_between (hkeys : ∀ key groups, .found key groups ∈ parts → IsKeyShaped key)
    (hrun : ∀ u ∈ run, isBase32 u = true) (h : run <+: parts.flatMap mask) :
    ∃ between back, parts = between.map .kept ++ back ∧ run <+: between ++ nextKeyStart back := by
  induction parts generalizing run with
  | nil => exact ⟨[], [], rfl, h⟩
  | cons part _ ih =>
    cases part with
    | kept u =>
      rcases List.prefix_cons_iff.mp h with rfl | ⟨rest, rfl, hrest⟩
      · exact ⟨[], _, rfl, List.nil_prefix⟩
      · obtain ⟨between, back, rfl, hbetween⟩ :=
          ih (fun key groups hmem => hkeys key groups (List.mem_cons_of_mem _ hmem))
            (fun v hv => hrun v (List.mem_cons_of_mem _ hv)) hrest
        exact ⟨u :: between, back, rfl, List.prefix_cons_iff.mpr (.inr ⟨rest, rfl, hbetween⟩)⟩
    | found key groups =>
      rw [List.flatMap_cons, mask_found (hkeys key groups List.mem_cons_self),
        List.append_assoc] at h
      exact ⟨[], _, rfl, prefix_of_prefix_append hrun (by decide) h⟩

theorem prefix_textOf_of_between (between : CodeUnits) (back : List (Token ℕ)) :
    between ++ nextKeyStart back <+: textOf (between.map .kept ++ back) := by
  induction between with
  | nil =>
    cases back with
    | nil => exact List.nil_prefix
    | cons part =>
      cases part with
      | kept => exact List.nil_prefix
      | found key => exact (List.take_prefix 4 key).trans (List.prefix_append _ _)
  | cons _ _ ih => exact List.prefix_cons_iff.mpr (.inr ⟨_, rfl, ih⟩)

theorem exists_rejoined (hscanned : Scanned stellarKey before parts) (hkey : IsKeyShaped key)
    (h : key <:+: parts.flatMap mask) : ∃ front found groups between back,
      parts = front ++ .found found groups :: (between.map .kept ++ back) ∧
        ContainsKey (found.drop 52 ++ between ++ nextKeyStart back) := by
  induction hscanned with
  | nil =>
    have hnil : key = [] := List.infix_nil.mp h
    exact absurd hkey.length (by rw [hnil]; decide)
  | @kept _ u parts hnone hrest ih =>
    cases List.infix_cons_iff.mp h with
    | inr hlater =>
      obtain ⟨front, found, groups, between, back, rfl, hcontains⟩ := ih hlater
      exact ⟨.kept u :: front, found, groups, between, back, rfl, hcontains⟩
    | inl hhere =>
      -- the scan would have found it
      have htext : key <+: u :: textOf parts := by
        rcases List.prefix_cons_iff.mp hhere with rfl | ⟨rest, rfl, hafter⟩
        · exact List.nil_prefix
        · obtain ⟨between, back, rfl, hbetween⟩ := exists_between (isKeyShaped_of_found hrest)
            (List.forall_mem_cons.mp hkey.base32).2 hafter
          exact List.prefix_cons_iff.mpr
            (.inr ⟨rest, rfl, hbetween.trans (prefix_textOf_of_between between back)⟩)
      have htake : (u :: textOf parts).take 56 = key := by
        rw [← hkey.length]
        exact (List.prefix_iff_eq_take.mp htext).symm
      have hsame := hnone _ ((firstWay_stellarKey).mpr ⟨htake.symm ▸ hkey, rfl⟩)
      have hlength := congrArg List.length hsame
      rw [Place.advance, startOf, List.length_drop, List.length_cons] at hlength
      omega
  | @found _ found parts later hway hreads hrest ih =>
    have hfound := isKeyShaped_of_reads hway hreads
    have hsplit : (Token.found found later.groups :: parts).flatMap mask =
        (found.take 4 ++ [46]) ++ 46 :: (found.drop 52 ++ parts.flatMap mask) := by
      rw [List.flatMap_cons, mask_found hfound]
      simp
    rw [hsplit] at h
    have hlast : (found.drop 52).length = 4 := by rw [List.length_drop, hfound.length]
    rcases infix_or_infix hkey.base32 (by decide) h with hfirst | hbehind
    · have hle := hfirst.length_le
      rw [hkey.length, List.length_append, List.length_take, List.length_singleton] at hle
      omega
    · rcases List.infix_append_iff.mp hbehind with
        hfinal | hlater | ⟨start, rest, rfl, hstart, hafter⟩
      · have hle := hfinal.length_le
        rw [hkey.length, hlast] at hle
        omega
      · obtain ⟨front, found', groups, between, back, rfl, hcontains⟩ := ih hlater
        exact ⟨.found found later.groups :: front, found', groups, between, back, rfl, hcontains⟩
      · obtain ⟨between, back, rfl, hbetween⟩ := exists_between (isKeyShaped_of_found hrest)
          (fun u hu => hkey.base32 u (List.mem_append_right _ hu)) hafter
        refine ⟨[], found, later.groups, between, back, rfl, start ++ rest, ?_, hkey⟩
        obtain ⟨before', hbefore⟩ := hstart
        obtain ⟨after, hafter⟩ := hbetween
        refine ⟨before', after, ?_⟩
        rw [List.append_assoc, List.append_assoc, hafter, ← hbefore, List.append_assoc,
          List.append_assoc]

theorem nextKeyStart_prefix (hkeys : ∀ key groups, .found key groups ∈ parts → IsKeyShaped key) :
    nextKeyStart parts <+: parts.flatMap mask := by
  cases parts with
  | nil => exact List.nil_prefix
  | cons part =>
    cases part with
    | kept => exact List.nil_prefix
    | found key groups =>
      rw [List.flatMap_cons, mask_found (hkeys key groups List.mem_cons_self),
        List.append_assoc]
      exact List.prefix_append _ _

theorem containsKey_maskKeys : ContainsKey (maskKeys text) ↔ Rejoins text := by
  have hscanned : Scanned stellarKey [] (keyParts text) := scanned stellarKey text
  apply Iff.intro
  · rintro ⟨key, hkey, hshape⟩
    exact exists_rejoined hscanned hshape hkey
  · rintro ⟨front, key, groups, between, back, hparts, hcontains⟩
    have hkeys := isKeyShaped_of_found hscanned
    rw [hparts] at hkeys
    have hback : nextKeyStart back <+: back.flatMap mask := by
      apply nextKeyStart_prefix
      intro key groups hmem
      exact hkeys key groups (List.mem_append_right _
        (List.mem_cons_of_mem _ (List.mem_append_right _ hmem)))
    apply hcontains.mono
    obtain ⟨after, hafter⟩ := hback
    have hkept : (between.map Token.kept).flatMap mask = between := by
      rw [List.flatMap_map]
      exact List.flatMap_singleton' between
    have hmasked : maskKeys text = (keyParts text).flatMap mask := rfl
    refine ⟨front.flatMap mask ++ key.take 4 ++ [46, 46], after, ?_⟩
    rw [hmasked, hparts, List.flatMap_append, List.flatMap_cons, List.flatMap_append, hkept,
      ← hafter, mask_found (hkeys key groups (by simp))]
    simp

end

/-! ## The rewrites that follow -/

/-- A short text with characters at both ends that no key has. -/
structure IsNotice (new : CodeUnits) : Prop where
  length : 2 ≤ new.length ∧ new.length < 56
  head : isBase32 (new.headD 0) = false
  last : isBase32 (new.getLastD 0) = false

instance (new : CodeUnits) : Decidable (IsNotice new) :=
  decidable_of_iff ((2 ≤ new.length ∧ new.length < 56) ∧ isBase32 (new.headD 0) = false ∧
    isBase32 (new.getLastD 0) = false) ⟨fun h => ⟨h.1, h.2.1, h.2.2⟩, fun h => ⟨h.1, h.2, h.3⟩⟩

theorem IsNotice.fenced {before old first notice : CodeUnits} (hnotice : IsNotice notice)
    (hfirst : first <+: old ∨ first.length < 56 ∧ startsWith isBase32 before = false) :
    ∃ first' left inside right final, Fenced isBase32 56 before old (first ++ notice)
      first' left inside right final := by
  obtain ⟨hlength, hhead, hlast⟩ := hnotice
  match notice with
  | [] => exact absurd hlength.1 (by decide)
  | left :: rest =>
    have hne : rest ≠ [] := by
      rintro rfl
      exact absurd hlength.1 (by simp)
    have hrest := List.dropLast_append_getLast hne
    refine ⟨first, left, rest.dropLast, rest.getLast hne, [], ?_, hfirst, hhead, ?_, ?_,
      List.nil_suffix⟩
    · rw [hrest]
    · rwa [List.getLastD_cons, List.getLastD_eq_getLast?,
        List.getLast?_eq_some_getLast hne] at hlast
    · intro run hrun _
      have hle := hrun.length_le
      rw [List.length_dropLast] at hle
      have hlong := hlength.2
      rw [List.length_cons] at hlong
      omega

theorem isNotice_of_mem_secretPatterns : ∀ entry ∈ secretPatterns, IsNotice entry.replacement := by
  decide

theorem containsKey_of_redactSecretsInString {text : CodeUnits}
    (h : ContainsKey (redactSecretsInString text)) : ContainsKey text := by
  have hall : ∀ entries : List SecretPattern, (∀ entry ∈ entries, IsNotice entry.replacement) →
      ∀ out, ContainsKey (entries.foldl (fun out entry =>
        entry.pattern.replaceAll (fun _ _ => entry.replacement) out) out) → ContainsKey out := by
    intro entries
    induction entries with
    | nil => exact fun _ _ hout => hout
    | cons entry _ ih =>
      intro hnotice out hout
      obtain ⟨hentry, hrest⟩ := List.forall_mem_cons.mp hnotice
      obtain ⟨key, hkey, hshape⟩ := ih hrest _ hout
      have hfences : entry.pattern.Fences (fun _ _ => entry.replacement) isBase32 56 :=
        fun _ old _ _ _ _ => hentry.fenced (.inl (List.nil_prefix : [] <+: old))
      exact ⟨key, infix_of_infix_replaceAll hfences hshape.base32 hshape.length.ge hkey, hshape⟩
  rw [redactSecretsInString] at h
  split_ifs at h
  · exact h
  · exact hall secretPatterns isNotice_of_mem_secretPatterns text h

theorem containsKey_of_redactStringFields {text : CodeUnits}
    (h : ContainsKey (redactStringFields text)) : ContainsKey text := by
  have hfences : sensitiveStringField.Fences
      (fun _ groups => groups 1 ++ units ": [REDACTED]") isBase32 56 := by
    intro before old rest later hway hreads
    have hnotice : IsNotice (units ": [REDACTED]") := by decide
    exact hnotice.fenced (.inl (groups_isPrefix (List.mem_of_head? hway) (by decide) hreads))
  obtain ⟨key, hkey, hshape⟩ := h
  exact ⟨key, infix_of_infix_replaceAll hfences hshape.base32 hshape.length.ge hkey, hshape⟩

theorem reads_wordAnyCase {place later : Place ℕ} {text : String}
    (h : later ∈ (wordAnyCase text).ways place) :
    ∃ read, place.Reads read later ∧
      read.map toUpper = text.toList.map fun c => toUpper c.toNat := by
  rw [wordAnyCase] at h
  generalize text.toList = chars at h ⊢
  induction chars generalizing place with
  | nil =>
    obtain rfl := mem_ways_empty.mp h
    exact ⟨[], Place.Reads.refl _, rfl⟩
  | cons _ _ ih =>
    obtain ⟨middle, hfirst, hrest⟩ := mem_ways_seq.mp h
    obtain ⟨hlong, rfl⟩ := mem_ways_times.mp hfirst
    obtain ⟨hlength, hall⟩ := le_length_takeWhile_iff.mp hlong
    obtain ⟨u, hu⟩ : ∃ u, place.rest.take 1 = [u] :=
      List.length_eq_one_iff.mp (List.length_take_of_le hlength)
    obtain ⟨read, hread, hsame⟩ := ih hrest
    rw [hu] at hall
    refine ⟨[u] ++ read, hu ▸ (Place.reads_advance place 1).trans hread, ?_⟩
    rw [List.map_append, hsame, List.map_cons, beq_iff_eq.mp (hall u List.mem_cons_self)]
    rfl

theorem isWord_of_toUpper {u : ℕ} (hu : toUpper u = 66) : isWord u = true := by
  have hcases : u = 66 ∨ u = 98 := by
    rw [toUpper, isLower] at hu
    split_ifs at hu with hlower
    · exact Or.inr (by omega)
    · exact Or.inl hu
  rcases hcases with rfl | rfl
  · decide
  · decide

theorem startsWith_of_startsWith_isWord {before : CodeUnits}
    (hbefore : startsWith isWord before = false) : startsWith isBase32 before = false := by
  cases before with
  | nil => rfl
  | cons u =>
    change isWord u = false at hbefore
    change isBase32 u = false
    simp only [isWord, isAlphanumeric, isDigit, Bool.or_eq_false_iff, Bool.and_eq_false_iff,
      decide_eq_false_iff_not] at hbefore
    rw [isBase32, hbefore.1.1.1, Bool.false_or, Bool.and_eq_false_iff, decide_eq_false_iff_not,
      decide_eq_false_iff_not]
    have hdigit := hbefore.1.2
    omega

theorem exists_bearer {place later : Place ℕ} {old : CodeUnits}
    (h : later ∈ bearerToken.ways place) (hreads : place.Reads old later) :
    ∃ word, word <+: old ∧ word.map toUpper = units "BEARER" ∧
      startsWith isBase32 place.before = false := by
  obtain ⟨here, hhere, htail⟩ := mem_ways_seq.mp h
  obtain ⟨hborder, rfl⟩ := mem_ways_boundary.mp hhere
  obtain ⟨middle, hword, hmore⟩ := mem_ways_seq.mp htail
  obtain ⟨word, hread, hsame⟩ := reads_wordAnyCase hword
  obtain ⟨more, hmore⟩ := exists_reads hmore
  refine ⟨word, ?_, hsame, ?_⟩
  · rw [← hreads.textTo, (hread.trans hmore).textTo]
    exact List.prefix_append _ _
  match word with
  | [] => cases hsame
  | u :: more =>
    have hu : toUpper u = 66 := (List.cons.inj hsame).1
    have hstart : startsWith isWord here.rest = true := by
      rw [hread.rest]
      exact isWord_of_toUpper hu
    apply startsWith_of_startsWith_isWord
    rw [hstart] at hborder
    exact Bool.not_eq_true _ ▸ hborder

theorem containsKey_of_redactBearerTokens {text : CodeUnits}
    (h : ContainsKey (redactBearerTokens text)) : ContainsKey text := by
  have hfences : bearerToken.Fences (fun _ _ => units "Bearer [REDACTED]") isBase32 56 := by
    intro before old rest later hway hreads
    have hnotice : IsNotice (units "earer [REDACTED]") := by decide
    obtain ⟨-, -, -, hbefore⟩ := exists_bearer (List.mem_of_head? hway) hreads
    have hfirst : units "B" <+: old ∨ (units "B").length < 56 ∧
        startsWith isBase32 before = false := Or.inr ⟨by decide, hbefore⟩
    exact hnotice.fenced hfirst
  obtain ⟨key, hkey, hshape⟩ := h
  exact ⟨key, infix_of_infix_replaceAll hfences hshape.base32 hshape.length.ge hkey, hshape⟩

theorem rejoins_of_containsKey {text : CodeUnits} (h : ContainsKey (redactKeysInString text)) :
    Rejoins text :=
  containsKey_maskKeys.mp (containsKey_of_redactBearerTokens
    (containsKey_of_redactStringFields (containsKey_of_redactSecretsInString h)))

/-! ## Texts that only the scan for keys changes -/

/-- A text without the marks that the other expressions need, and without the word that bearer
tokens begin with. -/
structure IsQuiet (text : CodeUnits) : Prop where
  marks : ∀ u ∈ text, among ":=_" u = false
  bearer : ∀ word, word <:+: text → word.map toUpper ≠ units "BEARER"

theorem fences_mask {inRun : ℕ → Bool} (hdot : inRun 46 = false) :
    stellarKey.Fences (fun found _ => maskStellarKey found) inRun 1 := by
  intro before old rest later hway hreads
  refine ⟨old.take 4, 46, [], 46, old.drop 52,
    maskStellarKey_eq (isKeyShaped_of_reads hway hreads), .inl (List.take_prefix _ _), hdot, hdot,
    ?_, List.drop_suffix _ _⟩
  intro run hrun _
  rw [List.infix_nil.mp hrun]
  decide

theorem infix_of_infix_maskKeys {run text : CodeUnits} (hdot : 46 ∉ run) (hne : run ≠ [])
    (h : run <:+: maskKeys text) : run <:+: text := by
  have hfences : stellarKey.Fences (fun found _ => maskStellarKey found) (fun u => u != 46) 1 :=
    fences_mask (by decide)
  apply infix_of_infix_replaceAll hfences _ (List.length_pos_iff.mpr hne) h
  intro u hu
  rw [bne_iff_ne]
  rintro rfl
  exact hdot hu

theorem isQuiet_maskKeys {text : CodeUnits} (hquiet : IsQuiet text) : IsQuiet (maskKeys text) where
  marks := by
    intro u hu
    by_cases hdot : u = 46
    · rw [hdot]
      decide
    · have hin : [u] <:+: text := infix_of_infix_maskKeys (by simpa using Ne.symm hdot)
        (List.cons_ne_nil _ _) ((List.singleton_infix_iff _ _).mpr hu)
      exact hquiet.marks u ((List.singleton_infix_iff _ _).mp hin)
  bearer := by
    intro word hword hbearer
    have hdot : 46 ∉ word := by
      intro hmem
      have hupper : toUpper 46 ∈ units "BEARER" := hbearer ▸ List.mem_map_of_mem hmem
      exact absurd hupper (by decide)
    have hne : word ≠ [] := by
      rintro rfl
      cases hbearer
    exact hquiet.bearer word (infix_of_infix_maskKeys hdot hne hword) hbearer

theorem needs_of_word (text : String) (c : Char) {parts : List (Pattern ℕ)} {kind : ℕ → Bool}
    (hpart : word text ∈ parts) (hc : c ∈ text.toList) (hkind : kind c.toNat = true) :
    (inOrder parts).Needs kind := by
  have hword : (word text).Needs kind := by
    apply needs_inOrder (List.mem_map_of_mem hc)
    refine ⟨Nat.one_pos, fun u hu => ?_⟩
    rw [beq_iff_eq.mp hu]
    exact hkind
  exact needs_inOrder hpart hword

theorem needs_assigned : assigned.Needs (among ":=_") := by
  have hmark : (symbol (among ":=")).Needs (among ":=_") := by
    refine ⟨Nat.one_pos, fun u hu => ?_⟩
    simp only [among, List.any_eq_true] at hu ⊢
    obtain ⟨c, hc, hcu⟩ := hu
    exact ⟨c, List.mem_append_left "_".toList hc, hcu⟩
  exact needs_inOrder (List.mem_cons_of_mem _ List.mem_cons_self) hmark

theorem needs_assignment (name : Pattern ℕ) (least : ℕ) (inValue : ℕ → Bool) :
    (assignment name least inValue).Needs (among ":=_") :=
  needs_inOrder (List.mem_cons_of_mem _ (List.mem_cons_of_mem _ List.mem_cons_self)) needs_assigned

theorem needs_of_mem_secretPatterns :
    ∀ entry ∈ secretPatterns, entry.pattern.Needs (among ":=_") := by
  intro entry hentry
  simp only [secretPatterns, List.mem_cons, List.not_mem_nil, or_false] at hentry
  rcases hentry with rfl | rfl | rfl | rfl | rfl | rfl | rfl | rfl
  · exact needs_of_word "_" '_' (by simp) (by decide) (by decide)
  · exact needs_assignment ..
  · exact needs_of_word "whsec_" '_' (by simp) (by decide) (by decide)
  · exact needs_assignment ..
  · exact needs_of_word "://" ':' (by simp) (by decide) (by decide)
  · exact needs_assignment ..
  · exact needs_assignment ..
  · exact needs_of_word "oidc_cs_" '_' (by simp) (by decide) (by decide)

theorem redactKeysInString_eq {text : CodeUnits} (hquiet : IsQuiet text) :
    redactKeysInString text = maskKeys text := by
  obtain ⟨hmarks, hbearer⟩ := isQuiet_maskKeys hquiet
  have htokens : redactBearerTokens (maskKeys text) = maskKeys text := by
    apply replaceAll_eq_self
    intro place old later hway hreads hin
    obtain ⟨word, hword, hsame, -⟩ := exists_bearer hway hreads
    exact hbearer word (hword.isInfix.trans hin) hsame
  have hfields : redactStringFields (maskKeys text) = maskKeys text := by
    have hneeds : sensitiveStringField.Needs (among ":=_") :=
      needs_inOrder (List.mem_cons_of_mem _ List.mem_cons_self) needs_assigned
    exact replaceAll_eq_self (absent_of_needs hneeds hmarks)
  have hsecrets : ∀ entries : List SecretPattern,
      (∀ entry ∈ entries, entry.pattern.Needs (among ":=_")) →
        entries.foldl (fun out entry =>
          entry.pattern.replaceAll (fun _ _ => entry.replacement) out) (maskKeys text) =
            maskKeys text := by
    intro entries
    induction entries with
    | nil => exact fun _ => rfl
    | cons _ _ ih =>
      intro hneeds
      obtain ⟨hentry, hrest⟩ := List.forall_mem_cons.mp hneeds
      rw [List.foldl_cons, replaceAll_eq_self (absent_of_needs hentry hmarks)]
      exact ih hrest
  rw [redactKeysInString, htokens, hfields, redactSecretsInString]
  split_ifs
  · rfl
  · exact hsecrets secretPatterns needs_of_mem_secretPatterns

/-! ## Values -/

mutual

/-- The texts of a value, at any depth. -/
def textsOf : LogValue → List CodeUnits
  | .string text => [text]
  | .array items => textsOfItems items
  | .object entries => textsOfEntries entries
  | _ => []

def textsOfItems : List LogValue → List CodeUnits
  | [] => []
  | item :: rest => textsOf item ++ textsOfItems rest

def textsOfEntries : List (CodeUnits × LogValue) → List CodeUnits
  | [] => []
  | (_, value) :: rest => textsOf value ++ textsOfEntries rest

end

mutual

/-- The texts of a value that are scanned: those outside sensitive fields. -/
def scannedTexts (fields : List CodeUnits) : LogValue → List CodeUnits
  | .string text => [text]
  | .array items => scannedTextsOfItems fields items
  | .object entries => scannedTextsOfEntries fields entries
  | _ => []

def scannedTextsOfItems (fields : List CodeUnits) : List LogValue → List CodeUnits
  | [] => []
  | item :: rest => scannedTexts fields item ++ scannedTextsOfItems fields rest

def scannedTextsOfEntries (fields : List CodeUnits) :
    List (CodeUnits × LogValue) → List CodeUnits
  | [] => []
  | (key, value) :: rest =>
    (if key = units "__proto__" ∨ fields.contains (toLowerCase key) = true then []
      else scannedTexts fields value) ++ scannedTextsOfEntries fields rest

end

theorem not_containsKey_redactField (value : LogValue) :
    ¬ ∃ text ∈ textsOf (redactField value), ContainsKey text := by
  rintro ⟨text, htext, hkey⟩
  cases value with
  | string text' =>
    obtain rfl := List.mem_singleton.mp htext
    exact not_containsKey_maskStellarKey text' hkey
  | null | bool | number | array | object =>
    obtain rfl := List.mem_singleton.mp htext
    exact not_containsKey_of_short (by decide) hkey

theorem exists_mem_append {P : CodeUnits → Prop} {front back : List CodeUnits} :
    (∃ text ∈ front ++ back, P text) ↔ (∃ text ∈ front, P text) ∨ ∃ text ∈ back, P text := by
  simp only [List.mem_append, or_and_right, exists_or]

mutual

theorem exists_containsKey_sanitizeValue (fields : List CodeUnits) (value : LogValue) :
    (∃ text ∈ textsOf (sanitizeValue fields value), ContainsKey text) ↔
      ∃ text ∈ scannedTexts fields value, ContainsKey (redactKeysInString text) := by
  cases value with
  | null | bool | number => simp [sanitizeValue, textsOf, scannedTexts]
  | string => simp [sanitizeValue, textsOf, scannedTexts]
  | array items =>
    rw [sanitizeValue, textsOf, scannedTexts]
    exact exists_containsKey_sanitizeItems fields items
  | object entries =>
    rw [sanitizeValue, textsOf, scannedTexts]
    exact exists_containsKey_sanitizeEntries fields entries

theorem exists_containsKey_sanitizeItems (fields : List CodeUnits) (items : List LogValue) :
    (∃ text ∈ textsOfItems (sanitizeItems fields items), ContainsKey text) ↔
      ∃ text ∈ scannedTextsOfItems fields items, ContainsKey (redactKeysInString text) := by
  cases items with
  | nil => simp [sanitizeItems, textsOfItems, scannedTextsOfItems]
  | cons item rest =>
    rw [sanitizeItems, textsOfItems, scannedTextsOfItems, exists_mem_append, exists_mem_append,
      exists_containsKey_sanitizeValue fields item, exists_containsKey_sanitizeItems fields rest]

theorem exists_containsKey_sanitizeEntries (fields : List CodeUnits)
    (entries : List (CodeUnits × LogValue)) :
    (∃ text ∈ textsOfEntries (sanitizeEntries fields entries), ContainsKey text) ↔
      ∃ text ∈ scannedTextsOfEntries fields entries, ContainsKey (redactKeysInString text) := by
  match entries with
  | [] => simp [sanitizeEntries, textsOfEntries, scannedTextsOfEntries]
  | (key, value) :: rest =>
    have hrest := exists_containsKey_sanitizeEntries fields rest
    rw [sanitizeEntries, scannedTextsOfEntries, exists_mem_append, ← hrest]
    by_cases hproto : key = units "__proto__"
    · simp [hproto]
    by_cases hsensitive : fields.contains (toLowerCase key) = true
    · have hmasked := not_containsKey_redactField value
      rw [if_pos hsensitive, if_neg hproto, if_pos (.inr hsensitive), textsOfEntries,
        exists_mem_append]
      simp [hmasked]
    · rw [if_neg hsensitive, if_neg hproto, if_neg (not_or.mpr ⟨hproto, hsensitive⟩),
        textsOfEntries, exists_mem_append, exists_containsKey_sanitizeValue fields value]

end

/-! ## Main results -/

/-- No key is left where the remains of the keys that the scan finds contain none. For texts
that only the scan changes this is exact. The same holds of the texts of a sanitized value. -/
theorem redaction_leaves_no_key (text : CodeUnits) (value : LogValue) :
    (¬ Rejoins text → ¬ ContainsKey (redactKeysInString text)) ∧
    (IsQuiet text → (¬ ContainsKey (redactKeysInString text) ↔ ¬ Rejoins text)) ∧
    ((∀ part ∈ scannedTexts redactableFields value, ¬ Rejoins part) →
      ∀ part ∈ textsOf (sanitize value), ¬ ContainsKey part) ∧
    ((∀ part ∈ scannedTexts redactableFields value, IsQuiet part) →
      ((∀ part ∈ textsOf (sanitize value), ¬ ContainsKey part) ↔
        ∀ part ∈ scannedTexts redactableFields value, ¬ Rejoins part)) := by
  have hquiet_iff : ∀ part, IsQuiet part →
      (¬ ContainsKey (redactKeysInString part) ↔ ¬ Rejoins part) := by
    intro part hquiet
    rw [redactKeysInString_eq hquiet, containsKey_maskKeys]
  have hvalue : (∀ part ∈ textsOf (sanitize value), ¬ ContainsKey part) ↔
      ∀ part ∈ scannedTexts redactableFields value, ¬ ContainsKey (redactKeysInString part) := by
    rw [sanitize]
    have hsame := exists_containsKey_sanitizeValue redactableFields value
    rw [← not_iff_not] at hsame
    simpa only [not_exists, not_and] using hsame
  refine ⟨?text, hquiet_iff text, ?value, ?quietValue⟩
  case text =>
    intro hapart hkey
    exact hapart (rejoins_of_containsKey hkey)
  case value =>
    intro hapart
    rw [hvalue]
    exact fun part hpart hkey => hapart part hpart (rejoins_of_containsKey hkey)
  case quietValue =>
    intro hquiet
    rw [hvalue]
    exact forall₂_congr fun part hpart => hquiet_iff part (hquiet part hpart)

/-- Two keys of which the second begins with the last four characters of the first. -/
theorem redaction_leaves_rejoined_key :
    let text := units ("GAAAAAAAAAAAAAAAAAAAAAAAAAAAAAAAAAAAAAAAAAAAAAAAAAAAGAAA" ++
      "AAAAAAAAAAAAAAAAAAAAAAAAAAAAAAAAAAAAAAAAAAAAAAAAAAAA")
    let left := units "GAAA..GAAAAAAAAAAAAAAAAAAAAAAAAAAAAAAAAAAAAAAAAAAAAAAAAAAAAAAA"
    let entry := LogValue.object [(units "message", .string text)]
    redactKeysInString text = left ∧ ContainsKey left ∧
      textsOf (sanitize entry) = [left] := by
  intro text left entry
  have hredacted : redactKeysInString text = left := by decide +kernel
  have hshape : IsKeyShaped (left.drop 6) :=
    ⟨by decide +kernel, by decide +kernel, List.all_eq_true.mp (by decide +kernel)⟩
  refine ⟨hredacted, ⟨left.drop 6, (List.drop_suffix 6 left).isInfix, hshape⟩, ?_⟩
  have hplain : redactableFields.contains (toLowerCase (units "message")) = false := by
    decide +kernel
  have hname : units "message" ≠ units "__proto__" := by decide
  rw [sanitize, sanitizeValue, sanitizeEntries, hplain, if_neg Bool.false_ne_true, if_neg hname,
    sanitizeValue, sanitizeEntries, hredacted]
  rfl

end Fluxora.Pii
