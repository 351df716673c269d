/-
# The verdict of the guard

What the guard reads an address as is the number of the address, and it accepts an address exactly
when that number is in none of the blocked ranges. All spellings of an address have one number,
and an IPv4 address has that of the IPv6 address it is mapped to.
-/

import Fluxora.Lib.IpNumber
import Fluxora.Webhooks.SsrfGuard

namespace Fluxora.Webhooks

open Fluxora.Lib JsText IpAddress IpNumber

/-! ## The blocked numbers -/

/-- The number of the IPv6 address that an IPv4 address is mapped to. -/
def mappedValue (address : ℕ) : ℕ := 0xFFFF * 2 ^ 32 + address

/-- The first and the last number of each blocked range: `::`, `::1`, `fe80::/10`, `fc00::/7`,
and the ranges of IPv4 addresses. -/
def blockedNumbers : List (ℕ × ℕ) :=
  [(0, 0), (1, 1), (0xFE80 * 2 ^ 112, 0xFEC0 * 2 ^ 112 - 1),
    (0xFC00 * 2 ^ 112, 0xFE00 * 2 ^ 112 - 1)] ++
    blockedRanges.map fun range => (mappedValue range.start, mappedValue range.stop)

/-- A number outside every blocked range. -/
def IsUnblocked (value : ℕ) : Prop :=
  ∀ range ∈ blockedNumbers, ¬(range.1 ≤ value ∧ value ≤ range.2)

instance : DecidablePred IsUnblocked := fun _ =>
  inferInstanceAs (Decidable (∀ range ∈ blockedNumbers, _))

theorem lt_of_mem_blockedRanges {range : IPRange} (h : range ∈ blockedRanges) :
    range.stop < 2 ^ 32 := by
  have hall : ∀ range ∈ blockedRanges, range.stop < 2 ^ 32 := by decide
  exact hall range h

theorem isUnblocked_iff {value : ℕ} : IsUnblocked value ↔ IsPublicIPv6 value := by
  have hmapped : (∀ range ∈ blockedRanges,
      ¬(mappedValue range.start ≤ value ∧ value ≤ mappedValue range.stop)) ↔
        (value / 2 ^ 32 = 0xFFFF → IsPublicIPv4 (value % 2 ^ 32)) := by
    apply Iff.intro
    · intro h hprefix range hrange hinside
      apply h range hrange
      rw [mappedValue, mappedValue]
      omega
    · intro h range hrange hinside
      have hstop := lt_of_mem_blockedRanges hrange
      rw [mappedValue, mappedValue] at hinside
      exact h (by omega) range hrange (by omega)
  rw [IsUnblocked, blockedNumbers, List.forall_mem_append, List.forall_mem_map]
  simp only [List.forall_mem_cons, List.not_mem_nil, false_implies, implies_true, and_true]
  rw [hmapped]
  apply Iff.intro
  · rintro ⟨⟨hzero, hone, hlink, hlocal⟩, hv4⟩
    exact {
      not_unspecified := by omega
      not_loopback := by omega
      mapped := hv4
      not_linkLocal := by omega
      not_uniqueLocal := by omega }
  · intro h
    have hzero := h.not_unspecified
    have hone := h.not_loopback
    have hlink := h.not_linkLocal
    have hlocal := h.not_uniqueLocal
    exact ⟨⟨by omega, by omega, by omega, by omega⟩, h.mapped⟩

theorem isUnblocked_mappedValue {address : ℕ} (h : address < 2 ^ 32) :
    IsUnblocked (mappedValue address) ↔ IsPublicIPv4 address := by
  have hprefix : mappedValue address / 2 ^ 32 = 0xFFFF := by
    rw [mappedValue]
    omega
  have hrest : mappedValue address % 2 ^ 32 = address := by
    rw [mappedValue]
    omega
  rw [isUnblocked_iff]
  apply Iff.intro
  · intro hpublic
    have hv4 := hpublic.mapped hprefix
    rwa [hrest] at hv4
  · intro hv4
    exact {
      not_unspecified := by omega
      not_loopback := by omega
      mapped := fun _ => by rwa [hrest]
      not_linkLocal := by omega
      not_uniqueLocal := by omega }

/-! ## The conversions -/

variable {text : List Char}

theorem ipv4ToBigInt_eq (h : isIPv4 text = true) : ipv4ToBigInt text = .ok (ipv4Value text) := by
  obtain ⟨hlength, hoctets⟩ := octets_of_isIPv4 h
  have hlt := octet_lt h
  have hread : ∀ part ∈ text.splitOn '.', parseInt part = some (DigitText.value part : ℤ) := by
    intro part hpart
    obtain ⟨hne, -, hdigits, -⟩ := of_decide_eq_true (hoctets part hpart)
    exact parseInt_of_isDigits hne (List.all_eq_true.mp hdigits)
  rw [ipv4ToBigInt, ipv4Value]
  generalize text.splitOn '.' = parts at hlength hread hlt
  obtain ⟨a, b, c, d, rfl⟩ := List.length_eq_four.mp hlength
  have hparts : [a, b, c, d].mapM parseInt =
      some ([a, b, c, d].map fun part => (DigitText.value part : ℤ)) := by
    simp [hread a (by simp), hread b (by simp), hread c (by simp), hread d (by simp)]
  rw [hparts]
  refine (if_pos rfl).trans ?_
  refine (ipv4Octets_octets (hlt _ (by simp)) (hlt _ (by simp)) (hlt _ (by simp))
    (hlt _ (by simp))).trans ?_
  simp only [octets, positional, List.map_cons, List.map_nil, List.foldl_cons, List.foldl_nil,
    Nat.zero_mul, Nat.zero_add]

variable {digits : List Char}

theorem sectionValue_eq (h : isGroup digits = true) :
    sectionValue digits = some (hexNumber digits) := by
  obtain ⟨hlow, hhigh, hhex⟩ := of_decide_eq_true h
  have hread : ∀ (digits : List Char) (number : ℕ),
      (∀ c ∈ digits, (hexValue c).isSome = true) →
        (digits.mapM hexValue).map (·.foldl (fun value digit => value * 16 + digit) number) =
          some (digits.foldl (fun number c => 16 * number + (hexValue c).getD 0) number) := by
    intro digits
    induction digits with
    | nil => exact fun number _ => rfl
    | cons c digits ih =>
      intro number hdigits
      obtain ⟨n, hn⟩ := Option.isSome_iff_exists.mp (hdigits c List.mem_cons_self)
      have hrest := ih (16 * number + n) fun d hd => hdigits d (List.mem_cons_of_mem _ hd)
      rw [List.foldl_cons, hn, Option.getD_some, ← hrest, List.mapM_cons, hn]
      cases digits.mapM hexValue with
      | none => rfl
      | some =>
        simp only [Option.bind_eq_bind, Option.bind_some, Option.pure_def, Option.map_some,
          List.foldl_cons, Nat.mul_comm number 16]
  rw [sectionValue, if_pos ⟨hlow, hhigh⟩]
  exact hread digits 0 (List.all_eq_true.mp hhex)

variable {sections : List (List Char)}

theorem mapM_sectionValue (h : ∀ digits ∈ sections, isGroup digits = true) :
    sections.mapM sectionValue = some (sections.map hexNumber) := by
  induction sections with
  | nil => rfl
  | cons digits _ ih =>
    rw [List.mapM_cons, sectionValue_eq (h digits List.mem_cons_self),
      ih fun other hother => h other (List.mem_cons_of_mem _ hother)]
    rfl

theorem ipv6Sections_eq (ip : List Char) (h : isIPv6Address text = true) (hpoint : '.' ∉ text) :
    ∃ sections, ipv6Sections ip text = .ok sections ∧
      (∀ digits ∈ sections, isGroup digits = true) ∧ sections.length = 8 ∧
        sections.map hexNumber = addressNumbers text := by
  rcases forms_of_isIPv6Address h with ⟨whole, hsplit, hcount, hnumbers⟩ |
    ⟨left, right, count, hsplit, hleft, hcount, hle, hnumbers⟩
  · rcases groups_of_groupCount hcount with ⟨hall, hlength⟩ | ⟨init, v4, hgroups, -, hv4, -⟩
    · refine ⟨colonGroups whole, by rw [ipv6Sections, hsplit], hall, hlength, ?_⟩
      rw [hnumbers, groupNumbers_of_isGroup hall]
    · have hmem : v4 ∈ colonGroups whole := by simp [hgroups]
      have hin := mem_of_mem_splitDoubleColon (hsplit ▸ List.mem_singleton_self whole)
        (mem_of_mem_colonGroups hmem (isIPv4_chars hv4).2.1)
      exact absurd hin hpoint
  · rcases groups_of_groupCount hcount with ⟨hall, hlength⟩ | ⟨init, v4, hgroups, -, hv4, -⟩
    · refine ⟨_, by rw [ipv6Sections, hsplit]; exact if_pos (by omega), ?_, ?_, ?_⟩
      · intro digits hdigits
        rcases List.mem_append.mp hdigits with hinit | hright
        · rcases List.mem_append.mp hinit with hinLeft | hzero
          · exact hleft digits hinLeft
          · rw [List.eq_of_mem_replicate hzero]
            decide
        · exact hall digits hright
      · simp only [List.length_append, List.length_replicate]
        omega
      · rw [hnumbers, groupNumbers_of_isGroup hall, List.map_append, List.map_append,
          List.map_replicate, hlength]
        rfl
    · have hmem : v4 ∈ colonGroups right := by simp [hgroups]
      have hin := mem_of_mem_splitDoubleColon
        (hsplit ▸ List.mem_cons_of_mem _ (List.mem_singleton_self right))
        (mem_of_mem_colonGroups hmem (isIPv4_chars hv4).2.1)
      exact absurd hin hpoint

theorem embeddedIPv4_of_notMem (h : '.' ∉ text) : embeddedIPv4 text = none := by
  have hone : (text.rtakeWhile (· ≠ ':')).splitOn '.' = [text.rtakeWhile (· ≠ ':')] :=
    List.splitOn_eq_singleton fun hmem =>
      h ((List.rtakeWhile_suffix (fun c => decide (c ≠ ':')) text).subset hmem)
  rw [embeddedIPv4]
  simp only [hone, List.length_singleton]
  exact if_neg fun hall => absurd hall.2.2.1 (by decide)

theorem embeddedIPv4_append {front v4 : List Char} (hfront : front.getLast? = some ':')
    (hv4 : isIPv4 v4 = true) (hchars : ∀ c ∈ front, isZoneChar c = true) :
    embeddedIPv4 (front ++ v4) = some (front, v4) := by
  have hcolon := colon_notMem_of_isIPv4 hv4
  have hkept : ∀ c ∈ v4.reverse, (decide (c ≠ ':')) = true := fun c hc =>
    decide_eq_true fun heq => hcolon (heq ▸ List.mem_reverse.mp hc)
  obtain ⟨start, rfl⟩ := List.getLast?_eq_some_iff.mp hfront
  have hdrop : ((start ++ [':']) ++ v4).rdropWhile (fun c => decide (c ≠ ':')) =
      start ++ [':'] := by
    rw [List.rdropWhile, List.reverse_append, List.dropWhile_append_of_pos hkept]
    simp
  have htake : ((start ++ [':']) ++ v4).rtakeWhile (fun c => decide (c ≠ ':')) = v4 := by
    rw [List.rtakeWhile, List.reverse_append, List.takeWhile_append_of_pos hkept]
    simp
  have hline : (start ++ [':']).any
      (fun c => [0xA, 0xD, 0x2028, 0x2029].contains c.toNat) = false := by
    rw [List.any_eq_false]
    intro c hc hline
    have hzone := (isZoneChar_iff c).mp (hchars c hc)
    simp only [List.contains_iff_mem, List.mem_cons, List.not_mem_nil, or_false] at hline
    omega
  obtain ⟨hlength, hoctets⟩ := octets_of_isIPv4 hv4
  have hgroups : (v4.splitOn '.').all
      (fun digits => decide (digits ≠ []) && digits.all Char.isDigit) = true := by
    apply List.all_eq_true.mpr
    intro part hpart
    obtain ⟨hne, -, hdigits, -⟩ := of_decide_eq_true (hoctets part hpart)
    rw [hdigits, Bool.and_true]
    exact decide_eq_true hne
  rw [embeddedIPv4]
  simp only [hdrop, htake]
  exact if_pos ⟨by simp, hline, hlength, hgroups⟩

/-- What is read once the IPv4 tail is replaced. -/
def readSections (ip normalized : List Char) : Except String ℕ := do
  let sections ← ipv6Sections ip normalized
  match sections.mapM sectionValue with
  | some values =>
    if values.length = 8 then .ok (values.foldl (fun result value => result * 65536 + value) 0)
    else .error ("Invalid IPv6 address: " ++ String.ofList ip)
  | none => .error ("Invalid IPv6 address: " ++ String.ofList ip)

theorem ipv6ToBigInt_of_isIPv6Address {toLowerCase : List Char → List Char} {ip : List Char}
    (h : isIPv6Address (toLowerCase (stripBrackets ip)) = true) :
    ipv6ToBigInt toLowerCase ip = .ok (ipv6Value (toLowerCase (stripBrackets ip))) := by
  rw [ipv6ToBigInt]
  generalize toLowerCase (stripBrackets ip) = lowered at h
  have hread : ∀ normalized, isIPv6Address normalized = true → '.' ∉ normalized →
      addressNumbers normalized = addressNumbers lowered →
        readSections ip normalized = .ok (ipv6Value lowered) := by
    intro normalized haddress hpoint hnumbers
    obtain ⟨sections, hsections, hgroups, hlength, hvalues⟩ :=
      ipv6Sections_eq ip haddress hpoint
    refine Fallible.bind_eq_ok.mpr ⟨sections, hsections, ?_⟩
    rw [mapM_sectionValue hgroups]
    refine (if_pos (by rw [List.length_map, hlength])).trans ?_
    rw [hvalues, hnumbers]
    rfl
  by_cases hpoint : '.' ∈ lowered
  · obtain ⟨front, v4, rfl, hfront, hv4⟩ := exists_ipv4_tail h hpoint
    have hchars := isZoneChar_of_isIPv6Address h
    have hlt := ipv4Value_lt hv4
    have hreplaced := replace_ipv4_tail h hfront hv4
      (isGroup_toDigits (n := ipv4Value v4 / 65536) (by omega))
      (isGroup_toDigits (n := ipv4Value v4 % 65536) (by omega))
      (by rw [hexNumber_toDigits, hexNumber_toDigits])
    have hembedded := embeddedIPv4_append hfront hv4 fun c hc =>
      hchars c (List.mem_append_left _ hc)
    simp only [hembedded, ipv4ToBigInt_eq hv4, Except.map, List.append_assoc]
    exact hread _ hreplaced.1 hreplaced.2.1 hreplaced.2.2
  · simp only [embeddedIPv4_of_notMem hpoint]
    exact hread lowered h hpoint rfl

/-! ## Zones -/

theorem mapM_sectionValue_eq_none (hmem : digits ∈ sections)
    (hdigits : sectionValue digits = none) :
    sections.mapM sectionValue = none := by
  induction sections with
  | nil => exact absurd hmem List.not_mem_nil
  | cons first _ ih =>
    rw [List.mapM_cons]
    rcases List.mem_cons.mp hmem with rfl | hlater
    · rw [hdigits]
      rfl
    · rw [ih hlater]
      cases sectionValue first <;> rfl

theorem sectionValue_eq_none (h : '%' ∈ digits) : sectionValue digits = none := by
  have hread : ∀ digits : List Char, '%' ∈ digits → digits.mapM hexValue = none := by
    intro digits
    induction digits with
    | nil => exact fun hmem => absurd hmem List.not_mem_nil
    | cons c _ ih =>
      intro hmem
      rw [List.mapM_cons]
      rcases List.mem_cons.mp hmem with rfl | hlater
      · rfl
      · rw [ih hlater]
        cases hexValue c <;> rfl
  rw [sectionValue, hread digits h]
  split_ifs <;> rfl

theorem exists_section {ip : List Char} (h : ipv6Sections ip text = .ok sections)
    (hmem : '%' ∈ text) : ∃ digits ∈ sections, '%' ∈ digits := by
  have hgroup : ∀ {part : List Char}, '%' ∈ part → ∃ group ∈ colonGroups part, '%' ∈ group := by
    intro part hpart
    rw [← intercalate_colonGroups part] at hpart
    exact (Split.mem_of_mem_intercalate hpart).resolve_left (by decide)
  rw [ipv6Sections] at h
  split at h
  next whole hsplit =>
    cases h
    rw [eq_of_splitDoubleColon_whole hsplit] at hmem
    exact hgroup hmem
  next left right hsplit =>
    dsimp only at h
    split_ifs at h
    cases h
    rw [eq_of_splitDoubleColon_cut hsplit] at hmem
    rcases List.mem_append.mp hmem with hfront | hright
    · rcases List.mem_append.mp hfront with hleft | hcolon
      · obtain ⟨group, hin, hpercent⟩ := hgroup hleft
        exact ⟨group, List.mem_append_left _ (List.mem_append_left _ hin), hpercent⟩
      · exact absurd hcolon (by decide)
    · obtain ⟨group, hin, hpercent⟩ := hgroup hright
      exact ⟨group, List.mem_append_right _ hin, hpercent⟩
  next => cases h

theorem zone_mem_front {front tail : List Char} (h : embeddedIPv4 text = some (front, tail))
    (hmem : '%' ∈ text) : '%' ∈ front := by
  rw [embeddedIPv4] at h
  split_ifs at h with hfound
  cases h
  rw [← List.rdropWhile_append_rtakeWhile (p := fun c => decide (c ≠ ':')) (l := text)] at hmem
  apply (List.mem_append.mp hmem).resolve_right
  intro htail
  have hjoin : ['.'].intercalate ((text.rtakeWhile fun c => decide (c ≠ ':')).splitOn '.') =
      text.rtakeWhile fun c => decide (c ≠ ':') := List.intercalate_splitOn '.'
  rw [← hjoin] at htail
  rcases Split.mem_of_mem_intercalate htail with hpoint | ⟨digits, hdigits, hin⟩
  · exact absurd hpoint (by decide)
  · have hpart := List.all_eq_true.mp hfound.2.2.2 digits hdigits
    simp only [Bool.and_eq_true, List.all_eq_true] at hpart
    exact absurd (hpart.2 '%' hin) (by decide)

theorem exists_ipv6ToBigInt_error {toLowerCase : List Char → List Char} {ip : List Char}
    (h : '%' ∈ toLowerCase (stripBrackets ip)) :
    ∃ error, ipv6ToBigInt toLowerCase ip = .error error := by
  cases hread : ipv6ToBigInt toLowerCase ip with
  | error error => exact ⟨error, rfl⟩
  | ok value =>
    have hzone : ∀ normalized, '%' ∈ normalized →
        readSections ip normalized ≠ .ok value := by
      intro normalized hmem hok
      obtain ⟨sections, hsections, hok⟩ := Fallible.bind_eq_ok.mp hok
      obtain ⟨digits, hdigits, hpercent⟩ := exists_section hsections hmem
      rw [mapM_sectionValue_eq_none hdigits (sectionValue_eq_none hpercent)] at hok
      cases hok
    rw [ipv6ToBigInt] at hread
    split at hread
    next front tail hembedded =>
      obtain ⟨normalized, hnormalized, hread⟩ := Fallible.bind_eq_ok.mp hread
      cases hv4 : ipv4ToBigInt tail with
      | error =>
        rw [hv4] at hnormalized
        cases hnormalized
      | ok =>
        rw [hv4] at hnormalized
        cases hnormalized
        refine absurd hread (hzone _ ?_)
        exact List.mem_append_left _ (List.mem_append_left _ (zone_mem_front hembedded h))
    next =>
      obtain ⟨normalized, hnormalized, hread⟩ := Fallible.bind_eq_ok.mp hread
      cases hnormalized
      exact absurd hread (hzone _ h)

/-! ## The verdict -/

/-- The runtime's lower case of the characters up to 127. -/
def LowersAscii (toLowerCase : List Char → List Char) : Prop :=
  ∀ text, (∀ c ∈ text, c.toNat < 128) → toLowerCase text = text.map Char.toLower

theorem stripBrackets_of_isIP (h : isIP text ≠ 0) : stripBrackets text = text := by
  have hchar := char_of_isIP h
  have hbracket : ∀ c ∈ text, c ≠ '[' ∧ c ≠ ']' := by
    intro c hc
    refine ⟨?_, ?_⟩
    · rintro rfl
      exact absurd (hchar _ hc) (by decide)
    · rintro rfl
      exact absurd (hchar _ hc) (by decide)
  have hlast : text.getLast? ≠ some ']' := fun hlast =>
    (hbracket ']' (List.mem_of_getLast? hlast)).2 rfl
  cases text with
  | nil => rfl
  | cons c =>
    have hc := (hbracket c List.mem_cons_self).1
    rw [stripBrackets, if_neg hlast]
    intro rest' hopen
    exact hc (List.cons.inj hopen).1

theorem lower_of_isIP {toLowerCase : List Char → List Char} (hlower : LowersAscii toLowerCase)
    (h : isIP text ≠ 0) : toLowerCase text = text.map Char.toLower := by
  apply hlower
  intro c hc
  have hchar : isZoneChar c = true ∨ c = '%' := char_of_isIP h c hc
  rw [isZoneChar_iff, ← Char.toNat_inj] at hchar
  have hpercent : '%'.toNat = 37 := rfl
  omega

theorem isIPv4_of_isIP (h : isIP text = 4) : isIPv4 text = true := by
  by_contra hnot
  rw [isIP, if_neg hnot] at h
  split_ifs at h
  cases h

theorem not_isIPv4_of_isIP (h : isIP text = 6) : ¬isIPv4 text = true := by
  intro hv4
  rw [isIP, if_pos hv4] at h
  cases h

theorem isIP_cases (h : isIP text ≠ 0) : isIP text = 4 ∨ isIP text = 6 := by
  rw [isIP] at h ⊢
  split_ifs at h ⊢
  · exact Or.inl rfl
  · exact Or.inr rfl
  · exact absurd rfl h

section

variable {env : GuardEnv} {ip : String}

theorem ipv6ToBigInt_eq (hlower : LowersAscii env.toLowerCase) (h : isIP text = 6)
    (hzone : '%' ∉ text) : ipv6ToBigInt env.toLowerCase text = .ok (ipv6Value text) := by
  have hne : isIP text ≠ 0 := by
    rw [h]
    decide
  have haddress := isIPv6Address_of_isIP h hzone
  have hlowered : env.toLowerCase (stripBrackets text) = text.map Char.toLower := by
    rw [stripBrackets_of_isIP hne, lower_of_isIP hlower hne]
  rw [ipv6ToBigInt_of_isIPv6Address, hlowered, ipv6Value, addressNumbers_toLower, ipv6Value]
  rw [hlowered, isIPv6Address_toLower]
  exact haddress

theorem length_le_of_isIP (h : isIP ip.toList ≠ 0) (hzone : '%' ∉ ip.toList) :
    (codeUnits ip.toList).length ≤ maxIpAddressLength := by
  have hunits := length_codeUnits_le ip.toList
  have hlength : ip.toList.length ≤ 128 := by
    rcases isIP_cases h with hfour | hsix
    · have hshort := (isIPv4_chars (isIPv4_of_isIP hfour)).2.2
      omega
    · exact length_of_isIPv6Address (isIPv6Address_of_isIP hsix hzone)
  rw [maxIpAddressLength]
  omega

theorem isPublic_iff (hlower : LowersAscii env.toLowerCase) (h : isIP ip.toList ≠ 0)
    (hzone : '%' ∉ ip.toList) : IsPublic env ip ↔ IsUnblocked (addressValue ip.toList) := by
  rw [IsPublic, trim_of_isIP h, stripBrackets_of_isIP h]
  rcases isIP_cases h with hfour | hsix
  · have hv4 := isIPv4_of_isIP hfour
    have hmapped := isUnblocked_mappedValue (ipv4Value_lt hv4)
    rw [addressValue, if_pos hv4]
    simp only [hfour, ipv4ToBigInt_eq hv4, Except.ok.injEq, exists_eq_left']
    simpa [mappedValue] using hmapped.symm
  · rw [addressValue, if_neg (not_isIPv4_of_isIP hsix), isUnblocked_iff]
    simp [hsix, ipv6ToBigInt_eq hlower hsix hzone]

theorem validateWebhookIPAddress_ne_ok (hlower : LowersAscii env.toLowerCase)
    (hip : isIP ip.toList ≠ 0) (hzone : '%' ∈ ip.toList) :
    validateWebhookIPAddress env ip ≠ .ok () := by
  intro hok
  obtain ⟨-, -, hpublic⟩ := validateWebhookIPAddress_eq_ok_iff.mp hok
  rw [IsPublic, trim_of_isIP hip, stripBrackets_of_isIP hip] at hpublic
  rcases hpublic with ⟨hfour, -⟩ | ⟨-, value, hread, -⟩
  · have hchar := (isIPv4_chars (isIPv4_of_isIP hfour)).1 '%' hzone
    exact absurd hchar (by decide)
  · have hlowered : '%' ∈ env.toLowerCase (stripBrackets ip.toList) := by
      rw [stripBrackets_of_isIP hip, lower_of_isIP hlower hip]
      exact List.mem_map.mpr ⟨'%', hzone, by decide⟩
    obtain ⟨error, herror⟩ := exists_ipv6ToBigInt_error hlowered
    rw [herror] at hread
    cases hread

/-- For every text that the runtime takes for an address and that has no zone, what the guard
reads is the number of the address, and it accepts the text exactly when that number is outside
every blocked range; so it decides alike on all spellings of an address, and on an IPv4 address
and one that is mapped from it. A text with a zone is rejected. -/
theorem validateWebhookIPAddress_iff_isUnblocked (env : GuardEnv)
    (hlower : LowersAscii env.toLowerCase) (ip : String) (hip : isIP ip.toList ≠ 0) :
    ('%' ∉ ip.toList →
      (isIP ip.toList = 4 → ipv4ToBigInt ip.toList = .ok (ipv4Value ip.toList)) ∧
      (isIP ip.toList = 6 →
        ipv6ToBigInt env.toLowerCase ip.toList = .ok (ipv6Value ip.toList)) ∧
      (validateWebhookIPAddress env ip = .ok () ↔ IsUnblocked (addressValue ip.toList)) ∧
      ∀ other : String, isIP other.toList ≠ 0 → '%' ∉ other.toList →
        addressValue ip.toList = addressValue other.toList →
        (validateWebhookIPAddress env ip = .ok () ↔
          validateWebhookIPAddress env other = .ok ())) ∧
    ('%' ∈ ip.toList → validateWebhookIPAddress env ip ≠ .ok ()) := by
  have hverdict : ∀ ip : String, isIP ip.toList ≠ 0 → '%' ∉ ip.toList →
      (validateWebhookIPAddress env ip = .ok () ↔ IsUnblocked (addressValue ip.toList)) := by
    intro ip hip hzone
    rw [validateWebhookIPAddress_eq_ok_iff, isPublic_iff hlower hip hzone, trim_of_isIP hip]
    have hne : ip.toList ≠ [] := by
      intro hnil
      rw [hnil] at hip
      exact hip rfl
    simp [hne, length_le_of_isIP hip hzone]
  apply And.intro
  · intro hzone
    refine ⟨fun hfour => ipv4ToBigInt_eq (isIPv4_of_isIP hfour),
      fun hsix => ipv6ToBigInt_eq hlower hsix hzone, hverdict ip hip hzone, ?_⟩
    intro other hother hotherZone hsame
    rw [hverdict ip hip hzone, hverdict other hother hotherZone, hsame]
  · exact validateWebhookIPAddress_ne_ok hlower hip

end

/-- A guard whose runtime lowers only the characters up to 127. -/
def asciiGuard : GuardEnv where
  parseUrl := fun _ => none
  dnsLookup := fun _ => none
  toLowerCase := List.map Char.toLower

/-- A spelling of a mapped address with capital letters has the verdict of `10.1.2.3`. -/
theorem validateWebhookIPAddress_mapped :
    validateWebhookIPAddress asciiGuard "::FFFF:a01:203" ≠ .ok () := by
  have hspec := (validateWebhookIPAddress_iff_isUnblocked asciiGuard (fun _ _ => rfl)
    "::FFFF:a01:203" (by decide)).1 (by decide)
  rw [ne_eq, hspec.2.2.1]
  decide

/-- The runtime takes a public address with a zone for an address, and the guard rejects it. -/
theorem validateWebhookIPAddress_zone :
    isIP "2001:db8::1%eth0".toList = 6 ∧ IsUnblocked (addressValue "2001:db8::1".toList) ∧
      (∃ error, ipv6ToBigInt (List.map Char.toLower) "2001:db8::1%eth0".toList = .error error) ∧
        validateWebhookIPAddress asciiGuard "2001:db8::1%eth0" ≠ .ok () :=
  ⟨by decide, by decide, exists_ipv6ToBigInt_error (by decide),
    validateWebhookIPAddress_ne_ok (fun _ _ => rfl) (by decide) (by decide)⟩

end Fluxora.Webhooks
