/-
# How canonical the form of an address is

Two texts of one address have one canonical form when they are written alike: both as IPv4
addresses, where `::ffff:` may stand in front, or both in hexadecimal digits only.

An IPv6 address that ends in an IPv4 address is expanded as if that were one group of the eight.
-/

import Fluxora.Lib.IpNumber
import Fluxora.RateLimit.ClientAddress

namespace Fluxora.RateLimit

open Lib Lib.JsText Lib.IpAddress Lib.IpNumber

/-! ## How an address is written -/

inductive Writing
  /-- An IPv4 address, or one with `::ffff:` in front of it. -/
  | ipv4
  /-- An IPv6 address in hexadecimal digits. -/
  | digits
  /-- Another IPv6 address that ends in an IPv4 address. -/
  | dotted
  deriving DecidableEq

def writing (text : List Char) : Writing :=
  if isIPv4 text ∨ (v4Mapped (text.map Char.toLower)).isSome then .ipv4
  else if '.' ∈ text then .dotted
  else .digits

/-- A text of an address, without a zone. -/
def IsAddress (text : List Char) : Prop := isIPv4 text = true ∨ isIPv6Address text = true

instance : DecidablePred IsAddress := fun _ => inferInstanceAs (Decidable (_ ∨ _))

/-- The number of a group, or that of an IPv4 address in its place. -/
def piece (group : List Char) : ℕ ⊕ ℕ :=
  if isIPv4 group then .inr (ipv4Value group) else .inl (hexNumber group)

/-- The pieces of an IPv6 address when an IPv4 address at its end counts as one group of the
eight. -/
def loosePieces (text : List Char) : List (ℕ ⊕ ℕ) :=
  match splitDoubleColon text with
  | [whole] =>
    let pieces := (colonGroups whole).map piece
    pieces ++ List.replicate (8 - pieces.length) (.inl 0)
  | [left, right] =>
    let left := (colonGroups left).map piece
    let right := (colonGroups right).map piece
    left ++ List.replicate (8 - left.length - right.length) (.inl 0) ++ right
  | _ => []

/-- Two texts are written so that their forms agree exactly when their addresses do. -/
def WrittenAlike (a b : List Char) : Prop :=
  match writing a, writing b with
  | .dotted, .dotted => loosePieces a = loosePieces b ↔ addressValue a = addressValue b
  | first, second => addressValue a = addressValue b → first = second

/-! ## Valid texts -/

variable {text : List Char}

theorem not_isIPv4_of_isIPv6Address (h : isIPv6Address text = true) : ¬isIPv4 text = true := by
  intro hv4
  have hcolon := colon_notMem_of_isIPv4 hv4
  have hne : text ≠ [] := ne_nil_of_isGroup (Or.inr hv4)
  have hgroups : colonGroups text = [text] := by
    rw [colonGroups_eq_splitOn hne, List.splitOn_eq_singleton hcolon]
  rw [isIPv6Address, splitDoubleColon_of_notMem hcolon] at h
  simp only [hgroups, groupCount, decide_eq_true_eq] at h
  split_ifs at h
  · cases h
  · cases h

theorem isIP_of_isIPv6Address (h : isIPv6Address text = true) : isIP text = 6 := by
  have hzone : text.takeWhile (· ≠ '%') = text := by
    apply List.takeWhile_eq_self_iff.mpr
    intro c hc
    apply decide_eq_true
    rintro rfl
    exact absurd (isZoneChar_of_isIPv6Address h '%' hc) (by decide)
  rw [isIP, if_neg (not_isIPv4_of_isIPv6Address h), isIPv6, hzone, h, List.drop_length]
  rfl

theorem isIP_of_isIPv4 (h : isIPv4 text = true) : isIP text = 4 := by
  rw [isIP, if_pos h]

theorem normaliseIp_of_isIPv6Address (h : isIPv6Address text = true) :
    normaliseIp text = canonicalIpv6 text := by
  have hsix := isIP_of_isIPv6Address h
  have hne : text ≠ [] := by
    rintro rfl
    exact absurd h (by decide)
  rw [normaliseIp, trim_of_isIP (by rw [hsix]; decide)]
  simp [hne, hsix]

theorem normaliseIp_of_isIPv4 (h : isIPv4 text = true) : normaliseIp text = text := by
  have hfour := isIP_of_isIPv4 h
  rw [normaliseIp, trim_of_isIP (by rw [hfour]; decide)]
  simp [ne_nil_of_isGroup (Or.inr h), hfour]

theorem lower_of_v4Mapped {lower v4 : List Char} (h : v4Mapped lower = some v4) :
    lower = "::ffff".toList ++ ':' :: v4 := by
  rw [v4Mapped] at h
  split_ifs at h with hspelled
  cases h
  obtain ⟨rest, hrest⟩ := List.isPrefixOf_iff_prefix.mp hspelled.1
  rw [← hrest]
  rfl

theorem mapped_spec {v4 : List Char} (h : isIPv6Address text = true)
    (hmapped : v4Mapped (text.map Char.toLower) = some v4) :
    isIPv4 v4 = true ∧ addressNumbers text =
      [0, 0, 0, 0, 0, 0xFFFF, ipv4Value v4 / 65536, ipv4Value v4 % 65536] := by
  obtain ⟨hchars, hpoint, -⟩ := v4Mapped_chars hmapped
  have hlower := lower_of_v4Mapped hmapped
  have haddress : isIPv6Address (text.map Char.toLower) = true := by
    rw [isIPv6Address_toLower]
    exact h
  have hcolon : ':' ∉ v4 := fun hmem => absurd (hchars ':' hmem) (by decide)
  have hv4 : isIPv4 v4 = true := by
    obtain ⟨front, tail, hsplit, hlast, htail⟩ := exists_ipv4_tail haddress (by
      rw [hlower]
      exact List.mem_append_right _ (List.mem_cons_of_mem _ hpoint))
    obtain ⟨front, rfl⟩ := List.getLast?_eq_some_iff.mp hlast
    rw [hlower, List.append_assoc, List.singleton_append] at hsplit
    rwa [(append_separator_inj hcolon (colon_notMem_of_isIPv4 htail) hsplit).2]
  refine ⟨hv4, ?_⟩
  have hrest : splitDoubleColon ("ffff".toList ++ ':' :: v4) = ["ffff".toList ++ ':' :: v4] := by
    apply splitDoubleColon_append (by decide)
    exact splitDoubleColon_cons (fun _ => head?_ne_of_notMem hcolon)
      (splitDoubleColon_of_notMem hcolon)
  have hpieces : splitDoubleColon (text.map Char.toLower) = [[], "ffff".toList ++ ':' :: v4] := by
    rw [hlower]
    exact congrArg ([] :: ·) hrest
  have hgroups : colonGroups ("ffff".toList ++ ':' :: v4) = ["ffff".toList, v4] := by
    rw [colonGroups_eq_splitOn (by simp),
      List.splitOn_append_cons_self_of_not_mem (by decide), List.splitOn_eq_singleton hcolon]
  have hnumbers : groupNumbers ["ffff".toList, v4] =
      [0xFFFF, ipv4Value v4 / 65536, ipv4Value v4 % 65536] := by
    rw [← List.singleton_append, groupNumbers_append, groupNumbers_singleton hv4]
    rfl
  rw [← addressNumbers_toLower, addressNumbers, hpieces]
  simp only [hgroups, hnumbers]
  rfl

theorem seven_le_length_of_isIPv4 (h : isIPv4 text = true) : 7 ≤ text.length := by
  obtain ⟨hlength, hoctets⟩ := octets_of_isIPv4 h
  have hjoin : ['.'].intercalate (text.splitOn '.') = text := List.intercalate_splitOn '.'
  have hpos : ∀ part ∈ text.splitOn '.', 0 < part.length := fun part hpart =>
    List.length_pos_iff.mpr (of_decide_eq_true (hoctets part hpart)).1
  rw [← hjoin]
  generalize text.splitOn '.' = parts at hlength hpos
  match parts, hlength with
  | [a, b, c, d], _ =>
    have ha := hpos a (by simp)
    have hb := hpos b (by simp)
    have hc := hpos c (by simp)
    have hd := hpos d (by simp)
    simp only [List.intercalate_cons_cons, List.intercalate_singleton, List.length_append,
      List.length_singleton]
    omega

/-! ## The form of each writing -/

theorem isIPv6Address_of_writing (h : IsAddress text) (hwriting : writing text ≠ .ipv4) :
    isIPv6Address text = true := by
  apply h.resolve_left
  intro hv4
  rw [writing, if_pos (Or.inl hv4)] at hwriting
  exact hwriting rfl

theorem form_of_ipv4 (h : IsAddress text) (hwriting : writing text = .ipv4) :
    ∃ v4, isIPv4 v4 = true ∧ normaliseIp text = v4 ∧
      addressValue text = 0xFFFF * 2 ^ 32 + ipv4Value v4 := by
  by_cases hv4 : isIPv4 text = true
  · refine ⟨text, hv4, normaliseIp_of_isIPv4 hv4, ?_⟩
    rw [addressValue, if_pos hv4]
  · have haddress := h.resolve_left hv4
    have hmapped : (v4Mapped (text.map Char.toLower)).isSome = true := by
      rw [writing] at hwriting
      by_contra hnot
      rw [if_neg (not_or.mpr ⟨hv4, hnot⟩)] at hwriting
      split_ifs at hwriting
    obtain ⟨v4, hsome⟩ := Option.isSome_iff_exists.mp hmapped
    obtain ⟨hv4', hnumbers⟩ := mapped_spec haddress hsome
    refine ⟨v4, hv4', ?_, ?_⟩
    · rw [normaliseIp_of_isIPv6Address haddress, canonicalIpv6, hsome]
    · rw [addressValue, if_neg hv4, ipv6Value, hnumbers]
      simp only [positional, List.foldl_cons, List.foldl_nil]
      omega

theorem form_of_ipv6 (h : IsAddress text) (hwriting : writing text ≠ .ipv4) :
    normaliseIp text = [':'].intercalate
      ((expandIpv6 (text.map Char.toLower)).map (DigitText.padStart 4)) ∧
        addressValue text = ipv6Value text := by
  have haddress := isIPv6Address_of_writing h hwriting
  have hnone : v4Mapped (text.map Char.toLower) = none := by
    cases hmapped : v4Mapped (text.map Char.toLower) with
    | none => rfl
    | some =>
      rw [writing, if_pos (Or.inr (by rw [hmapped]; rfl))] at hwriting
      exact absurd rfl hwriting
  refine ⟨?_, by rw [addressValue, if_neg (not_isIPv4_of_isIPv6Address haddress)]⟩
  rw [normaliseIp_of_isIPv6Address haddress, canonicalIpv6, hnone]

/-! ## Pieces -/

theorem piece_toLower (group : List Char) : piece (group.map Char.toLower) = piece group := by
  rw [piece, piece, isIPv4_toLower]
  by_cases hv4 : isIPv4 group = true
  · rw [if_pos hv4, if_pos hv4, map_toLower_of_isIPv4 (Or.inr hv4)]
  · have hnumber : hexNumber (group.map Char.toLower) = hexNumber group := by
      rw [hexNumber, hexNumber, List.foldl_map]
      simp only [hexValue_toLower]
    rw [if_neg hv4, if_neg hv4, hnumber]

variable {group : List Char}

theorem piece_of_isGroup (h : isGroup group = true) : piece group = .inl (hexNumber group) :=
  if_neg (not_isIPv4_of_isGroup h)

theorem piece_of_isIPv4 (h : isIPv4 group = true) : piece group = .inr (ipv4Value group) := if_pos h

theorem map_piece_expandIpv6 (h : isIPv6Address text = true) :
    (expandIpv6 (text.map Char.toLower)).map piece = loosePieces text := by
  have hlower : ∀ groups : List (List Char),
      (groups.map (·.map Char.toLower)).map piece = groups.map piece := by
    intro groups
    rw [List.map_map]
    exact List.map_congr_left fun group _ => piece_toLower group
  have hzero : piece ['0'] = .inl 0 := by decide
  rcases forms_of_isIPv6Address h with ⟨whole, hsplit, hcount, -⟩ |
    ⟨left, right, count, hsplit, hleft, hcount, hle, -⟩
  · rw [(addressSides_whole hsplit hcount).expand, loosePieces, hsplit]
    simp only [List.map_append, hlower, List.map_replicate, hzero, List.map_nil, List.append_nil,
      List.length_map, List.length_nil, Nat.sub_zero]
  · rw [(addressSides_cut hsplit hleft hcount hle).expand, loosePieces, hsplit]
    simp only [List.map_append, hlower, List.map_replicate, hzero, List.length_map]

/-- A part of a canonical form. -/
def IsPart (part : List Char) : Prop := IsFullGroup part ∨ isIPv4 part = true

theorem piece_inj {part part' : List Char} (h : IsPart part) (h' : IsPart part')
    (heq : piece part = piece part') : part = part' := by
  rcases h with hfull | hv4
  · rcases h' with hfull' | hv4'
    · rw [piece_of_isGroup hfull.isGroup, piece_of_isGroup hfull'.isGroup] at heq
      exact hexNumber_inj (hfull.length_eq.trans hfull'.length_eq.symm)
        (fun c hc => ⟨hfull.hex c hc, hfull.lower c hc⟩)
        (fun c hc => ⟨hfull'.hex c hc, hfull'.lower c hc⟩) (Sum.inl.inj heq)
    · rw [piece_of_isGroup hfull.isGroup, piece_of_isIPv4 hv4'] at heq
      cases heq
  · rcases h' with hfull' | hv4'
    · rw [piece_of_isIPv4 hv4, piece_of_isGroup hfull'.isGroup] at heq
      cases heq
    · rw [piece_of_isIPv4 hv4, piece_of_isIPv4 hv4'] at heq
      exact ipv4Value_inj hv4 hv4' (Sum.inr.inj heq)

theorem map_piece_inj {parts parts' : List (List Char)} (h : ∀ part ∈ parts, IsPart part)
    (h' : ∀ part ∈ parts', IsPart part) (heq : parts.map piece = parts'.map piece) :
    parts = parts' := by
  induction parts generalizing parts' with
  | nil => exact (List.map_eq_nil_iff.mp heq.symm).symm
  | cons part _ ih =>
    cases parts' with
    | nil => exact absurd heq (List.cons_ne_nil _ _)
    | cons part' =>
      obtain ⟨hpiece, hrest⟩ := List.cons.inj heq
      rw [piece_inj (h part List.mem_cons_self) (h' part' List.mem_cons_self) hpiece,
        ih (fun other hother => h other (List.mem_cons_of_mem _ hother))
          (fun other hother => h' other (List.mem_cons_of_mem _ hother)) hrest]

theorem part_of_expandIpv6 (h : isIPv6Address text = true)
    (hgroup : group ∈ expandIpv6 (text.map Char.toLower)) :
    IsPart (DigitText.padStart 4 group) ∧ piece (DigitText.padStart 4 group) = piece group := by
  obtain ⟨left, right, hsides⟩ := exists_addressSides h
  have hlower : group.map Char.toLower = group := by
    rw [hsides.expand] at hgroup
    have hmapped : ∀ {groups : List (List Char)}, group ∈ groups.map (·.map Char.toLower) →
        group.map Char.toLower = group := by
      intro groups hin
      obtain ⟨original, -, rfl⟩ := List.mem_map.mp hin
      rw [List.map_map]
      exact List.map_congr_left fun c _ => toLower_toLower c
    rcases List.mem_append.mp hgroup with hinit | hright
    · rcases List.mem_append.mp hinit with hleft | hzero
      · exact hmapped hleft
      · rw [List.eq_of_mem_replicate hzero]
        rfl
    · exact hmapped hright
  rcases hsides.isExpanded.valid group hgroup with hhex | hv4
  · have hfull := isFullGroup_padStart hhex
    have hnumber := hexNumber_padded group 4
    rw [hlower] at hfull hnumber
    refine ⟨Or.inl hfull, ?_⟩
    rw [piece_of_isGroup hfull.isGroup, piece_of_isGroup hhex, hnumber]
  · have hlong : 4 ≤ group.length := (by decide : 4 ≤ 7).trans (seven_le_length_of_isIPv4 hv4)
    have hsame : DigitText.padStart 4 group = group := by
      rw [DigitText.padStart, Nat.sub_eq_zero_of_le hlong]
      rfl
    rw [hsame]
    exact ⟨Or.inr hv4, rfl⟩

theorem colon_notMem_of_isPart {part : List Char} (h : IsPart part) : ':' ∉ part := by
  rcases h with hfull | hv4
  · exact colon_notMem_of_isGroup hfull.isGroup
  · exact colon_notMem_of_isIPv4 hv4

variable {a b : List Char}

theorem normaliseIp_eq_iff_loosePieces (ha : IsAddress a) (hb : IsAddress b)
    (haWriting : writing a ≠ .ipv4) (hbWriting : writing b ≠ .ipv4) :
    normaliseIp a = normaliseIp b ↔ loosePieces a = loosePieces b := by
  have hform : ∀ {text : List Char}, isIPv6Address text = true →
      let parts := (expandIpv6 (text.map Char.toLower)).map (DigitText.padStart 4)
      (∀ part ∈ parts, IsPart part) ∧ parts.map piece = loosePieces text ∧ parts ≠ [] := by
    intro text htext
    refine ⟨?_, ?_, ?_⟩
    · intro part hpart
      obtain ⟨group, hgroup, rfl⟩ := List.mem_map.mp hpart
      exact (part_of_expandIpv6 htext hgroup).1
    · rw [← map_piece_expandIpv6 htext, List.map_map]
      exact List.map_congr_left fun group hgroup => (part_of_expandIpv6 htext hgroup).2
    · obtain ⟨left, right, hsides⟩ := exists_addressSides htext
      have hlength := hsides.isExpanded.length_eq
      intro hnil
      rw [List.map_eq_nil_iff.mp hnil] at hlength
      cases hlength
  obtain ⟨hparts, hpieces, hne⟩ := hform (isIPv6Address_of_writing ha haWriting)
  obtain ⟨hparts', hpieces', hne'⟩ := hform (isIPv6Address_of_writing hb hbWriting)
  rw [(form_of_ipv6 ha haWriting).1, (form_of_ipv6 hb hbWriting).1, ← hpieces, ← hpieces']
  apply Iff.intro
  · intro heq
    have hsplit := congrArg (List.splitOn ':') heq
    rw [List.splitOn_intercalate ':' (fun part hpart => colon_notMem_of_isPart (hparts part hpart))
      hne, List.splitOn_intercalate ':'
        (fun part hpart => colon_notMem_of_isPart (hparts' part hpart)) hne'] at hsplit
    rw [hsplit]
  · intro heq
    rw [map_piece_inj hparts hparts' heq]

/-! ## Texts that are written in different ways -/

theorem loosePieces_of_digits (h : isIPv6Address text = true) (hpoint : '.' ∉ text) :
    loosePieces text = (addressNumbers text).map .inl := by
  have hhex : ∀ {part : List Char}, part ∈ splitDoubleColon text → ∀ {count : ℕ},
      groupCount (colonGroups part) = some count →
        (∀ group ∈ colonGroups part, isGroup group = true) ∧ (colonGroups part).length = count := by
    intro part hpart count hcount
    apply (groups_of_groupCount hcount).resolve_right
    rintro ⟨init, v4, hgroups, -, hv4, -⟩
    have hmem : v4 ∈ colonGroups part := by simp [hgroups]
    exact hpoint (mem_of_mem_splitDoubleColon hpart
      (mem_of_mem_colonGroups hmem (isIPv4_chars hv4).2.1))
  have hpieces : ∀ {groups : List (List Char)}, (∀ group ∈ groups, isGroup group = true) →
      groups.map piece = (groups.map hexNumber).map .inl := by
    intro groups hgroups
    rw [List.map_map]
    exact List.map_congr_left fun group hgroup => piece_of_isGroup (hgroups group hgroup)
  rcases forms_of_isIPv6Address h with ⟨whole, hsplit, hcount, hnumbers⟩ |
    ⟨left, right, count, hsplit, hleft, hcount, hle, hnumbers⟩
  · obtain ⟨hall, hlength⟩ := hhex (hsplit ▸ List.mem_singleton_self whole) hcount
    rw [hnumbers, groupNumbers_of_isGroup hall, loosePieces, hsplit]
    simp only [hpieces hall, List.length_map, hlength, Nat.sub_self, List.replicate_zero,
      List.append_nil]
  · obtain ⟨hall, hlength⟩ :=
      hhex (hsplit ▸ List.mem_cons_of_mem _ (List.mem_singleton_self right)) hcount
    rw [hnumbers, groupNumbers_of_isGroup hall, loosePieces, hsplit]
    simp only [hpieces hall, hpieces hleft, List.length_map, hlength, List.map_append,
      List.map_replicate]

theorem exists_piece_of_point (h : isIPv6Address text = true) (hpoint : '.' ∈ text) :
    ∃ value, Sum.inr value ∈ loosePieces text := by
  have hv4 : ∀ {part : List Char}, '.' ∈ part →
      (∀ group ∈ colonGroups part, isGroup group = true ∨ isIPv4 group = true) →
        ∃ value, Sum.inr value ∈ (colonGroups part).map piece := by
    intro part hmem hvalid
    by_contra hnone
    refine point_notMem_of_colonGroups (fun group hgroup => ?_) hmem
    apply (hvalid group hgroup).resolve_right
    intro hv4
    exact hnone ⟨ipv4Value group, List.mem_map.mpr ⟨group, hgroup, piece_of_isIPv4 hv4⟩⟩
  rcases forms_of_isIPv6Address h with ⟨whole, hsplit, hcount, -⟩ |
    ⟨left, right, count, hsplit, hleft, hcount, -, -⟩
  · rw [eq_of_splitDoubleColon_whole hsplit] at hpoint
    obtain ⟨value, hvalue⟩ := hv4 hpoint (groupCount_spec hcount).1
    rw [loosePieces, hsplit]
    exact ⟨value, List.mem_append_left _ hvalue⟩
  · rw [eq_of_splitDoubleColon_cut hsplit] at hpoint
    have hright : '.' ∈ right := by
      rcases List.mem_append.mp hpoint with hfront | hright
      · rcases List.mem_append.mp hfront with hinLeft | hcolon
        · exact absurd hinLeft (point_notMem_of_colonGroups hleft)
        · exact absurd hcolon (by decide)
      · exact hright
    obtain ⟨value, hvalue⟩ := hv4 hright (groupCount_spec hcount).1
    rw [loosePieces, hsplit]
    exact ⟨value, List.mem_append_right _ hvalue⟩

theorem point_of_writing :
    (writing text = .dotted → '.' ∈ text) ∧ (writing text = .digits → '.' ∉ text) := by
  rw [writing]
  split_ifs with hv4 hpoint
  · exact ⟨nofun, nofun⟩
  · exact ⟨fun _ => hpoint, nofun⟩
  · exact ⟨nofun, fun _ => hpoint⟩

theorem colon_mem_form (h : IsAddress text) (hwriting : writing text ≠ .ipv4) :
    ':' ∈ normaliseIp text := by
  obtain ⟨left, right, hsides⟩ := exists_addressSides (isIPv6Address_of_writing h hwriting)
  rw [(form_of_ipv6 h hwriting).1]
  apply colon_mem_intercalate
  rw [List.length_map, hsides.isExpanded.length_eq]

theorem normaliseIp_ne_of_writing (ha : IsAddress a) (hb : IsAddress b)
    (hwriting : writing a ≠ writing b) : normaliseIp a ≠ normaliseIp b := by
  have hipv4 : ∀ {a b : List Char}, IsAddress a → IsAddress b → writing a = .ipv4 →
      writing b ≠ .ipv4 → normaliseIp a ≠ normaliseIp b := by
    intro a b ha hb haWriting hbWriting heq
    obtain ⟨v4, hv4, hform, -⟩ := form_of_ipv4 ha haWriting
    have hcolon := colon_mem_form hb hbWriting
    rw [← heq, hform] at hcolon
    exact colon_notMem_of_isIPv4 hv4 hcolon
  have hdigits : ∀ {a b : List Char}, IsAddress a → IsAddress b → writing a = .digits →
      writing b = .dotted → normaliseIp a ≠ normaliseIp b := by
    intro a b ha hb haWriting hbWriting heq
    have haNe : writing a ≠ .ipv4 := by
      rw [haWriting]
      exact nofun
    have hbNe : writing b ≠ .ipv4 := by
      rw [hbWriting]
      exact nofun
    rw [normaliseIp_eq_iff_loosePieces ha hb haNe hbNe,
      loosePieces_of_digits (isIPv6Address_of_writing ha haNe) (point_of_writing.2 haWriting)]
      at heq
    obtain ⟨value, hvalue⟩ := exists_piece_of_point (isIPv6Address_of_writing hb hbNe)
      (point_of_writing.1 hbWriting)
    rw [← heq] at hvalue
    simp at hvalue
  cases haWriting : writing a with
  | ipv4 => exact hipv4 ha hb haWriting (haWriting ▸ hwriting.symm)
  | digits =>
    cases hbWriting : writing b with
    | ipv4 => exact (hipv4 hb ha hbWriting (by rw [haWriting]; exact nofun)).symm
    | digits => exact absurd (haWriting.trans hbWriting.symm) hwriting
    | dotted => exact hdigits ha hb haWriting hbWriting
  | dotted =>
    cases hbWriting : writing b with
    | ipv4 => exact (hipv4 hb ha hbWriting (by rw [haWriting]; exact nofun)).symm
    | digits => exact (hdigits hb ha hbWriting haWriting).symm
    | dotted => exact absurd (haWriting.trans hbWriting.symm) hwriting

/-! ## Canonical forms -/

theorem normaliseIp_eq_iff_of_writing (ha : IsAddress a) (hb : IsAddress b)
    (hwriting : writing a = writing b) (hdotted : writing a ≠ .dotted) :
    normaliseIp a = normaliseIp b ↔ addressValue a = addressValue b := by
  cases haWriting : writing a with
  | ipv4 =>
    obtain ⟨v4, hv4, hform, hvalue⟩ := form_of_ipv4 ha haWriting
    obtain ⟨v4', hv4', hform', hvalue'⟩ := form_of_ipv4 hb (hwriting ▸ haWriting)
    rw [hform, hform', hvalue, hvalue']
    apply Iff.intro
    · intro heq
      rw [heq]
    · intro heq
      exact ipv4Value_inj hv4 hv4' (by omega)
  | digits =>
    have hbWriting : writing b = .digits := hwriting ▸ haWriting
    have haNe : writing a ≠ .ipv4 := by
      rw [haWriting]
      exact nofun
    have hbNe : writing b ≠ .ipv4 := hwriting ▸ haNe
    have haAddress := isIPv6Address_of_writing ha haNe
    have hbAddress := isIPv6Address_of_writing hb hbNe
    rw [normaliseIp_eq_iff_loosePieces ha hb haNe hbNe,
      loosePieces_of_digits haAddress (point_of_writing.2 haWriting),
      loosePieces_of_digits hbAddress (point_of_writing.2 hbWriting),
      (form_of_ipv6 ha haNe).2, (form_of_ipv6 hb hbNe).2, ipv6Value_eq_iff haAddress hbAddress]
    exact (List.map_injective_iff.mpr Sum.inl_injective).eq_iff
  | dotted => exact absurd haWriting hdotted

/-- Two texts of addresses have one form exactly when they have one address, if and only if they
are written alike. -/
theorem normaliseIp_canonical_iff {a b : List Char} (ha : IsAddress a) (hb : IsAddress b) :
    (normaliseIp a = normaliseIp b ↔ addressValue a = addressValue b) ↔ WrittenAlike a b := by
  rw [WrittenAlike]
  by_cases hwriting : writing a = writing b
  · by_cases hdotted : writing a = .dotted
    · have hne : writing a ≠ .ipv4 := by
        rw [hdotted]
        exact nofun
      rw [hdotted, ← hwriting, hdotted, normaliseIp_eq_iff_loosePieces ha hb hne (hwriting ▸ hne)]
    · have hcanonical := normaliseIp_eq_iff_of_writing ha hb hwriting hdotted
      rw [← hwriting]
      cases haWriting : writing a with
      | ipv4 | digits => exact iff_of_true hcanonical fun _ => rfl
      | dotted => exact absurd haWriting hdotted
  · have hdiffers := normaliseIp_ne_of_writing ha hb hwriting
    have hmatch : (match writing a, writing b with
        | .dotted, .dotted => loosePieces a = loosePieces b ↔ addressValue a = addressValue b
        | first, second => addressValue a = addressValue b → first = second) ↔
          addressValue a ≠ addressValue b := by
      split
      next haWriting hbWriting => exact absurd (haWriting.trans hbWriting.symm) hwriting
      next => exact ⟨fun h heq => hwriting (h heq), fun h heq => absurd heq h⟩
    rw [hmatch]
    exact ⟨fun h heq => hdiffers (h.mpr heq),
      fun h => ⟨fun heq => absurd heq hdiffers, fun heq => absurd heq h⟩⟩

/-- Two spellings in digits have one form. -/
theorem normaliseIp_canonical_digits :
    let a := "2001:DB8::1".toList
    let b := "2001:0db8:0:0:0:0:0:1".toList
    addressValue a = addressValue b ∧ normaliseIp a = normaliseIp b := by
  have hspec := normaliseIp_canonical_iff (a := "2001:DB8::1".toList)
    (b := "2001:0db8:0:0:0:0:0:1".toList) (by decide) (by decide)
  have hvalue : addressValue "2001:DB8::1".toList =
      addressValue "2001:0db8:0:0:0:0:0:1".toList := by decide
  exact ⟨hvalue, (hspec.mpr (fun _ => by decide)).mpr hvalue⟩

/-- A mapped address in digits has another form than its IPv4 address, and two addresses that
end in one IPv4 address have one form. -/
theorem normaliseIp_not_canonical :
    (addressValue "::ffff:102:304".toList = addressValue "1.2.3.4".toList ∧
        normaliseIp "::ffff:102:304".toList ≠ normaliseIp "1.2.3.4".toList) ∧
      addressValue "::1:0:0:2:3:1.2.3.4".toList ≠ addressValue "0:0:1::2:3:1.2.3.4".toList ∧
        normaliseIp "::1:0:0:2:3:1.2.3.4".toList = normaliseIp "0:0:1::2:3:1.2.3.4".toList := by
  decide

end Fluxora.RateLimit
