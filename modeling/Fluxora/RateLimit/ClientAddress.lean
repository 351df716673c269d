/-
# The client of an address

The limiter knows a client by the canonical form of its address: an IPv6 address is expanded to
eight groups of four digits, and an IPv4 address that is mapped to IPv6 becomes the IPv4 address.

This fails for an IPv6 address that ends in an IPv4 address, which is expanded as if it were one
group, and for zones, which lose their case.
-/

import Fluxora.Lib.IpAddress

namespace Fluxora.RateLimit

open Lib Lib.JsText Lib.IpAddress

/-! ## The canonical form -/

def unknownPrincipal : List Char := "unknown".toList

/-- The IPv4 address in the spelling of an IPv6 address that it is mapped to. -/
def v4Mapped (lower : List Char) : Option (List Char) :=
  let v4 := lower.drop 7
  let parts := v4.splitOn '.'
  if "::ffff:".toList.isPrefixOf lower ∧ parts.length = 4 ∧
      parts.all (fun part => 1 ≤ part.length ∧ part.length ≤ 3 ∧ part.all Char.isDigit) then
    some v4
  else none

/-- The parts between single colons that are not empty. -/
def hextets (text : List Char) : List (List Char) := (text.splitOn ':').filter (· ≠ [])

/-- The hextets of an address, with those that two colons stand for. -/
def expandIpv6 (lower : List Char) : List (List Char) :=
  let pieces := splitDoubleColon lower
  let headParts := hextets (pieces.headD [])
  let tailParts := hextets (pieces[1]?.getD [])
  headParts ++ List.replicate (8 - headParts.length - tailParts.length) ['0'] ++ tailParts

def canonicalIpv6 (ip : List Char) : List Char :=
  let lower := ip.map Char.toLower
  match v4Mapped lower with
  | some v4 => v4
  | none => [':'].intercalate ((expandIpv6 lower).map (DigitText.padStart 4))

def normaliseIp (ip : List Char) : List Char :=
  let trimmed := trim ip
  if trimmed = [] then unknownPrincipal
  else if isIP trimmed = 4 then trimmed
  else if isIP trimmed = 6 then canonicalIpv6 trimmed
  else trimmed

/-! ## The groups of an expanded address -/

theorem hextets_toLower {side : List Char}
    (h : ∀ group ∈ colonGroups side, isGroup group = true ∨ isIPv4 group = true) :
    hextets (side.map Char.toLower) = (colonGroups side).map (·.map Char.toLower) := by
  rw [hextets, splitOn_map toLower_eq_colon_iff]
  rw [colonGroups] at h ⊢
  split_ifs at h ⊢ with hempty
  · rw [hempty]
    rfl
  · apply List.filter_eq_self.mpr
    intro group hgroup
    obtain ⟨original, horiginal, rfl⟩ := List.mem_map.mp hgroup
    simpa using ne_nil_of_isGroup (h original horiginal)

/-- Groups on the two sides of missing ones: eight groups, the first of which is one of digits. -/
structure IsExpanded (groups : List (List Char)) : Prop where
  length_eq : groups.length = 8
  valid : ∀ group ∈ groups, isGroup group = true ∨ isIPv4 group = true
  head : ∀ group ∈ groups.head?, isGroup group = true

theorem isExpanded_of_sides {left right : List (List Char)}
    (hleft : ∀ group ∈ left, isGroup group = true ∨ isIPv4 group = true)
    (hright : ∀ group ∈ right, isGroup group = true ∨ isIPv4 group = true)
    (hle : left.length + right.length ≤ 8) (hfirst : ∀ group ∈ left.head?, isGroup group = true)
    (hempty : left = [] → right.length ≤ 7) :
    IsExpanded (left ++ List.replicate (8 - left.length - right.length) ['0'] ++ right) where
  length_eq := by
    simp only [List.length_append, List.length_replicate]
    omega
  valid := by
    intro group hgroup
    rcases List.mem_append.mp hgroup with hinit | hlast
    · rcases List.mem_append.mp hinit with hmem | hzero
      · exact hleft group hmem
      · rw [List.eq_of_mem_replicate hzero]
        exact Or.inl (by decide)
    · exact hright group hlast
  head := by
    intro group hgroup
    cases left with
    | cons => exact hfirst group hgroup
    | nil =>
      have hlong := hempty rfl
      obtain ⟨missing, hmissing⟩ : ∃ missing, 8 - right.length = missing + 1 :=
        ⟨7 - right.length, by omega⟩
      rw [List.length_nil, Nat.sub_zero, hmissing] at hgroup
      cases hgroup
      decide

/-- The groups on the two sides of the missing ones of an address. -/
structure AddressSides (text : List Char) (left right : List (List Char)) : Prop where
  expand : expandIpv6 (text.map Char.toLower) = left.map (·.map Char.toLower) ++
    List.replicate (8 - left.length - right.length) ['0'] ++ right.map (·.map Char.toLower)
  numbers : (∀ group ∈ left ++ right, isGroup group = true) → ipv6Groups text =
    left.map hexNumber ++ List.replicate (8 - left.length - right.length) 0 ++ right.map hexNumber
  valid : ∀ group ∈ left ++ right, isGroup group = true ∨ isIPv4 group = true
  chars : ∀ group ∈ left ++ right, ∀ c ∈ group, c ∈ text
  length_le : left.length + right.length ≤ 8
  first : ∀ group ∈ left.head?, isGroup group = true
  missing : left = [] → right.length ≤ 7

theorem addressSides_whole {text whole : List Char} (hsplit : splitDoubleColon text = [whole])
    (hcount : groupCount (colonGroups whole) = some 8) :
    AddressSides text (colonGroups whole) [] := by
  obtain ⟨hall, hlow, hhigh, hinit⟩ := groupCount_spec hcount
  constructor
  case expand =>
    rw [expandIpv6, splitDoubleColon_map toLower_eq_colon_iff, hsplit]
    change hextets (whole.map Char.toLower) ++ List.replicate
      (8 - (hextets (whole.map Char.toLower)).length - (hextets []).length) ['0'] ++ hextets [] = _
    rw [hextets_toLower hall, List.length_map]
    rfl
  case numbers =>
    intro hgroups
    rw [List.append_nil] at hgroups
    have hlength : (colonGroups whole).length = 8 :=
      Option.some.inj ((groupCount_of_isGroup hgroups).symm.trans hcount)
    rw [ipv6Groups, hsplit, hlength]
    exact (List.append_nil _).symm.trans (List.append_nil _).symm
  case valid =>
    rwa [List.append_nil]
  case chars =>
    intro group hgroup c hc
    rw [List.append_nil] at hgroup
    exact mem_of_mem_splitDoubleColon (hsplit ▸ List.mem_singleton_self whole)
      (mem_of_mem_colonGroups hgroup hc)
  case length_le =>
    exact hlow
  case first =>
    intro group hgroup
    apply hinit
    cases hgroups : colonGroups whole with
    | nil => simp [hgroups] at hgroup
    | cons _ rest =>
      have hne : rest ≠ [] := by
        rintro rfl
        simp [hgroups] at hhigh
      rw [hgroups] at hgroup
      cases hgroup
      rw [List.dropLast_cons_of_ne_nil hne]
      exact List.mem_cons_self
  case missing =>
    exact fun _ => Nat.zero_le 7

theorem addressSides_cut {text left right : List Char} {count : ℕ}
    (hsplit : splitDoubleColon text = [left, right])
    (hleft : ∀ group ∈ colonGroups left, isGroup group = true)
    (hcount : groupCount (colonGroups right) = some count)
    (hle : (colonGroups left).length + count ≤ 7) :
    AddressSides text (colonGroups left) (colonGroups right) := by
  obtain ⟨hall, hlow, hhigh, hinit⟩ := groupCount_spec hcount
  constructor
  case expand =>
    rw [expandIpv6, splitDoubleColon_map toLower_eq_colon_iff, hsplit]
    change hextets (left.map Char.toLower) ++ List.replicate
      (8 - (hextets (left.map Char.toLower)).length -
        (hextets (right.map Char.toLower)).length) ['0'] ++ hextets (right.map Char.toLower) = _
    rw [hextets_toLower fun group hgroup => Or.inl (hleft group hgroup), hextets_toLower hall,
      List.length_map, List.length_map]
  case numbers =>
    intro _
    rw [ipv6Groups, hsplit]
    simp only [List.length_map]
  case valid =>
    intro group hgroup
    rcases List.mem_append.mp hgroup with hinLeft | hinRight
    · exact Or.inl (hleft group hinLeft)
    · exact hall group hinRight
  case chars =>
    intro group hgroup c hc
    rcases List.mem_append.mp hgroup with hinLeft | hinRight
    · exact mem_of_mem_splitDoubleColon (hsplit ▸ List.mem_cons_self)
        (mem_of_mem_colonGroups hinLeft hc)
    · exact mem_of_mem_splitDoubleColon
        (hsplit ▸ List.mem_cons_of_mem _ (List.mem_singleton_self right))
        (mem_of_mem_colonGroups hinRight hc)
  case length_le =>
    omega
  case first =>
    exact fun group hgroup => hleft group (List.mem_of_head? hgroup)
  case missing =>
    intro _
    omega

theorem exists_addressSides {text : List Char} (h : isIPv6Address text = true) :
    ∃ left right, AddressSides text left right := by
  rw [isIPv6Address] at h
  split at h
  · next whole hsplit => exact ⟨_, _, addressSides_whole hsplit (of_decide_eq_true h)⟩
  · next left right hsplit =>
      obtain ⟨hleft, hright⟩ := (Bool.and_eq_true _ _).mp h
      obtain ⟨count, hcount, hle⟩ := (Option.any_eq_true _ _).mp hright
      exact ⟨_, _, addressSides_cut hsplit (List.all_eq_true.mp hleft) hcount
        (of_decide_eq_true hle)⟩
  · cases h

theorem AddressSides.isExpanded {text : List Char} {left right : List (List Char)}
    (h : AddressSides text left right) : IsExpanded (expandIpv6 (text.map Char.toLower)) := by
  have hlower : ∀ {groups : List (List Char)}, (∀ group ∈ groups, group ∈ left ++ right) →
      ∀ group ∈ groups.map (·.map Char.toLower), isGroup group = true ∨ isIPv4 group = true := by
    intro groups hgroups group hgroup
    obtain ⟨original, horiginal, rfl⟩ := List.mem_map.mp hgroup
    exact validGroup_toLower (h.valid original (hgroups original horiginal))
  have hexpanded := isExpanded_of_sides
    (hlower fun group hgroup => List.mem_append_left right hgroup)
    (hlower fun group hgroup => List.mem_append_right left hgroup)
    (by simpa only [List.length_map] using h.length_le)
    (by
      intro group hgroup
      rw [List.head?_map] at hgroup
      obtain ⟨first, hfirst, rfl⟩ := Option.map_eq_some_iff.mp hgroup
      exact isGroup_toLower (h.first first hfirst))
    (by
      intro hnil
      rw [List.length_map]
      exact h.missing (List.map_eq_nil_iff.mp hnil))
  rw [h.expand]
  simpa only [List.length_map] using hexpanded

theorem v4Mapped_chars {lower v4 : List Char} (h : v4Mapped lower = some v4) :
    (∀ c ∈ v4, c.isDigit = true ∨ c = '.') ∧ '.' ∈ v4 ∧ v4.length ≤ 15 := by
  rw [v4Mapped] at h
  split_ifs at h with hspelled
  cases h
  apply dotted_chars hspelled.2.1
  intro part hpart
  have hdigits := of_decide_eq_true (List.all_eq_true.mp hspelled.2.2 part hpart)
  exact ⟨hdigits.2.1, hdigits.2.2⟩

/-! ## Clients -/

/-- The client that a text is the address of: the numbers of the groups of an IPv6 address, and
the text itself for another. -/
inductive ClientAddress where
  | text (address : List Char)
  | groups (numbers : List ℕ)
  deriving DecidableEq

/-- The client that a request comes from, by its address. An IPv4 address that is mapped to an
IPv6 address is the client's. -/
def clientAddress (ip : List Char) : ClientAddress :=
  let trimmed := trim ip
  if trimmed = [] then .text unknownPrincipal
  else if isIP trimmed = 6 then
    match v4Mapped (trimmed.map Char.toLower) with
    | some v4 => .text v4
    | none => .groups (ipv6Groups trimmed)
  else .text trimmed

/-- An IPv6 address has no zone and, if it is not a mapped one, is written in digits only. -/
structure IsPlainAddress (ip : List Char) : Prop where
  noZone : isIP (trim ip) = 6 → '%' ∉ trim ip
  noPoint : isIP (trim ip) = 6 → v4Mapped ((trim ip).map Char.toLower) = none → '.' ∉ trim ip

/-- Eight groups of digits between colons. -/
def IsSpelledOut (text : List Char) : Prop :=
  ∃ groups, groups.length = 8 ∧ (∀ group ∈ groups, isGroup group = true) ∧
    text = [':'].intercalate groups

/-- The principal of a client is its text, or its groups in four digits each. -/
inductive PrincipalOf : ClientAddress → List Char → Prop
  | text {address : List Char} (h : ¬ IsSpelledOut address) : PrincipalOf (.text address) address
  | groups {groups : List (List Char)} (hlength : groups.length = 8)
      (hfull : ∀ group ∈ groups, IsFullGroup group) :
      PrincipalOf (.groups (groups.map hexNumber)) ([':'].intercalate groups)

theorem not_isSpelledOut {text : List Char} (h : isIP text ≠ 6) : ¬ IsSpelledOut text := by
  rintro ⟨groups, hlength, hgroups, rfl⟩
  exact h (isIP_intercalate hlength hgroups)

theorem map_hexNumber_inj {groups groups' : List (List Char)}
    (h : ∀ group ∈ groups, IsFullGroup group) (h' : ∀ group ∈ groups', IsFullGroup group)
    (heq : groups.map hexNumber = groups'.map hexNumber) : groups = groups' := by
  induction groups generalizing groups' with
  | nil => exact (List.map_eq_nil_iff.mp heq.symm).symm
  | cons group _ ih =>
    cases groups' with
    | nil => exact absurd heq (List.cons_ne_nil _ _)
    | cons group' =>
      obtain ⟨hnumber, hrest⟩ := List.cons.inj heq
      have hgroup := h group List.mem_cons_self
      have hgroup' := h' group' List.mem_cons_self
      have hsame : group = group' :=
        hexNumber_inj (hgroup.length_eq.trans hgroup'.length_eq.symm)
          (fun c hc => ⟨hgroup.hex c hc, hgroup.lower c hc⟩)
          (fun c hc => ⟨hgroup'.hex c hc, hgroup'.lower c hc⟩) hnumber
      rw [hsame, ih (fun other hother => h other (List.mem_cons_of_mem _ hother))
        (fun other hother => h' other (List.mem_cons_of_mem _ hother)) hrest]

theorem PrincipalOf.eq_iff {client client' : ClientAddress} {principal principal' : List Char}
    (h : PrincipalOf client principal) (h' : PrincipalOf client' principal') :
    principal = principal' ↔ client = client' := by
  cases h with
  | text hspelled =>
    cases h' with
    | text => exact ⟨fun heq => by rw [heq], fun heq => ClientAddress.text.inj heq⟩
    | groups hlength' hfull' =>
      refine ⟨fun heq => ?_, nofun⟩
      exact absurd ⟨_, hlength', fun group hgroup => (hfull' group hgroup).isGroup, heq⟩
        hspelled
  | @groups groups hlength hfull =>
    cases h' with
    | text hspelled' =>
      refine ⟨fun heq => ?_, nofun⟩
      exact absurd ⟨_, hlength, fun group hgroup => (hfull group hgroup).isGroup, heq.symm⟩
        hspelled'
    | @groups groups' hlength' hfull' =>
      have hne : groups ≠ [] := fun hnil => by simp [hnil] at hlength
      have hne' : groups' ≠ [] := fun hnil => by simp [hnil] at hlength'
      apply Iff.intro
      · intro heq
        have hgroups := congrArg colonGroups heq
        rw [colonGroups_intercalate hne fun group hgroup => (hfull group hgroup).isGroup,
          colonGroups_intercalate hne' fun group hgroup => (hfull' group hgroup).isGroup]
          at hgroups
        rw [hgroups]
      · intro heq
        rw [map_hexNumber_inj hfull hfull' (ClientAddress.groups.inj heq)]

theorem principalOf_groups {text : List Char} (h : isIPv6Address text = true)
    (hpoint : '.' ∉ text) :
    PrincipalOf (.groups (ipv6Groups text)) ([':'].intercalate
      ((expandIpv6 (text.map Char.toLower)).map (DigitText.padStart 4))) := by
  obtain ⟨left, right, hsides⟩ := exists_addressSides h
  have hgroups : ∀ group ∈ left ++ right, isGroup group = true := by
    intro group hgroup
    apply (hsides.valid group hgroup).resolve_right
    intro hv4
    exact hpoint (hsides.chars group hgroup '.' (isIPv4_chars hv4).2.1)
  have hnumbers : ipv6Groups text =
      ((expandIpv6 (text.map Char.toLower)).map (DigitText.padStart 4)).map hexNumber := by
    have hzero : hexNumber (DigitText.padStart 4 ['0']) = 0 := by decide
    rw [hsides.numbers hgroups, hsides.expand]
    simp only [List.map_append, List.map_map, List.map_replicate, Function.comp_def,
      hexNumber_padded, hzero]
  rw [hnumbers]
  apply PrincipalOf.groups
  · rw [List.length_map, hsides.isExpanded.length_eq]
  · intro group hgroup
    obtain ⟨expanded, hexpanded, rfl⟩ := List.mem_map.mp hgroup
    rw [hsides.expand] at hexpanded
    have hlower : ∀ {groups : List (List Char)}, (∀ group ∈ groups, group ∈ left ++ right) →
        expanded ∈ groups.map (·.map Char.toLower) →
          IsFullGroup (DigitText.padStart 4 expanded) := by
      intro groups hmem hin
      obtain ⟨original, horiginal, rfl⟩ := List.mem_map.mp hin
      exact isFullGroup_padStart (hgroups original (hmem original horiginal))
    rcases List.mem_append.mp hexpanded with hinit | hright
    · rcases List.mem_append.mp hinit with hleft | hzero
      · exact hlower (fun group hgroup => List.mem_append_left right hgroup) hleft
      · have hzeros : IsFullGroup (DigitText.padStart 4 (['0'].map Char.toLower)) :=
          isFullGroup_padStart (by decide)
        rwa [List.eq_of_mem_replicate hzero]
    · exact hlower (fun group hgroup => List.mem_append_right left hgroup) hright

theorem principalOf_normaliseIp {ip : List Char} (h : IsPlainAddress ip) :
    PrincipalOf (clientAddress ip) (normaliseIp ip) := by
  rw [clientAddress, normaliseIp]
  by_cases hempty : trim ip = []
  · rw [if_pos hempty, if_pos hempty]
    exact PrincipalOf.text (not_isSpelledOut (by decide))
  rw [if_neg hempty, if_neg hempty]
  by_cases hsix : isIP (trim ip) = 6
  · have haddress := isIPv6Address_of_isIP hsix (h.noZone hsix)
    rw [if_pos hsix, if_neg (by rw [hsix]; decide), if_pos hsix, canonicalIpv6]
    cases hmapped : v4Mapped ((trim ip).map Char.toLower) with
    | some =>
      apply PrincipalOf.text
      rintro ⟨groups, hlength, _, rfl⟩
      exact absurd ((v4Mapped_chars hmapped).1 ':' (colon_mem_intercalate hlength)) (by decide)
    | none => exact principalOf_groups haddress (h.noPoint hsix hmapped)
  · rw [if_neg hsix, if_neg hsix, ite_self]
    exact PrincipalOf.text (not_isSpelledOut hsix)

theorem normaliseIp_eq_iff {ip ip' : List Char} (h : IsPlainAddress ip) (h' : IsPlainAddress ip') :
    normaliseIp ip = normaliseIp ip' ↔ clientAddress ip = clientAddress ip' :=
  (principalOf_normaliseIp h).eq_iff (principalOf_normaliseIp h')

end Fluxora.RateLimit
