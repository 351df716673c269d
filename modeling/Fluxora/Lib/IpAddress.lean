/-
# Texts of IP addresses

Which texts are IPv4 and IPv6 addresses, as the runtime's `isIP` decides it. An IPv6 address is
cut at two colons, of which there may be one pair, and each side at the single colons; its last
group may be written as an IPv4 address.
-/

import Fluxora.Lib.JsText
import Fluxora.Lib.Split

namespace Fluxora.Lib.IpAddress

open JsText

/-! ## Cutting at colons -/

/-- `split('::')` -/
def splitDoubleColon : List Char → List (List Char)
  | ':' :: ':' :: rest => [] :: splitDoubleColon rest
  | c :: rest =>
    match splitDoubleColon rest with
    | first :: others => (c :: first) :: others
    | [] => [[c]]
  | [] => [[]]

/-- The groups between single colons, none in an empty text. -/
def colonGroups (text : List Char) : List (List Char) :=
  if text = [] then [] else text.splitOn ':'

/-! ## Addresses -/

/-- A number up to 255 without a leading zero. -/
def isOctet (digits : List Char) : Bool :=
  digits ≠ [] ∧ digits.length ≤ 3 ∧ digits.all Char.isDigit = true ∧
    (digits.length = 1 ∨ digits.head? ≠ some '0') ∧ DigitText.value digits ≤ 255

def isIPv4 (text : List Char) : Bool :=
  let parts := text.splitOn '.'
  parts.length = 4 && parts.all isOctet

/-- One to four hexadecimal digits. -/
def isGroup (digits : List Char) : Bool :=
  1 ≤ digits.length ∧ digits.length ≤ 4 ∧ digits.all (fun c => (hexValue c).isSome) = true

/-- The number of groups of sixteen bits, of which an IPv4 address at the end stands for two. -/
def groupCount : List (List Char) → Option ℕ
  | [] => some 0
  | [last] => if isGroup last then some 1 else if isIPv4 last then some 2 else none
  | group :: rest => if isGroup group then (groupCount rest).map (· + 1) else none

def isIPv6Address (text : List Char) : Bool :=
  match splitDoubleColon text with
  | [whole] => groupCount (colonGroups whole) = some 8
  | [left, right] =>
    (colonGroups left).all isGroup &&
      (groupCount (colonGroups right)).any fun count => (colonGroups left).length + count ≤ 7
  | _ => false

def isZoneChar (c : Char) : Bool :=
  c.isDigit || c.isUpper || c.isLower || ['-', '.', ':'].contains c

/-- An address, after which there may be a zone. -/
def isIPv6 (text : List Char) : Bool :=
  let address := text.takeWhile (· ≠ '%')
  let zone := text.drop address.length
  isIPv6Address address && (zone = [] || (1 < zone.length && zone.tail.all isZoneChar))

/-- `isIP`: 4, 6 or 0. -/
def isIP (text : List Char) : ℕ := if isIPv4 text then 4 else if isIPv6 text then 6 else 0

def hexNumber (digits : List Char) : ℕ :=
  digits.foldl (fun number c => 16 * number + (hexValue c).getD 0) 0

/-- The numbers of the eight groups of an address that is written without an IPv4 address. -/
def ipv6Groups (text : List Char) : List ℕ :=
  match splitDoubleColon text with
  | [left, right] =>
    let leftNumbers := (colonGroups left).map hexNumber
    let rightNumbers := (colonGroups right).map hexNumber
    leftNumbers ++ List.replicate (8 - leftNumbers.length - rightNumbers.length) 0 ++
      rightNumbers
  | [whole] => (colonGroups whole).map hexNumber
  | _ => []

/-! ## What addresses are made of -/

variable {text : List Char}

theorem dotted_chars (hlength : (text.splitOn '.').length = 4)
    (hparts : ∀ part ∈ text.splitOn '.', part.length ≤ 3 ∧ part.all Char.isDigit = true) :
    (∀ c ∈ text, c.isDigit = true ∨ c = '.') ∧ '.' ∈ text ∧ text.length ≤ 15 := by
  have hjoin : ['.'].intercalate (text.splitOn '.') = text := List.intercalate_splitOn '.'
  generalize text.splitOn '.' = parts at hlength hparts hjoin
  match parts, hlength with
  | [a, b, c, d], _ =>
    have ha := hparts a (by simp)
    have hb := hparts b (by simp)
    have hc := hparts c (by simp)
    have hd := hparts d (by simp)
    have htext : text = a ++ '.' :: (b ++ '.' :: (c ++ '.' :: d)) := by
      rw [← hjoin]
      simp [List.intercalate]
    rw [List.all_eq_true] at ha hb hc hd
    refine ⟨?_, ?_, ?_⟩
    · rw [htext]
      grind
    · rw [htext]
      simp
    · rw [htext]
      simp only [List.length_append, List.length_cons]
      omega

theorem isIPv4_chars (h : isIPv4 text = true) :
    (∀ c ∈ text, c.isDigit = true ∨ c = '.') ∧ '.' ∈ text ∧ text.length ≤ 15 := by
  rw [isIPv4, Bool.and_eq_true] at h
  refine dotted_chars (of_decide_eq_true h.1) fun part hpart => ?_
  have hoctet := of_decide_eq_true (List.all_eq_true.mp h.2 part hpart)
  exact ⟨hoctet.2.1, hoctet.2.2.1⟩

variable {c : Char} {groups : List (List Char)}

theorem mem_of_mem_splitDoubleColon {part : List Char} (hpart : part ∈ splitDoubleColon text)
    (hc : c ∈ part) : c ∈ text := by
  induction text using splitDoubleColon.induct generalizing part with
  | case1 _ ih =>
    rcases List.mem_cons.mp hpart with rfl | hlater
    · exact absurd hc List.not_mem_nil
    · exact List.mem_cons_of_mem _ (List.mem_cons_of_mem _ (ih hlater hc))
  | case2 _ _ hcut _ _ hsplit ih =>
    rw [splitDoubleColon.eq_2 _ _ hcut, hsplit] at hpart
    rw [hsplit] at ih
    rcases List.mem_cons.mp hpart with rfl | hlater
    · rcases List.mem_cons.mp hc with rfl | hrest
      · exact List.mem_cons_self
      · exact List.mem_cons_of_mem _ (ih List.mem_cons_self hrest)
    · exact List.mem_cons_of_mem _ (ih (List.mem_cons_of_mem _ hlater) hc)
  | case3 _ _ hcut hsplit =>
    rw [splitDoubleColon.eq_2 _ _ hcut, hsplit] at hpart
    rw [List.mem_singleton.mp hpart] at hc
    rw [List.mem_singleton.mp hc]
    exact List.mem_cons_self
  | case4 =>
    rw [List.mem_singleton.mp hpart] at hc
    exact hc

theorem mem_of_mem_colonGroups {group : List Char} (hgroup : group ∈ colonGroups text)
    (hc : c ∈ group) : c ∈ text := by
  rw [colonGroups] at hgroup
  split_ifs at hgroup with hempty
  · exact absurd hgroup List.not_mem_nil
  · have hjoin : [':'].intercalate (text.splitOn ':') = text := List.intercalate_splitOn ':'
    rw [← hjoin]
    exact Split.mem_intercalate hgroup hc

theorem isIPv6Address_of_isIP (h : isIP text = 6) (hzone : '%' ∉ text) :
    isIPv6Address text = true := by
  have hv6 : isIPv6 text = true := by
    by_contra hnot
    rw [isIP, if_neg hnot] at h
    split_ifs at h
    cases h
  have haddress : text.takeWhile (· ≠ '%') = text := by
    apply List.takeWhile_eq_self_iff.mpr
    intro c hc
    exact decide_eq_true fun heq => hzone (heq ▸ hc)
  rw [isIPv6, haddress] at hv6
  exact ((Bool.and_eq_true _ _).mp hv6).1

theorem groupCount_spec {count : ℕ} (h : groupCount groups = some count) :
    (∀ group ∈ groups, isGroup group = true ∨ isIPv4 group = true) ∧
      groups.length ≤ count ∧ count ≤ groups.length + 1 ∧
      ∀ group ∈ groups.dropLast, isGroup group = true := by
  induction groups using groupCount.induct generalizing count with
  | case1 =>
    cases h
    exact ⟨by simp, Nat.le_refl 0, Nat.zero_le 1, by simp⟩
  | case2 _ hgroup =>
    rw [groupCount, if_pos hgroup] at h
    cases h
    exact ⟨by simp [hgroup], Nat.le_refl 1, by simp, by simp⟩
  | case3 _ hgroup hv4 =>
    rw [groupCount, if_neg hgroup, if_pos hv4] at h
    cases h
    exact ⟨by simp [hv4], by simp, by simp, by simp⟩
  | case4 _ hgroup hv4 =>
    rw [groupCount, if_neg hgroup, if_neg hv4] at h
    cases h
  | case5 _ rest hrest hgroup ih =>
    rw [groupCount, if_pos hgroup] at h
    · obtain ⟨n, hcount, rfl⟩ := Option.map_eq_some_iff.mp h
      obtain ⟨hall, hlow, hhigh, hinit⟩ := ih hcount
      have hne : rest ≠ [] := fun hnil => hrest hnil
      refine ⟨?_, by simpa using hlow, by simpa using hhigh, ?_⟩
      · intro other hother
        rcases List.mem_cons.mp hother with rfl | hlater
        · exact Or.inl hgroup
        · exact hall other hlater
      · intro other hother
        rw [List.dropLast_cons_of_ne_nil hne] at hother
        rcases List.mem_cons.mp hother with rfl | hlater
        · exact hgroup
        · exact hinit other hlater
    · exact hrest
  | case6 _ _ hrest hgroup =>
    rw [groupCount, if_neg hgroup] at h
    · cases h
    · exact hrest

variable {change : Char → Char}

theorem splitDoubleColon_map (hcolon : ∀ c, change c = ':' ↔ c = ':') (text : List Char) :
    splitDoubleColon (text.map change) = (splitDoubleColon text).map (·.map change) := by
  have hmapped : ∀ {c : Char} {rest : List Char},
      (∀ rest', c = ':' → rest = ':' :: rest' → False) →
        ∀ rest', change c = ':' → rest.map change = ':' :: rest' → False := by
    intro c rest hcut rest' hc hrest
    obtain ⟨d, rest, rfl, hd, rfl⟩ := List.map_eq_cons_iff.mp hrest
    exact hcut rest ((hcolon c).mp hc) (by rw [(hcolon d).mp hd])
  induction text using splitDoubleColon.induct with
  | case1 _ ih =>
    rw [List.map_cons, List.map_cons, (hcolon ':').mpr rfl, splitDoubleColon, splitDoubleColon,
      ih]
    rfl
  | case2 _ _ hcut _ _ hsplit ih | case3 _ _ hcut hsplit ih =>
    rw [List.map_cons, splitDoubleColon.eq_2 _ _ (hmapped hcut), splitDoubleColon.eq_2 _ _ hcut,
      ih, hsplit]
    rfl
  | case4 => rfl

theorem splitOn_map (hcolon : ∀ c, change c = ':' ↔ c = ':') (text : List Char) :
    (text.map change).splitOn ':' = (text.splitOn ':').map (·.map change) := by
  induction text with
  | nil => rfl
  | cons c text ih =>
    rw [List.map_cons, List.splitOn_cons_eq_if_modifyHead, List.splitOn_cons_eq_if_modifyHead, ih]
    by_cases hc : c = ':'
    · simp [hc, (hcolon ':').mpr rfl]
    · have hchange : change c ≠ ':' := fun h => hc ((hcolon c).mp h)
      rw [if_neg (by simpa using hchange), if_neg (by simpa using hc)]
      cases text.splitOn ':' <;> rfl

theorem isUpper_iff {c : Char} : c.isUpper = true ↔ 65 ≤ c.toNat ∧ c.toNat ≤ 90 := by
  delta Char.isUpper
  rw [decide_eq_true_eq]
  rfl

theorem isLower_iff {c : Char} : c.isLower = true ↔ 97 ≤ c.toNat ∧ c.toNat ≤ 122 := by
  delta Char.isLower
  rw [Bool.and_eq_true, decide_eq_true_eq, decide_eq_true_eq]
  rfl

theorem toNat_toLower (c : Char) :
    c.toLower.toNat = if 65 ≤ c.toNat ∧ c.toNat ≤ 90 then c.toNat + 32 else c.toNat := by
  delta Char.toLower
  split_ifs with hupper hrange hrange
  · have hval : (c.val + 32).toNat = c.val.toNat + 32 := by
      rw [UInt32.toNat_add]
      change (c.toNat + 32) % 2 ^ 32 = c.toNat + 32
      omega
    exact hval
  · exact absurd hupper hrange
  · exact absurd hrange hupper
  · rfl

theorem toLower_eq_colon_iff (c : Char) : c.toLower = ':' ↔ c = ':' := by
  have hlower := toNat_toLower c
  rw [← Char.toNat_inj, ← Char.toNat_inj, hlower]
  have hcolon : ':'.toNat = 58 := rfl
  split_ifs <;> omega

theorem toLower_of_isDigit (h : c.isDigit = true ∨ c = '.') : c.toLower = c := by
  have hrange : c.toNat < 65 := by
    rcases h with hdigit | rfl
    · have := DigitText.digit_lt_ten hdigit
      have hzero : '0'.toNat = 48 := rfl
      omega
    · decide
  rw [← Char.toNat_inj, toNat_toLower, if_neg (by omega)]

theorem isGroup_toLower {group : List Char} (h : isGroup group = true) :
    isGroup (group.map Char.toLower) = true := by
  obtain ⟨hlow, hhigh, hdigits⟩ := of_decide_eq_true h
  refine decide_eq_true ⟨by simpa using hlow, by simpa using hhigh, ?_⟩
  rw [List.all_eq_true] at hdigits ⊢
  intro c hc
  obtain ⟨d, hd, rfl⟩ := List.mem_map.mp hc
  have hvalue := hdigits d hd
  have hlower := toNat_toLower d
  rw [hexValue] at hvalue ⊢
  rw [hlower]
  split_ifs at hvalue ⊢ <;> first | omega | rfl

theorem hexValue_of_isGroup {group : List Char} (h : isGroup group = true)
    (hc : c ∈ group) : (hexValue c).isSome = true :=
  List.all_eq_true.mp (of_decide_eq_true h).2.2 c hc

theorem ne_nil_of_isGroup {group : List Char} (h : isGroup group = true ∨ isIPv4 group = true) :
    group ≠ [] := by
  rintro rfl
  exact absurd h (by decide)

theorem validGroup_toLower {group : List Char} (h : isGroup group = true ∨ isIPv4 group = true) :
    isGroup (group.map Char.toLower) = true ∨ isIPv4 (group.map Char.toLower) = true := by
  rcases h with hgroup | hv4
  · exact Or.inl (isGroup_toLower hgroup)
  · right
    have hsame : group.map Char.toLower = group :=
      (List.map_congr_left fun c hc => toLower_of_isDigit ((isIPv4_chars hv4).1 c hc)).trans
        (List.map_id group)
    rwa [hsame]

theorem hexValue_toLower (c : Char) : hexValue c.toLower = hexValue c := by
  rw [hexValue, hexValue, toNat_toLower]
  split_ifs <;> first | omega | exact congrArg some (by omega) | rfl

theorem hexNumber_padded (group : List Char) (width : ℕ) :
    hexNumber (DigitText.padStart width (group.map Char.toLower)) = hexNumber group := by
  have hzeros : ∀ n, hexNumber (List.replicate n '0') = 0 := by
    intro n
    induction n with
    | zero => rfl
    | succ _ ih => exact ih
  rw [hexNumber, DigitText.padStart, List.foldl_append, List.foldl_map]
  simp only [hexValue_toLower]
  change List.foldl _ (hexNumber (List.replicate _ '0')) group = hexNumber group
  rw [hzeros, hexNumber]

/-- Four digits in lower case. -/
structure IsFullGroup (digits : List Char) : Prop where
  length_eq : digits.length = 4
  hex : ∀ c ∈ digits, (hexValue c).isSome = true
  lower : ∀ c ∈ digits, c.toLower = c

variable {digits : List Char}

theorem IsFullGroup.isGroup (h : IsFullGroup digits) : isGroup digits = true :=
  decide_eq_true ⟨le_of_le_of_eq (by decide) h.length_eq.symm, h.length_eq.le,
    List.all_eq_true.mpr h.hex⟩

theorem toLower_toLower (c : Char) : c.toLower.toLower = c.toLower := by
  rw [← Char.toNat_inj, toNat_toLower c.toLower, toNat_toLower]
  split_ifs <;> omega

theorem isFullGroup_padStart {group : List Char} (h : isGroup group = true) :
    IsFullGroup (DigitText.padStart 4 (group.map Char.toLower)) where
  length_eq := DigitText.length_padStart (of_decide_eq_true (isGroup_toLower h)).2.1
  hex := by
    intro c hc
    rcases List.mem_append.mp hc with hzero | hdigit
    · rw [List.eq_of_mem_replicate hzero]
      decide
    · exact List.all_eq_true.mp (of_decide_eq_true (isGroup_toLower h)).2.2 c hdigit
  lower := by
    intro c hc
    rcases List.mem_append.mp hc with hzero | hdigit
    · rw [List.eq_of_mem_replicate hzero]
      decide
    · obtain ⟨d, _, rfl⟩ := List.mem_map.mp hdigit
      exact toLower_toLower d

theorem exists_hexValue (h : (hexValue c).isSome = true) (hlower : c.toLower = c) :
    ∃ value < 16, hexValue c = some value ∧
      c.toNat = if value < 10 then 48 + value else 87 + value := by
  rw [← Char.toNat_inj, toNat_toLower] at hlower
  rw [hexValue] at h ⊢
  split_ifs at h ⊢ with hdigit hsmall hlarge
  · exact ⟨c.toNat - 48, by omega, rfl, by split_ifs <;> omega⟩
  · exact ⟨c.toNat - 87, by omega, rfl, by split_ifs <;> omega⟩
  · rw [if_pos (by omega)] at hlower
    omega
  · exact absurd h Bool.false_ne_true

theorem hexNumber_inj {digits' : List Char} (hlength : digits.length = digits'.length)
    (h : ∀ c ∈ digits, (hexValue c).isSome = true ∧ c.toLower = c)
    (h' : ∀ c ∈ digits', (hexValue c).isSome = true ∧ c.toLower = c)
    (heq : hexNumber digits = hexNumber digits') : digits = digits' := by
  have hfrom : ∀ number number', digits.foldl
      (fun number c => 16 * number + (hexValue c).getD 0) number =
        digits'.foldl (fun number c => 16 * number + (hexValue c).getD 0) number' →
          number = number' ∧ digits = digits' := by
    clear heq
    induction digits generalizing digits' with
    | nil =>
      cases List.length_eq_zero_iff.mp hlength.symm
      exact fun number number' hnumbers => ⟨hnumbers, rfl⟩
    | cons c _ ih =>
      cases digits' with
      | nil => cases hlength
      | cons d =>
        intro number number' hnumbers
        have hc := h c List.mem_cons_self
        have hd := h' d List.mem_cons_self
        obtain ⟨value, hvalue, hcValue, hcNat⟩ := exists_hexValue hc.1 hc.2
        obtain ⟨value', hvalue', hdValue, hdNat⟩ := exists_hexValue hd.1 hd.2
        obtain ⟨hsum, rfl⟩ := ih (Nat.succ.inj hlength)
          (fun e he => h e (List.mem_cons_of_mem _ he))
          (fun e he => h' e (List.mem_cons_of_mem _ he)) _ _ hnumbers
        simp only [hcValue, hdValue, Option.getD_some] at hsum
        obtain rfl : value = value' := by omega
        have hcd : c = d := Char.toNat_inj.mp (hcNat.trans hdNat.symm)
        exact ⟨by omega, by rw [hcd]⟩
  exact (hfrom 0 0 heq).2

theorem groupCount_of_isGroup
    (h : ∀ group ∈ groups, isGroup group = true) : groupCount groups = some groups.length := by
  induction groups using groupCount.induct with
  | case1 => rfl
  | case2 _ hgroup => rw [groupCount, if_pos hgroup, List.length_singleton]
  | case3 last hgroup | case4 last hgroup => exact absurd (h last List.mem_cons_self) hgroup
  | case5 _ _ hrest hgroup ih =>
    rw [groupCount.eq_3 _ _ hrest, if_pos hgroup,
      ih fun other hother => h other (List.mem_cons_of_mem _ hother)]
    rfl
  | case6 group _ _ hgroup => exact absurd (h group List.mem_cons_self) hgroup

theorem colon_notMem_of_isGroup {group : List Char} (h : isGroup group = true) : ':' ∉ group :=
  fun hmem => absurd (List.all_eq_true.mp (of_decide_eq_true h).2.2 ':' hmem) (by decide)

theorem splitDoubleColon_cons {rest : List Char} (hc : c = ':' → rest.head? ≠ some ':')
    (hrest : splitDoubleColon rest = [rest]) : splitDoubleColon (c :: rest) = [c :: rest] := by
  rw [splitDoubleColon.eq_2, hrest]
  rintro rest' rfl rfl
  exact hc rfl rfl

theorem splitDoubleColon_append {group rest : List Char} (h : ':' ∉ group)
    (hrest : splitDoubleColon rest = [rest]) :
    splitDoubleColon (group ++ rest) = [group ++ rest] := by
  induction group with
  | nil => exact hrest
  | cons _ _ ih =>
    exact splitDoubleColon_cons (fun hc => absurd (hc ▸ List.mem_cons_self) h)
      (ih fun hmem => h (List.mem_cons_of_mem _ hmem))

theorem splitDoubleColon_intercalate (hne : groups ≠ [])
    (h : ∀ group ∈ groups, isGroup group = true) :
    splitDoubleColon ([':'].intercalate groups) = [[':'].intercalate groups] := by
  induction groups with
  | nil => exact absurd rfl hne
  | cons group rest ih =>
    have hgroup := colon_notMem_of_isGroup (h group List.mem_cons_self)
    cases rest with
    | nil =>
      rw [List.intercalate_singleton, ← List.append_nil group]
      exact splitDoubleColon_append hgroup rfl
    | cons next rest =>
      have hnext := h next (List.mem_cons_of_mem _ List.mem_cons_self)
      have hlater := ih (List.cons_ne_nil _ _) fun other hother =>
        h other (List.mem_cons_of_mem _ hother)
      rw [List.intercalate_cons_cons]
      simp only [List.append_assoc, List.singleton_append]
      apply splitDoubleColon_append hgroup
      apply splitDoubleColon_cons _ hlater
      intro _ hhead
      cases next with
      | nil => exact absurd hnext (by decide)
      | cons c =>
        have hfirst : c = ':' := by
          cases rest with
          | nil => simpa [List.intercalate] using hhead
          | cons =>
            rw [List.intercalate_cons_cons] at hhead
            simpa using hhead
        exact colon_notMem_of_isGroup hnext (hfirst ▸ List.mem_cons_self)

theorem colonGroups_intercalate (hne : groups ≠ []) (h : ∀ group ∈ groups, isGroup group = true) :
    colonGroups ([':'].intercalate groups) = groups := by
  have hsplit : ([':'].intercalate groups).splitOn ':' = groups :=
    List.splitOn_intercalate ':' (fun group hgroup => colon_notMem_of_isGroup (h group hgroup)) hne
  rw [colonGroups, hsplit, if_neg]
  intro hempty
  rw [hempty] at hsplit
  exact ne_nil_of_isGroup (Or.inl (h [] (hsplit ▸ List.mem_singleton_self _))) rfl

theorem colon_mem_intercalate (hlength : groups.length = 8) : ':' ∈ [':'].intercalate groups := by
  match groups, hlength with
  | first :: second :: rest, _ =>
    rw [List.intercalate_cons_cons]
    exact List.mem_append_left _ (List.mem_append_right _ (List.mem_singleton_self _))

theorem isIP_intercalate (hlength : groups.length = 8)
    (h : ∀ group ∈ groups, isGroup group = true) : isIP ([':'].intercalate groups) = 6 := by
  have hne : groups ≠ [] := by
    rintro rfl
    cases hlength
  have hchars : ∀ c ∈ [':'].intercalate groups, c = ':' ∨ (hexValue c).isSome = true := by
    intro c hc
    have hmem : c ∈ groups.flatMap (· ++ [':']) := by
      rw [← Split.intercalate_append_sep hne]
      exact List.mem_append_left _ hc
    obtain ⟨group, hgroup, hpart⟩ := List.mem_flatMap.mp hmem
    rcases List.mem_append.mp hpart with hdigit | hcolon
    · exact Or.inr (List.all_eq_true.mp (of_decide_eq_true (h group hgroup)).2.2 c hdigit)
    · exact Or.inl (List.mem_singleton.mp hcolon)
  have hv4 : isIPv4 ([':'].intercalate groups) ≠ true := fun hv4 =>
    absurd ((isIPv4_chars hv4).1 ':' (colon_mem_intercalate hlength)) (by decide)
  have haddress : isIPv6Address ([':'].intercalate groups) = true := by
    rw [isIPv6Address, splitDoubleColon_intercalate hne h]
    exact decide_eq_true
      (by rw [colonGroups_intercalate hne h, groupCount_of_isGroup h, hlength])
  have hzone : ([':'].intercalate groups).takeWhile (· ≠ '%') = [':'].intercalate groups := by
    apply List.takeWhile_eq_self_iff.mpr
    intro c hc
    apply decide_eq_true
    rintro rfl
    exact absurd (hchars '%' hc) (by decide)
  rw [isIP, if_neg hv4, isIPv6, hzone, haddress, List.drop_length]
  rfl

end Fluxora.Lib.IpAddress
