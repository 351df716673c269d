/-
# The numbers of IP addresses

An IPv4 address is a number of four octets, an IPv6 address one of eight groups of sixteen bits;
two colons stand for the groups of zeros that are missing, and an IPv4 address at the end for
two groups. Both count as one number of 128 bits, an IPv4 address as the one it is mapped to.
-/

import Fluxora.Lib.IpAddress
import Fluxora.Lib.JsonText
import Mathlib.Tactic.IntervalCases

namespace Fluxora.Lib.IpNumber

open JsText IpAddress

/-! ## Numbers by their digits -/

/-- The number of digits in a base, the highest first. -/
def positional (base : ℕ) (digits : List ℕ) : ℕ :=
  digits.foldl (fun number digit => number * base + digit) 0

theorem positional_append_singleton (base : ℕ) (digits : List ℕ) (digit : ℕ) :
    positional base (digits ++ [digit]) = positional base digits * base + digit := by
  rw [positional, List.foldl_append]
  rfl

theorem positional_inj {base : ℕ} {digits digits' : List ℕ}
    (hlength : digits.length = digits'.length) (h : ∀ digit ∈ digits, digit < base)
    (h' : ∀ digit ∈ digits', digit < base)
    (heq : positional base digits = positional base digits') : digits = digits' := by
  induction digits using List.reverseRecOn generalizing digits' with
  | nil => exact (List.length_eq_zero_iff.mp hlength.symm).symm
  | append_singleton _ digit ih =>
    rcases List.eq_nil_or_concat' digits' with rfl | ⟨digits', digit', rfl⟩
    · simp at hlength
    · rw [positional_append_singleton, positional_append_singleton] at heq
      have hdigit := h digit (by simp)
      have hdigit' := h' digit' (by simp)
      have hlast : digit = digit' := by
        have hmod := congrArg (· % base) heq
        simpa [Nat.mul_add_mod', Nat.mod_eq_of_lt hdigit, Nat.mod_eq_of_lt hdigit'] using hmod
      subst hlast
      have hbase : 0 < base := Nat.zero_lt_of_lt hdigit
      have hfront := Nat.eq_of_mul_eq_mul_right hbase (Nat.add_right_cancel heq)
      rw [ih (by simpa using hlength) (fun d hd => h d (by simp [hd]))
        (fun d hd => h' d (by simp [hd])) hfront]

/-! ## IPv4 addresses -/

/-- The number of a dotted text. -/
def ipv4Value (text : List Char) : ℕ := positional 256 ((text.splitOn '.').map DigitText.value)

variable {digits digits' : List Char}

theorem value_inj (hlength : digits.length = digits'.length) (h : DigitText.IsDigits digits)
    (h' : DigitText.IsDigits digits') (heq : DigitText.value digits = DigitText.value digits') :
    digits = digits' := by
  induction digits using List.reverseRecOn generalizing digits' with
  | nil => exact (List.length_eq_zero_iff.mp hlength.symm).symm
  | append_singleton _ c ih =>
    rcases List.eq_nil_or_concat' digits' with rfl | ⟨digits', d, rfl⟩
    · simp at hlength
    · have hlast : ∀ {c : Char}, c.isDigit = true →
          DigitText.value [c] = c.toNat - '0'.toNat ∧ 48 ≤ c.toNat := by
        intro c hc
        simp only [Char.isDigit, ge_iff_le, Bool.and_eq_true, decide_eq_true_eq] at hc
        exact ⟨by simp [DigitText.value, Nat.ofDigitChars_cons], hc.1⟩
      have hc := h c (by simp)
      have hd := h' d (by simp)
      have hcTen := DigitText.digit_lt_ten hc
      have hdTen := DigitText.digit_lt_ten hd
      obtain ⟨hcValue, hcLow⟩ := hlast hc
      obtain ⟨hdValue, hdLow⟩ := hlast hd
      rw [DigitText.value_append, DigitText.value_append, hcValue, hdValue] at heq
      simp only [List.length_singleton, pow_one] at heq
      have hzero : '0'.toNat = 48 := rfl
      have hcd : c = d := Char.toNat_inj.mp (by omega)
      rw [hcd, ih (by simpa using hlength) h.of_append_left h'.of_append_left (by omega)]

theorem octet_inj (h : isOctet digits = true) (h' : isOctet digits' = true)
    (heq : DigitText.value digits = DigitText.value digits') : digits = digits' := by
  obtain ⟨hne, hlength, hdigits, hlead, -⟩ := of_decide_eq_true h
  obtain ⟨hne', hlength', hdigits', hlead', -⟩ := of_decide_eq_true h'
  rw [List.all_eq_true] at hdigits hdigits'
  have hpadded : DigitText.padStart 3 digits = DigitText.padStart 3 digits' := by
    apply value_inj
    · rw [DigitText.length_padStart hlength, DigitText.length_padStart hlength']
    · exact DigitText.isDigits_padStart hdigits
    · exact DigitText.isDigits_padStart hdigits'
    · rw [DigitText.value_padStart, DigitText.value_padStart, heq]
  -- the longer one of two texts would begin with a zero of the padding
  have hle : ∀ {a b : List Char}, a ≠ [] → b.length ≤ 3 → a.length ≤ 3 →
      (b.length = 1 ∨ b.head? ≠ some '0') →
      DigitText.padStart 3 a = DigitText.padStart 3 b → b.length ≤ a.length := by
    intro a b ha hb haLength hb0 hab
    by_contra hlt
    have hpos : 0 < a.length := List.length_pos_iff.mpr ha
    rw [DigitText.padStart, DigitText.padStart] at hab
    have hsplit : List.replicate (3 - a.length) '0' =
        List.replicate (3 - b.length) '0' ++ List.replicate (b.length - a.length) '0' := by
      rw [List.replicate_append_replicate]
      congr 1
      omega
    rw [hsplit, List.append_assoc] at hab
    have hbText := List.append_cancel_left hab
    rcases hb0 with hone | hhead
    · omega
    · apply hhead
      rw [← hbText, List.head?_append]
      obtain ⟨n, hn⟩ : ∃ n, b.length - a.length = n + 1 := ⟨b.length - a.length - 1, by omega⟩
      rw [hn]
      rfl
  have hsame : digits.length = digits'.length :=
    Nat.le_antisymm (hle hne' hlength hlength' hlead hpadded.symm)
      (hle hne hlength' hlength hlead' hpadded)
  exact value_inj hsame hdigits hdigits' heq

variable {text : List Char}

theorem octets_of_isIPv4 (h : isIPv4 text = true) :
    (text.splitOn '.').length = 4 ∧ ∀ part ∈ text.splitOn '.', isOctet part = true := by
  rw [isIPv4, Bool.and_eq_true, List.all_eq_true] at h
  exact ⟨of_decide_eq_true h.1, h.2⟩

theorem octet_lt (h : isIPv4 text = true) :
    ∀ n ∈ (text.splitOn '.').map DigitText.value, n < 256 := by
  intro n hn
  obtain ⟨part, hpart, rfl⟩ := List.mem_map.mp hn
  have hoctet := of_decide_eq_true ((octets_of_isIPv4 h).2 part hpart)
  omega

variable {text' : List Char}

theorem ipv4Value_inj (h : isIPv4 text = true) (h' : isIPv4 text' = true)
    (heq : ipv4Value text = ipv4Value text') : text = text' := by
  obtain ⟨hlength, hoctets⟩ := octets_of_isIPv4 h
  obtain ⟨hlength', hoctets'⟩ := octets_of_isIPv4 h'
  have hvalues := positional_inj (by rw [List.length_map, List.length_map, hlength, hlength'])
    (octet_lt h) (octet_lt h') heq
  have hparts : text.splitOn '.' = text'.splitOn '.' := by
    apply List.ext_getElem (hlength.trans hlength'.symm)
    intro i hi hi'
    apply octet_inj (hoctets _ (List.getElem_mem hi)) (hoctets' _ (List.getElem_mem hi'))
    have hget := List.getElem_of_eq hvalues (by simpa using hi)
    simpa using hget
  have hjoin : ['.'].intercalate (text.splitOn '.') = text := List.intercalate_splitOn '.'
  rw [← hjoin, hparts, List.intercalate_splitOn]

theorem ipv4Value_lt (h : isIPv4 text = true) : ipv4Value text < 2 ^ 32 := by
  have hlt := octet_lt h
  have hlength := (octets_of_isIPv4 h).1
  rw [ipv4Value]
  generalize text.splitOn '.' = parts at hlt hlength
  match parts, hlength with
  | [a, b, c, d], _ =>
    have ha := hlt (DigitText.value a) (by simp)
    have hb := hlt (DigitText.value b) (by simp)
    have hc := hlt (DigitText.value c) (by simp)
    have hd := hlt (DigitText.value d) (by simp)
    simp only [positional, List.map_cons, List.map_nil, List.foldl_cons, List.foldl_nil]
    omega

/-! ## IPv6 addresses -/

/-- The numbers of sixteen bits that groups stand for. -/
def groupNumbers (groups : List (List Char)) : List ℕ :=
  groups.flatMap fun group =>
    if isIPv4 group then [ipv4Value group / 65536, ipv4Value group % 65536] else [hexNumber group]

/-- The eight numbers of an address. -/
def addressNumbers (text : List Char) : List ℕ :=
  match splitDoubleColon text with
  | [whole] => groupNumbers (colonGroups whole)
  | [left, right] =>
    let left := groupNumbers (colonGroups left)
    let right := groupNumbers (colonGroups right)
    left ++ List.replicate (8 - left.length - right.length) 0 ++ right
  | _ => []

def ipv6Value (text : List Char) : ℕ := positional 65536 (addressNumbers text)

/-- The number of an address of either kind. -/
def addressValue (text : List Char) : ℕ :=
  if isIPv4 text then 0xFFFF * 2 ^ 32 + ipv4Value text else ipv6Value text

variable {group : List Char}

theorem point_notMem_of_isGroup (h : isGroup group = true) : '.' ∉ group :=
  fun hmem => absurd (hexValue_of_isGroup h hmem) (by decide)

theorem not_isIPv4_of_isGroup (h : isGroup group = true) : ¬isIPv4 group = true :=
  fun hv4 => point_notMem_of_isGroup h (isIPv4_chars hv4).2.1

@[simp]
theorem groupNumbers_append (groups groups' : List (List Char)) :
    groupNumbers (groups ++ groups') = groupNumbers groups ++ groupNumbers groups' :=
  List.flatMap_append

variable {groups : List (List Char)}

theorem groupNumbers_of_isGroup (h : ∀ group ∈ groups, isGroup group = true) :
    groupNumbers groups = groups.map hexNumber := by
  induction groups with
  | nil => rfl
  | cons group _ ih =>
    rw [groupNumbers, List.flatMap_cons,
      if_neg (not_isIPv4_of_isGroup (h group List.mem_cons_self)), List.map_cons]
    exact congrArg (hexNumber group :: ·) (ih fun other hother =>
      h other (List.mem_cons_of_mem _ hother))

variable {v4 part high low : List Char} {n : ℕ} {c : Char}

theorem groupNumbers_singleton (h : isIPv4 v4 = true) :
    groupNumbers [v4] = [ipv4Value v4 / 65536, ipv4Value v4 % 65536] := by
  rw [groupNumbers, List.flatMap_singleton, if_pos h]

variable {count : ℕ}

theorem groups_of_groupCount (h : groupCount groups = some count) :
    (∀ group ∈ groups, isGroup group = true) ∧ groups.length = count ∨
      ∃ init v4, groups = init ++ [v4] ∧ (∀ group ∈ init, isGroup group = true) ∧
        isIPv4 v4 = true ∧ init.length + 2 = count := by
  induction groups using groupCount.induct generalizing count with
  | case1 =>
    cases h
    exact Or.inl ⟨by simp, rfl⟩
  | case2 _ hgroup =>
    rw [groupCount, if_pos hgroup] at h
    cases h
    exact Or.inl ⟨by simpa using hgroup, rfl⟩
  | case3 last hgroup hv4 =>
    rw [groupCount, if_neg hgroup, if_pos hv4] at h
    cases h
    exact Or.inr ⟨[], last, rfl, by simp, hv4, rfl⟩
  | case4 _ hgroup hv4 =>
    rw [groupCount, if_neg hgroup, if_neg hv4] at h
    cases h
  | case5 group _ hrest hgroup ih =>
    rw [groupCount.eq_3 _ _ hrest, if_pos hgroup] at h
    obtain ⟨n, hcount, rfl⟩ := Option.map_eq_some_iff.mp h
    rcases ih hcount with ⟨hall, hlength⟩ | ⟨init, v4, rfl, hinit, hv4, hlength⟩
    · exact Or.inl ⟨List.forall_mem_cons.mpr ⟨hgroup, hall⟩, congrArg (· + 1) hlength⟩
    · refine Or.inr ⟨group :: init, v4, rfl, List.forall_mem_cons.mpr ⟨hgroup, hinit⟩, hv4, ?_⟩
      rw [List.length_cons]
      omega
  | case6 _ _ hrest hgroup =>
    rw [groupCount.eq_3 _ _ hrest, if_neg hgroup] at h
    cases h

theorem length_groupNumbers (h : groupCount groups = some count) :
    (groupNumbers groups).length = count := by
  rcases groups_of_groupCount h with ⟨hall, hlength⟩ | ⟨init, v4, rfl, hinit, hv4, hlength⟩
  · rw [groupNumbers_of_isGroup hall, List.length_map, hlength]
  · rw [groupNumbers_append, groupNumbers_of_isGroup hinit, groupNumbers_singleton hv4,
      List.length_append, List.length_map]
    exact hlength

theorem hexNumber_append_singleton (digits : List Char) (c : Char) :
    hexNumber (digits ++ [c]) = 16 * hexNumber digits + (hexValue c).getD 0 := by
  rw [hexNumber, List.foldl_append]
  rfl

theorem hexNumber_lt_pow (h : ∀ c ∈ digits, (hexValue c).isSome = true) :
    hexNumber digits < 16 ^ digits.length := by
  induction digits using List.reverseRecOn with
  | nil => decide
  | append_singleton _ c ih =>
    have hdigit : (hexValue c).getD 0 < 16 := by
      rw [hexValue]
      split_ifs <;> simp only [Option.getD_some, Option.getD_none] <;> omega
    have hfront := ih fun d hd => h d (List.mem_append_left _ hd)
    rw [hexNumber_append_singleton, List.length_append, List.length_singleton, pow_succ]
    omega

theorem hexNumber_lt (h : isGroup group = true) : hexNumber group < 65536 := by
  obtain ⟨-, hlength, -⟩ := of_decide_eq_true h
  calc hexNumber group < 16 ^ group.length := hexNumber_lt_pow fun _ => hexValue_of_isGroup h
    _ ≤ 16 ^ 4 := Nat.pow_le_pow_right (by decide) hlength
    _ = 65536 := by decide

theorem groupNumbers_lt (h : groupCount groups = some count) :
    ∀ n ∈ groupNumbers groups, n < 65536 := by
  have hhex : ∀ {groups : List (List Char)}, (∀ group ∈ groups, isGroup group = true) →
      ∀ n ∈ groupNumbers groups, n < 65536 := by
    intro groups hgroups n hn
    rw [groupNumbers_of_isGroup hgroups] at hn
    obtain ⟨group, hgroup, rfl⟩ := List.mem_map.mp hn
    exact hexNumber_lt (hgroups group hgroup)
  rcases groups_of_groupCount h with ⟨hall, -⟩ | ⟨init, v4, rfl, hinit, hv4, -⟩
  · exact hhex hall
  · intro n hn
    rw [groupNumbers_append, groupNumbers_singleton hv4] at hn
    have hlt := ipv4Value_lt hv4
    rcases List.mem_append.mp hn with hfront | hlast
    · exact hhex hinit n hfront
    · simp only [List.mem_cons, List.not_mem_nil, or_false] at hlast
      omega

theorem forms_of_isIPv6Address (h : isIPv6Address text = true) :
    (∃ whole, splitDoubleColon text = [whole] ∧ groupCount (colonGroups whole) = some 8 ∧
        addressNumbers text = groupNumbers (colonGroups whole)) ∨
      ∃ left right count, splitDoubleColon text = [left, right] ∧
        (∀ group ∈ colonGroups left, isGroup group = true) ∧
        groupCount (colonGroups right) = some count ∧ (colonGroups left).length + count ≤ 7 ∧
        addressNumbers text = (colonGroups left).map hexNumber ++
          List.replicate (8 - (colonGroups left).length - count) 0 ++
            groupNumbers (colonGroups right) := by
  rw [isIPv6Address] at h
  split at h
  · next whole hsplit =>
      refine Or.inl ⟨whole, hsplit, of_decide_eq_true h, ?_⟩
      rw [addressNumbers, hsplit]
  · next left right hsplit =>
      obtain ⟨hleft, hright⟩ := (Bool.and_eq_true _ _).mp h
      obtain ⟨count, hcount, hle⟩ := (Option.any_eq_true _ _).mp hright
      have hgroups := List.all_eq_true.mp hleft
      refine Or.inr ⟨left, right, count, hsplit, hgroups, hcount, of_decide_eq_true hle, ?_⟩
      rw [addressNumbers, hsplit]
      simp only [groupNumbers_of_isGroup hgroups, List.length_map, length_groupNumbers hcount]
  · cases h

theorem length_addressNumbers (h : isIPv6Address text = true) :
    (addressNumbers text).length = 8 := by
  rcases forms_of_isIPv6Address h with ⟨whole, -, hcount, hnumbers⟩ |
    ⟨left, right, count, -, -, hcount, hle, hnumbers⟩
  · rw [hnumbers, length_groupNumbers hcount]
  · rw [hnumbers, List.length_append, List.length_append, List.length_map, List.length_replicate,
      length_groupNumbers hcount]
    omega

theorem addressNumbers_lt (h : isIPv6Address text = true) :
    ∀ n ∈ addressNumbers text, n < 65536 := by
  rcases forms_of_isIPv6Address h with ⟨whole, -, hcount, hnumbers⟩ |
    ⟨left, right, count, -, hleft, hcount, -, hnumbers⟩
  · rw [hnumbers]
    exact groupNumbers_lt hcount
  · rw [hnumbers]
    intro n hn
    rcases List.mem_append.mp hn with hinit | hright
    · rcases List.mem_append.mp hinit with hfront | hzero
      · obtain ⟨group, hgroup, rfl⟩ := List.mem_map.mp hfront
        exact hexNumber_lt (hleft group hgroup)
      · rw [List.eq_of_mem_replicate hzero]
        decide
    · exact groupNumbers_lt hcount n hright

theorem ipv6Value_eq_iff (h : isIPv6Address text = true) (h' : isIPv6Address text' = true) :
    ipv6Value text = ipv6Value text' ↔ addressNumbers text = addressNumbers text' := by
  apply Iff.intro
  · exact positional_inj ((length_addressNumbers h).trans (length_addressNumbers h').symm)
      (addressNumbers_lt h) (addressNumbers_lt h')
  · intro heq
    rw [ipv6Value, heq, ipv6Value]

/-! ## Lower case -/

theorem isDigit_toLower (c : Char) : c.toLower.isDigit = c.isDigit := by
  have hlower := toNat_toLower c
  have hdigit : ∀ c : Char, c.isDigit = (48 ≤ c.toNat && c.toNat ≤ 57) := fun _ => rfl
  rw [hdigit, hdigit, hlower]
  split_ifs with hupper
  · have hc : ¬c.toNat ≤ 57 := by omega
    have hd : ¬c.toNat + 32 ≤ 57 := by omega
    simp [hc, hd]
  · rfl

theorem map_toLower_of_isIPv4 (h : isIPv4 (text.map Char.toLower) = true ∨ isIPv4 text = true) :
    text.map Char.toLower = text := by
  have hsame : ∀ c ∈ text, c.toLower = id c := by
    intro c hc
    apply toLower_of_isDigit
    rcases h with hlower | hplain
    · rcases (isIPv4_chars hlower).1 c.toLower (List.mem_map_of_mem hc) with hdigit | hpoint
      · exact Or.inl ((isDigit_toLower c).symm.trans hdigit)
      · have hlower := toNat_toLower c
        rw [hpoint] at hlower
        have hvalue : '.'.toNat = 46 := rfl
        right
        rw [← Char.toNat_inj]
        split_ifs at hlower <;> omega
    · exact (isIPv4_chars hplain).1 c hc
  rw [List.map_congr_left hsame, List.map_id]

theorem isIPv4_toLower (text : List Char) : isIPv4 (text.map Char.toLower) = isIPv4 text := by
  rw [Bool.eq_iff_iff]
  apply Iff.intro
  · intro h
    rwa [map_toLower_of_isIPv4 (Or.inl h)] at h
  · intro h
    rwa [map_toLower_of_isIPv4 (Or.inr h)]

theorem isGroup_map_toLower (group : List Char) :
    isGroup (group.map Char.toLower) = isGroup group := by
  have hhex : (fun c : Char => (hexValue c).isSome) ∘ Char.toLower =
      fun c => (hexValue c).isSome := funext fun c => by
    rw [Function.comp_apply, hexValue_toLower]
  rw [isGroup, isGroup, List.length_map, List.all_map, hhex]

theorem groupNumbers_toLower (groups : List (List Char)) :
    groupNumbers (groups.map (·.map Char.toLower)) = groupNumbers groups := by
  rw [groupNumbers, groupNumbers, List.flatMap_map]
  congr 1
  funext group
  rw [isIPv4_toLower]
  by_cases hv4 : isIPv4 group = true
  · rw [if_pos hv4, if_pos hv4, map_toLower_of_isIPv4 (Or.inr hv4)]
  · rw [if_neg hv4, if_neg hv4, hexNumber, hexNumber, List.foldl_map]
    simp only [hexValue_toLower]

theorem groupCount_toLower (groups : List (List Char)) :
    groupCount (groups.map (·.map Char.toLower)) = groupCount groups := by
  induction groups with
  | nil => rfl
  | cons _ rest ih =>
    cases rest with
    | nil =>
      rw [List.map_cons, List.map_nil, groupCount, groupCount, isGroup_map_toLower,
        isIPv4_toLower]
    | cons =>
      rw [List.map_cons, groupCount.eq_3 _ _ (by simp), groupCount.eq_3 _ _ (by simp), ih,
        isGroup_map_toLower]

theorem colonGroups_toLower (text : List Char) :
    colonGroups (text.map Char.toLower) = (colonGroups text).map (·.map Char.toLower) := by
  rw [colonGroups, colonGroups, splitOn_map toLower_eq_colon_iff]
  by_cases hempty : text = []
  · rw [if_pos hempty, if_pos (by rw [hempty]; rfl)]
    rfl
  · rw [if_neg hempty, if_neg (by simpa using hempty)]

theorem isIPv6Address_toLower (text : List Char) :
    isIPv6Address (text.map Char.toLower) = isIPv6Address text := by
  rw [isIPv6Address, isIPv6Address, splitDoubleColon_map toLower_eq_colon_iff]
  rcases splitDoubleColon text with _ | ⟨left, _ | ⟨right, _ | _⟩⟩
  · rfl
  · simp only [List.map_cons, List.map_nil]
    rw [colonGroups_toLower, groupCount_toLower]
  · have hgroup : isGroup ∘ (fun group : List Char => group.map Char.toLower) = isGroup :=
      funext isGroup_map_toLower
    simp only [List.map_cons, List.map_nil]
    rw [colonGroups_toLower, colonGroups_toLower, groupCount_toLower, List.all_map, hgroup,
      List.length_map]
  · rfl

theorem addressNumbers_toLower (text : List Char) :
    addressNumbers (text.map Char.toLower) = addressNumbers text := by
  rw [addressNumbers, addressNumbers, splitDoubleColon_map toLower_eq_colon_iff]
  match splitDoubleColon text with
  | [] => rfl
  | [whole] =>
    simp only [List.map_cons, List.map_nil]
    rw [colonGroups_toLower, groupNumbers_toLower]
  | [left, right] =>
    simp only [List.map_cons, List.map_nil]
    rw [colonGroups_toLower, colonGroups_toLower, groupNumbers_toLower, groupNumbers_toLower]
  | _ :: _ :: _ :: _ => rfl

/-! ## The part after the last colon -/

theorem splitDoubleColon_ne_nil (text : List Char) : splitDoubleColon text ≠ [] := by
  induction text using splitDoubleColon.induct with
  | case1 =>
    rw [splitDoubleColon]
    exact List.cons_ne_nil _ _
  | case2 _ _ hcut _ _ hsplit =>
    rw [splitDoubleColon.eq_2 _ _ hcut, hsplit]
    exact List.cons_ne_nil _ _
  | case3 _ _ _ hsplit ih => exact absurd hsplit ih
  | case4 => exact List.cons_ne_nil _ _

theorem splitDoubleColon_append_tail (front : List Char) :
    ∃ init last, last <:+ front ∧ (init = [] → last = front) ∧ ∀ tail : List Char,
      tail.head? ≠ some ':' → splitDoubleColon tail = [tail] →
        splitDoubleColon (front ++ tail) = init ++ [last ++ tail] := by
  induction front using splitDoubleColon.induct with
  | case1 rest ih =>
    obtain ⟨init, last, hsuffix, -, htail⟩ := ih
    refine ⟨[] :: init, last, hsuffix.trans (List.suffix_append [':', ':'] rest),
      fun hnil => absurd hnil (List.cons_ne_nil _ _), ?_⟩
    intro tail hhead hsplit
    rw [List.cons_append, List.cons_append, splitDoubleColon, htail tail hhead hsplit]
    rfl
  | case2 c rest hcut _ _ _ ih =>
    obtain ⟨init, last, hsuffix, hwhole, htail⟩ := ih
    have hnocut : ∀ {tail : List Char}, tail.head? ≠ some ':' →
        ∀ rest', c = ':' → rest ++ tail = ':' :: rest' → False := by
      intro tail hhead rest' hc hrest
      cases rest with
      | nil =>
        rw [List.nil_append] at hrest
        exact hhead (by rw [hrest]; rfl)
      | cons _ rest =>
        rw [List.cons_append] at hrest
        exact hcut rest hc (by rw [(List.cons.inj hrest).1])
    cases init with
    | nil =>
      refine ⟨[], c :: last, by rw [hwhole rfl], fun _ => by rw [hwhole rfl], ?_⟩
      intro tail hhead htailSplit
      rw [List.cons_append, splitDoubleColon.eq_2 _ _ (hnocut hhead),
        htail tail hhead htailSplit]
      rfl
    | cons piece init =>
      refine ⟨(c :: piece) :: init, last, hsuffix.trans (List.suffix_cons c rest),
        fun hnil => absurd hnil (List.cons_ne_nil _ _), ?_⟩
      intro tail hhead htailSplit
      rw [List.cons_append, splitDoubleColon.eq_2 _ _ (hnocut hhead),
        htail tail hhead htailSplit]
      rfl
  | case3 _ rest _ hsplit => exact absurd hsplit (splitDoubleColon_ne_nil rest)
  | case4 => exact ⟨[], [], List.suffix_rfl, fun _ => rfl, fun tail _ hsplit => hsplit⟩

theorem colonGroups_eq_splitOn (h : text ≠ []) : colonGroups text = text.splitOn ':' := if_neg h

variable {front : List Char}

theorem exists_groups_before (hcolon : front.getLast? = some ':') :
    ∃ init before, ∀ tail : List Char, tail ≠ [] → tail.head? ≠ some ':' →
      splitDoubleColon tail = [tail] → ∃ last, splitDoubleColon (front ++ tail) = init ++ [last] ∧
        colonGroups last = before ++ tail.splitOn ':' := by
  obtain ⟨init, last, hsuffix, -, htail⟩ := splitDoubleColon_append_tail front
  rcases List.eq_nil_or_concat' last with rfl | ⟨groups, c, rfl⟩
  · refine ⟨init, [], fun tail hne hhead hsplit => ⟨tail, htail tail hhead hsplit, ?_⟩⟩
    rw [colonGroups_eq_splitOn hne, List.nil_append]
  · obtain ⟨before, rfl⟩ := hsuffix
    have hc : c = ':' := by
      rw [← List.append_assoc, List.getLast?_concat] at hcolon
      exact Option.some.inj hcolon
    subst hc
    refine ⟨init, groups.splitOn ':', fun tail hne hhead hsplit =>
      ⟨groups ++ [':'] ++ tail, htail tail hhead hsplit, ?_⟩⟩
    rw [colonGroups_eq_splitOn (by simp), List.append_assoc, List.singleton_append,
      List.splitOn_append_cons_self]

/-! ## Numbers in hexadecimal digits -/

theorem hexValue_digitChar (h : n < 16) : hexValue n.digitChar = some n := by
  interval_cases n <;> rfl

theorem hexNumber_toDigits (n : ℕ) : hexNumber (Nat.toDigits 16 n) = n := by
  induction n using Nat.strong_induction_on with
  | _ n ih =>
    rw [Nat.toDigits_eq_if (by decide)]
    split_ifs with hsmall
    · rw [hexNumber, List.foldl_cons, List.foldl_nil, hexValue_digitChar hsmall]
      exact Nat.zero_add n
    · rw [hexNumber_append_singleton, ih _ (Nat.div_lt_self (by omega) (by decide)),
        hexValue_digitChar (Nat.mod_lt n (by decide)), Option.getD_some]
      exact Nat.div_add_mod n 16

theorem hexValue_of_mem_toDigits (hc : c ∈ Nat.toDigits 16 n) : (hexValue c).isSome = true := by
  induction n using Nat.strong_induction_on with
  | _ n ih =>
    rw [Nat.toDigits_eq_if (by decide)] at hc
    split_ifs at hc with hsmall
    · rw [List.mem_singleton.mp hc, hexValue_digitChar hsmall]
      rfl
    · rcases List.mem_append.mp hc with hfront | hlast
      · exact ih _ (Nat.div_lt_self (by omega) (by decide)) hfront
      · rw [List.mem_singleton.mp hlast, hexValue_digitChar (Nat.mod_lt n (by decide))]
        rfl

theorem isGroup_toDigits (h : n < 65536) : isGroup (Nat.toDigits 16 n) = true := by
  refine decide_eq_true ⟨Nat.length_toDigits_pos, ?_, ?_⟩
  · exact (Nat.length_toDigits_le_iff (by decide) (by decide)).mpr h
  · exact List.all_eq_true.mpr fun c hc => hexValue_of_mem_toDigits hc

/-! ## An IPv4 address at the end -/

theorem intercalate_splitDoubleColon (text : List Char) :
    [':', ':'].intercalate (splitDoubleColon text) = text := by
  induction text using splitDoubleColon.induct with
  | case1 rest ih =>
    rw [splitDoubleColon]
    obtain ⟨first, others, hsplit⟩ := List.exists_cons_of_ne_nil (splitDoubleColon_ne_nil rest)
    rw [hsplit, List.intercalate_cons_cons, ← hsplit, ih]
    rfl
  | case2 _ _ hcut _ others hsplit ih =>
    rw [splitDoubleColon.eq_2 _ _ hcut, hsplit]
    rw [hsplit] at ih
    cases others with
    | nil =>
      rw [List.intercalate_singleton] at ih ⊢
      rw [ih]
    | cons =>
      rw [List.intercalate_cons_cons] at ih ⊢
      rw [List.cons_append, List.cons_append, ih]
  | case3 _ rest _ hsplit => exact absurd hsplit (splitDoubleColon_ne_nil rest)
  | case4 => rfl

theorem intercalate_colonGroups (text : List Char) :
    [':'].intercalate (colonGroups text) = text := by
  rw [colonGroups]
  split_ifs with hempty
  · rw [hempty]
    rfl
  · exact List.intercalate_splitOn ':'

variable {init : List (List Char)}

theorem exists_front_of_intercalate {separator : List Char} (last : List Char) (hne : init ≠ []) :
    ∃ front, separator.intercalate (init ++ [last]) = front ++ separator ++ last := by
  induction init with
  | nil => exact absurd rfl hne
  | cons first rest ih =>
    cases rest with
    | nil => exact ⟨first, by simp [List.intercalate]⟩
    | cons =>
      obtain ⟨front, hfront⟩ := ih (List.cons_ne_nil _ _)
      refine ⟨first ++ separator ++ front, ?_⟩
      rw [List.cons_append, List.cons_append, List.intercalate_cons_cons, ← List.cons_append,
        hfront]
      simp only [List.append_assoc]

theorem point_notMem_of_colonGroups
    (h : ∀ group ∈ colonGroups part, isGroup group = true) : '.' ∉ part := by
  intro hmem
  rw [← intercalate_colonGroups part] at hmem
  rcases Split.mem_of_mem_intercalate hmem with hsep | ⟨group, hgroup, hin⟩
  · exact absurd hsep (by decide)
  · exact point_notMem_of_isGroup (h group hgroup) hin

theorem eq_of_splitDoubleColon_whole {whole : List Char} (h : splitDoubleColon text = [whole]) :
    text = whole := by
  rw [← intercalate_splitDoubleColon text, h, List.intercalate_singleton]

theorem eq_of_splitDoubleColon_cut {left right : List Char}
    (h : splitDoubleColon text = [left, right]) : text = left ++ [':', ':'] ++ right := by
  rw [← intercalate_splitDoubleColon text, h, List.intercalate_cons_cons,
    List.intercalate_singleton]

theorem exists_front_of_colonGroups (h : colonGroups part = init ++ [v4]) :
    init = [] ∧ part = v4 ∨ ∃ front, part = front ++ [':'] ++ v4 := by
  rw [← intercalate_colonGroups part, h]
  rcases List.eq_nil_or_concat' init with rfl | ⟨front, group, rfl⟩
  · exact Or.inl ⟨rfl, List.intercalate_singleton⟩
  · exact Or.inr (exists_front_of_intercalate v4 (by simp))

theorem exists_ipv4_tail (h : isIPv6Address text = true) (hpoint : '.' ∈ text) :
    ∃ front v4, text = front ++ v4 ∧ front.getLast? = some ':' ∧ isIPv4 v4 = true := by
  rcases forms_of_isIPv6Address h with ⟨whole, hsplit, hcount, -⟩ |
    ⟨left, right, count, hsplit, hleft, hcount, -, -⟩
  · rw [eq_of_splitDoubleColon_whole hsplit] at hpoint ⊢
    rcases groups_of_groupCount hcount with ⟨hall, -⟩ | ⟨init, v4, hgroups, -, hv4, hlength⟩
    · exact absurd hpoint (point_notMem_of_colonGroups hall)
    · rcases exists_front_of_colonGroups hgroups with ⟨rfl, -⟩ | ⟨front, hwhole⟩
      · simp at hlength
      · exact ⟨front ++ [':'], v4, hwhole, List.getLast?_concat, hv4⟩
  · rw [eq_of_splitDoubleColon_cut hsplit] at hpoint ⊢
    rcases groups_of_groupCount hcount with ⟨hall, -⟩ | ⟨init, v4, hgroups, -, hv4, -⟩
    · have hleft' := point_notMem_of_colonGroups hleft
      have hright' := point_notMem_of_colonGroups hall
      simp [hleft', hright'] at hpoint
    · rcases exists_front_of_colonGroups hgroups with ⟨-, rfl⟩ | ⟨front, rfl⟩
      · exact ⟨left ++ [':', ':'], right, rfl, by simp, hv4⟩
      · refine ⟨left ++ [':', ':'] ++ (front ++ [':']), v4, by simp, ?_, hv4⟩
        rw [← List.append_assoc, List.getLast?_concat]

theorem colon_notMem_of_isIPv4 (h : isIPv4 text = true) : ':' ∉ text :=
  fun hmem => absurd ((isIPv4_chars h).1 ':' hmem) (by decide)

theorem head?_ne_of_notMem (h : c ∉ text) : text.head? ≠ some c :=
  fun hhead => h (List.mem_of_head? hhead)

theorem splitDoubleColon_of_notMem (h : ':' ∉ text) : splitDoubleColon text = [text] := by
  have happend : splitDoubleColon (text ++ []) = [text ++ []] := splitDoubleColon_append h rfl
  rwa [List.append_nil] at happend

theorem splitDoubleColon_pair (hhigh : isGroup high = true) (hlow : isGroup low = true) :
    splitDoubleColon (high ++ ':' :: low) = [high ++ ':' :: low] := by
  have hlowColon := colon_notMem_of_isGroup hlow
  apply splitDoubleColon_append (colon_notMem_of_isGroup hhigh)
  exact splitDoubleColon_cons (fun _ => head?_ne_of_notMem hlowColon)
    (splitDoubleColon_of_notMem hlowColon)

theorem splitOn_pair (hhigh : isGroup high = true)
    (hlow : isGroup low = true) : (high ++ ':' :: low).splitOn ':' = [high, low] := by
  rw [List.splitOn_append_cons_self_of_not_mem (colon_notMem_of_isGroup hhigh),
    List.splitOn_eq_singleton (colon_notMem_of_isGroup hlow)]

variable {before : List (List Char)}

theorem groups_before_ipv4 (hv4 : isIPv4 v4 = true) (h : groupCount (before ++ [v4]) = some count) :
    (∀ group ∈ before, isGroup group = true) ∧ before.length + 2 = count := by
  rcases groups_of_groupCount h with ⟨hall, -⟩ | ⟨init, v4', hgroups, hinit, -, hlength⟩
  · exact absurd hv4 (not_isIPv4_of_isGroup (hall v4 (by simp)))
  · obtain ⟨rfl, -⟩ := List.append_inj' hgroups rfl
    exact ⟨hinit, hlength⟩

theorem isGroup_append_pair (hbefore : ∀ group ∈ before, isGroup group = true)
    (hhigh : isGroup high = true) (hlow : isGroup low = true) :
    ∀ group ∈ before ++ [high, low], isGroup group = true := by
  intro group hgroup
  rcases List.mem_append.mp hgroup with hfront | hlast
  · exact hbefore group hfront
  · simp only [List.mem_cons, List.not_mem_nil, or_false] at hlast
    rcases hlast with rfl | rfl
    · exact hhigh
    · exact hlow

theorem replace_ipv4_tail (h : isIPv6Address (front ++ v4) = true)
    (hfront : front.getLast? = some ':') (hv4 : isIPv4 v4 = true) (hhigh : isGroup high = true)
    (hlow : isGroup low = true)
    (hnumbers : [hexNumber high, hexNumber low] = [ipv4Value v4 / 65536, ipv4Value v4 % 65536]) :
    isIPv6Address (front ++ (high ++ ':' :: low)) = true ∧
      '.' ∉ front ++ (high ++ ':' :: low) ∧
        addressNumbers (front ++ (high ++ ':' :: low)) = addressNumbers (front ++ v4) := by
  have hv4Colon := colon_notMem_of_isIPv4 hv4
  obtain ⟨init, before, hput⟩ := exists_groups_before hfront
  obtain ⟨last, hsplit, hgroups⟩ := hput v4 (ne_nil_of_isGroup (Or.inr hv4))
    (head?_ne_of_notMem hv4Colon) (splitDoubleColon_of_notMem hv4Colon)
  rw [List.splitOn_eq_singleton hv4Colon] at hgroups
  have hhead : (high ++ ':' :: low).head? ≠ some ':' := by
    have hhighHead := head?_ne_of_notMem (colon_notMem_of_isGroup hhigh)
    cases high with
    | nil => exact absurd hhigh (by decide)
    | cons => exact hhighHead
  obtain ⟨last', hsplit', hgroups'⟩ := hput (high ++ ':' :: low) (by simp) hhead
    (splitDoubleColon_pair hhigh hlow)
  rw [splitOn_pair hhigh hlow] at hgroups'
  have hsame : ∀ count, groupCount (before ++ [v4]) = some count →
      (∀ group ∈ before ++ [high, low], isGroup group = true) ∧
        groupCount (before ++ [high, low]) = some count ∧
          groupNumbers (before ++ [high, low]) = groupNumbers (before ++ [v4]) := by
    intro count hcount
    obtain ⟨hbefore, hlength⟩ := groups_before_ipv4 hv4 hcount
    have hall := isGroup_append_pair hbefore hhigh hlow
    refine ⟨hall, ?_, ?_⟩
    · rw [groupCount_of_isGroup hall, List.length_append]
      exact congrArg some hlength
    · rw [groupNumbers_of_isGroup hall, groupNumbers_append, groupNumbers_of_isGroup hbefore,
        groupNumbers_singleton hv4, ← hnumbers, List.map_append]
      rfl
  rw [isIPv6Address, hsplit] at h
  rw [isIPv6Address, addressNumbers, addressNumbers, hsplit, hsplit']
  have hwhole := intercalate_splitDoubleColon (front ++ (high ++ ':' :: low))
  rw [hsplit'] at hwhole
  rcases init with _ | ⟨left, _ | ⟨_, init⟩⟩
  · simp only [List.nil_append, decide_eq_true_eq] at h ⊢
    rw [hgroups] at h
    obtain ⟨hall, hcount, hnumbers'⟩ := hsame 8 h
    refine ⟨by rw [hgroups', hcount], ?_, by rw [hgroups', hgroups, hnumbers']⟩
    rw [← hwhole, List.nil_append, List.intercalate_singleton]
    exact point_notMem_of_colonGroups (hgroups' ▸ hall)
  · simp only [List.singleton_append, Bool.and_eq_true] at h ⊢
    obtain ⟨hleft, hright⟩ := h
    obtain ⟨count, hcount, hle⟩ := (Option.any_eq_true _ _).mp hright
    rw [hgroups] at hcount
    obtain ⟨hall, hcount', hnumbers'⟩ := hsame count hcount
    refine ⟨⟨hleft, ?_⟩, ?_, by rw [hgroups', hgroups, hnumbers']⟩
    · rw [hgroups', hcount']
      exact hle
    · rw [← hwhole, List.singleton_append, List.intercalate_cons_cons,
        List.intercalate_singleton]
      have hleft' := point_notMem_of_colonGroups (List.all_eq_true.mp hleft)
      have hright' : '.' ∉ last' := point_notMem_of_colonGroups (hgroups' ▸ hall)
      simp [hleft', hright']
  · cases init with
    | nil | cons => cases h

/-! ## Characters -/

theorem isZoneChar_iff (c : Char) :
    isZoneChar c = true ↔ c.toNat = 45 ∨ c.toNat = 46 ∨ 48 ≤ c.toNat ∧ c.toNat ≤ 58 ∨
      65 ≤ c.toNat ∧ c.toNat ≤ 90 ∨ 97 ≤ c.toNat ∧ c.toNat ≤ 122 := by
  have hdigit : c.isDigit = true ↔ 48 ≤ c.toNat ∧ c.toNat ≤ 57 := by
    rw [Char.isDigit, Bool.and_eq_true, decide_eq_true_eq, decide_eq_true_eq]
    rfl
  have hmark : ['-', '.', ':'].contains c = true ↔
      c.toNat = 45 ∨ c.toNat = 46 ∨ c.toNat = 58 := by
    simp only [List.contains_iff_mem, List.mem_cons, List.not_mem_nil, or_false]
    rw [← Char.toNat_inj, ← Char.toNat_inj, ← Char.toNat_inj]
    rfl
  rw [isZoneChar, Bool.or_eq_true, Bool.or_eq_true, Bool.or_eq_true, hdigit, isUpper_iff, isLower_iff,
    hmark]
  omega

theorem isZoneChar_of_hexValue (h : (hexValue c).isSome = true) : isZoneChar c = true := by
  rw [isZoneChar_iff]
  rw [hexValue] at h
  split_ifs at h
  · omega
  · omega
  · omega
  · cases h

theorem isZoneChar_of_isIPv4 (h : isIPv4 text = true) : ∀ c ∈ text, isZoneChar c = true := by
  intro c hc
  rcases (isIPv4_chars h).1 c hc with hdigit | rfl
  · simp [isZoneChar, hdigit]
  · rfl

theorem isZoneChar_of_colonGroups
    (h : ∀ group ∈ colonGroups part, isGroup group = true ∨ isIPv4 group = true) :
    ∀ c ∈ part, isZoneChar c = true := by
  intro c hc
  rw [← intercalate_colonGroups part] at hc
  rcases Split.mem_of_mem_intercalate hc with hsep | ⟨group, hgroup, hin⟩
  · rw [List.mem_singleton.mp hsep]
    rfl
  · rcases h group hgroup with hhex | hv4
    · exact isZoneChar_of_hexValue (hexValue_of_isGroup hhex hin)
    · exact isZoneChar_of_isIPv4 hv4 c hin

theorem isZoneChar_of_isIPv6Address (h : isIPv6Address text = true) :
    ∀ c ∈ text, isZoneChar c = true := by
  rcases forms_of_isIPv6Address h with ⟨whole, hsplit, hcount, -⟩ |
    ⟨left, right, count, hsplit, hleft, hcount, -, -⟩
  · rw [eq_of_splitDoubleColon_whole hsplit]
    exact isZoneChar_of_colonGroups (groupCount_spec hcount).1
  · rw [eq_of_splitDoubleColon_cut hsplit]
    intro c hc
    rcases List.mem_append.mp hc with hfront | hright
    · rcases List.mem_append.mp hfront with hinLeft | hcolon
      · exact isZoneChar_of_colonGroups (fun group hgroup => Or.inl (hleft group hgroup)) c hinLeft
      · simp only [List.mem_cons, List.not_mem_nil, or_false, or_self] at hcolon
        rw [hcolon]
        rfl
    · exact isZoneChar_of_colonGroups (groupCount_spec hcount).1 c hright

theorem drop_length_takeWhile {α : Type*} (p : α → Bool) (l : List α) :
    l.drop (l.takeWhile p).length = l.dropWhile p := by
  induction l with
  | nil => rfl
  | cons a _ ih =>
    by_cases ha : p a
    · rw [List.takeWhile_cons_of_pos ha, List.dropWhile_cons_of_pos ha]
      exact ih
    · rw [List.takeWhile_cons_of_neg ha, List.dropWhile_cons_of_neg ha]
      rfl

theorem char_of_isIP (h : isIP text ≠ 0) : ∀ c ∈ text, isZoneChar c = true ∨ c = '%' := by
  rw [isIP] at h
  split_ifs at h with hv4 hv6
  · exact fun c hc => Or.inl (isZoneChar_of_isIPv4 hv4 c hc)
  · rw [isIPv6, Bool.and_eq_true] at hv6
    obtain ⟨haddress, hzone⟩ := hv6
    rw [drop_length_takeWhile] at hzone
    intro c hc
    rw [← List.takeWhile_append_dropWhile (p := fun c => decide (c ≠ '%')) (l := text)] at hc
    rcases List.mem_append.mp hc with hfront | hback
    · exact Or.inl (isZoneChar_of_isIPv6Address haddress c hfront)
    · have hhead := List.head?_dropWhile_not (fun c => decide (c ≠ '%')) text
      cases hrest : text.dropWhile (fun c => decide (c ≠ '%')) with
      | nil =>
        rw [hrest] at hback
        exact absurd hback List.not_mem_nil
      | cons =>
        rw [hrest] at hback hzone hhead
        rcases List.mem_cons.mp hback with rfl | hin
        · exact Or.inr (by simpa using hhead)
        · simp only [List.tail_cons, reduceCtorEq, decide_false, Bool.false_or, Bool.and_eq_true,
            List.all_eq_true] at hzone
          exact Or.inl (hzone.2 c hin)
  · exact absurd rfl h

theorem trim_of_isIP (h : isIP text ≠ 0) : trim text = text := by
  have hspace : ∀ c ∈ text, isWhiteSpace c = false := by
    intro c hc
    have hchar : isZoneChar c = true ∨ c = '%' := char_of_isIP h c hc
    rw [isZoneChar_iff, ← Char.toNat_inj] at hchar
    have hpercent : '%'.toNat = 37 := rfl
    simp only [isWhiteSpace, List.contains_eq_mem, List.mem_cons, List.not_mem_nil, or_false,
      Bool.or_eq_false_iff, Bool.and_eq_false_iff, decide_eq_false_iff_not]
    omega
  exact JsonText.trim_eq_self (fun c hc => hspace c (List.mem_of_head? hc))
    fun c hc => hspace c (List.mem_of_getLast? hc)

theorem length_colonGroups_le
    (h : ∀ group ∈ colonGroups part, isGroup group = true ∨ isIPv4 group = true) :
    part.length ≤ 16 * (colonGroups part).length := by
  have hjoin : ∀ groups : List (List Char), (∀ group ∈ groups, group.length ≤ 15) →
      ([':'].intercalate groups).length ≤ 16 * groups.length := by
    intro groups
    induction groups with
    | nil => exact fun _ => Nat.le_refl 0
    | cons group rest ih =>
      intro hgroups
      have hgroup := hgroups group List.mem_cons_self
      have hrest := ih fun other hother => hgroups other (List.mem_cons_of_mem _ hother)
      cases rest with
      | nil =>
        rw [List.intercalate_singleton, List.length_singleton]
        omega
      | cons =>
        rw [List.intercalate_cons_cons, List.length_append, List.length_append,
          List.length_singleton, List.length_cons]
        omega
  have hlength := hjoin (colonGroups part) fun group hgroup => by
    rcases h group hgroup with hhex | hv4
    · have hfour := (of_decide_eq_true hhex).2.1
      omega
    · exact (isIPv4_chars hv4).2.2
  rwa [intercalate_colonGroups] at hlength

theorem length_of_isIPv6Address (h : isIPv6Address text = true) : text.length ≤ 128 := by
  rcases forms_of_isIPv6Address h with ⟨whole, hsplit, hcount, -⟩ |
    ⟨left, right, count, hsplit, hleft, hcount, hle, -⟩
  · obtain ⟨hvalid, hlow, -, -⟩ := groupCount_spec hcount
    have hlength := length_colonGroups_le hvalid
    rw [eq_of_splitDoubleColon_whole hsplit]
    omega
  · obtain ⟨hvalid, hlow, -, -⟩ := groupCount_spec hcount
    have hright := length_colonGroups_le hvalid
    have hinLeft := length_colonGroups_le fun group hgroup => Or.inl (hleft group hgroup)
    rw [eq_of_splitDoubleColon_cut hsplit]
    simp only [List.length_append, List.length_cons, List.length_nil]
    omega

end Fluxora.Lib.IpNumber
