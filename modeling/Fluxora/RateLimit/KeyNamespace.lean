/-
# The namespace of rate-limit keys

A key of the store has the kind of the principal, the principal and the route, and the store in
Redis makes a name of it in which colons have become underscores. Two keys, or two names, are
equal only for one principal and one route. A route is a path between its outer slashes.
-/

import Mathlib.Data.Bool.AllAny
import Fluxora.RateLimit.ClientAddress
import Fluxora.RateLimit.WindowAgreement

namespace Fluxora.RateLimit

open Lib Lib.JsText Lib.IpAddress

/-! ## Principals and keys -/

/-- What a key is made of. -/
structure KeySource where
  kind : PrincipalType
  id : List Char
  path : Option (List Char)
  deriving DecidableEq

/-- A limiter with the canonical form of addresses and with digests in hexadecimal digits. -/
structure KeyedLimiter extends Limiter where
  normaliseIp_eq : toLimiter.normaliseIp = RateLimit.normaliseIp
  isHex : ∀ text, ∀ c ∈ (toLimiter.sha256Hex text).1, (hexValue c).isSome = true

namespace KeyedLimiter

variable (l : KeyedLimiter)

/-- The principal part of a key. -/
def principalOf (source : KeySource) : List Char :=
  match source.kind with
  | .ip => RateLimit.normaliseIp source.id
  | .apikey | .admin => (l.sha256Hex source.id).1

/-- `buildStoreKey(principalType, identifier, routeKeyFromPath(path))` -/
def storeKey (source : KeySource) : List Char :=
  "v1:".toList ++ (source.kind.text ++ (':' :: (l.principalOf source ++
    (':' :: l.routeKeyFromPath source.path))))

/-- The name of the key in Redis. -/
def redisKey (source : KeySource) : List Char := SlidingWindowStore.buildKey (l.storeKey source)

def idOf : Client → List Char
  | .ip address => address
  | .apiKey key => key

theorem buildStoreKey_eq_storeKey (client : Client) (path : Option (List Char)) :
    l.buildStoreKey client (l.routeKeyFromPath path) =
      l.storeKey ⟨l.principalTypeFor client, idOf client, path⟩ := by
  have hprincipal : l.principalKey client =
      l.principalOf ⟨l.principalTypeFor client, idOf client, path⟩ := by
    cases client with
    | ip address => exact congrFun l.normaliseIp_eq address
    | apiKey =>
      rw [Limiter.principalTypeFor, principalOf]
      split_ifs <;> rfl
  rw [Limiter.buildStoreKey, storeKey, hprincipal]

end KeyedLimiter

/-! ## The parts of a principal -/

/-- A character that the store in Redis keeps and that no cut is made at. -/
def IsPartChar (c : Char) : Prop := isAsciiAlphanumeric c = true ∨ c = '.'

instance : DecidablePred IsPartChar := fun c =>
  inferInstanceAs (Decidable (isAsciiAlphanumeric c = true ∨ c = '.'))

/-- How many parts a principal of a kind has that starts with a part: an IPv6 address has
eight, and its first is a group of four digits. -/
def partCount (kind : PrincipalType) (first : List Char) : ℕ :=
  if kind = .ip ∧ first.length = 4 ∧ '.' ∉ first then 8 else 1

/-- The parts of a principal between its colons. -/
structure HasParts (kind : PrincipalType) (principal : List Char) (parts : List (List Char)) :
    Prop where
  join : principal ++ [':'] = parts.flatMap (· ++ [':'])
  chars : ∀ part ∈ parts, ∀ c ∈ part, IsPartChar c
  size : (principal ++ [':']).length ≤ 128
  count : parts.length = partCount kind (parts.headD [])

variable {c : Char}

theorem isPartChar_of_isDigit (h : c.isDigit = true ∨ c = '.') : IsPartChar c := by
  rcases h with hdigit | hpoint
  · exact Or.inl (by simp [isAsciiAlphanumeric, hdigit])
  · exact Or.inr hpoint

theorem isAsciiAlphanumeric_of_hexValue (h : (hexValue c).isSome = true) :
    isAsciiAlphanumeric c = true := by
  have hrange : (48 ≤ c.toNat ∧ c.toNat ≤ 57) ∨ (97 ≤ c.toNat ∧ c.toNat ≤ 102) ∨
      (65 ≤ c.toNat ∧ c.toNat ≤ 70) := by
    rw [hexValue] at h
    split_ifs at h with hdigit hlower hupper
    · exact Or.inl hdigit
    · exact Or.inr (Or.inl hlower)
    · exact Or.inr (Or.inr hupper)
    · exact absurd h Bool.false_ne_true
  simp only [isAsciiAlphanumeric, Char.isDigit, isUpper_iff, isLower_iff, Bool.or_eq_true,
    Bool.and_eq_true, decide_eq_true_eq, ge_iff_le, UInt32.le_iff_toNat_le]
  change (48 ≤ c.toNat ∧ c.toNat ≤ 57 ∨ 65 ≤ c.toNat ∧ c.toNat ≤ 90) ∨
    97 ≤ c.toNat ∧ c.toNat ≤ 122
  omega

theorem hasParts_singleton {kind : PrincipalType} {principal : List Char}
    (hchars : ∀ c ∈ principal, IsPartChar c) (hlength : principal.length ≤ 127)
    (hcount : partCount kind principal = 1) : HasParts kind principal [principal] where
  join := (List.flatMap_singleton ..).symm
  chars := fun part hpart => List.mem_singleton.mp hpart ▸ hchars
  size := by
    rw [List.length_append]
    exact Nat.succ_le_succ hlength
  count := hcount.symm

variable {text : List Char}

theorem hasParts_dotted
    (h : (∀ c ∈ text, c.isDigit = true ∨ c = '.') ∧ '.' ∈ text ∧ text.length ≤ 15) :
    HasParts .ip text [text] := by
  apply hasParts_singleton
  · exact fun c hc => isPartChar_of_isDigit (h.1 c hc)
  · exact le_trans h.2.2 (by decide)
  · rw [partCount, if_neg fun hfour => hfour.2.2 h.2.1]

theorem length_flatMap_le {parts : List (List Char)} {bound : ℕ}
    (h : ∀ part ∈ parts, part.length ≤ bound) :
    (parts.flatMap (· ++ [':'])).length ≤ parts.length * (bound + 1) := by
  induction parts with
  | nil => exact Nat.zero_le _
  | cons part _ ih =>
    have hpart := h part List.mem_cons_self
    have hrest := ih fun other hother => h other (List.mem_cons_of_mem _ hother)
    rw [List.flatMap_cons, List.length_append, List.length_append, List.length_singleton,
      List.length_cons, Nat.succ_mul]
    omega

theorem padStart_group {group : List Char} (h : isGroup group = true ∨ isIPv4 group = true) :
    (∀ c ∈ DigitText.padStart 4 group, IsPartChar c) ∧
      (DigitText.padStart 4 group).length ≤ 15 := by
  have hchars : ∀ c ∈ group, IsPartChar c := by
    intro c hc
    rcases h with hgroup | hv4
    · exact Or.inl (isAsciiAlphanumeric_of_hexValue (hexValue_of_isGroup hgroup hc))
    · exact isPartChar_of_isDigit ((isIPv4_chars hv4).1 c hc)
  have hlength : group.length ≤ 15 := by
    rcases h with hgroup | hv4
    · exact le_trans (of_decide_eq_true hgroup).2.1 (by decide)
    · exact (isIPv4_chars hv4).2.2
  apply And.intro
  · intro c hc
    rcases List.mem_append.mp hc with hzero | hmem
    · rw [List.eq_of_mem_replicate hzero]
      exact Or.inl (by decide)
    · exact hchars c hmem
  · rw [DigitText.padStart, List.length_append, List.length_replicate]
    omega

theorem exists_hasParts_canonicalIpv6 (h : isIPv6Address text = true) :
    ∃ parts, HasParts .ip (canonicalIpv6 text) parts := by
  rw [canonicalIpv6]
  cases hmapped : v4Mapped (text.map Char.toLower) with
  | some => exact ⟨_, hasParts_dotted (v4Mapped_chars hmapped)⟩
  | none =>
    obtain ⟨left, right, hsides⟩ := exists_addressSides h
    have hexpanded := hsides.isExpanded
    clear hsides
    generalize expandIpv6 (text.map Char.toLower) = groups at hexpanded
    have hlength : (groups.map (DigitText.padStart 4)).length = 8 := by
      rw [List.length_map, hexpanded.length_eq]
    have hne : groups.map (DigitText.padStart 4) ≠ [] := by
      intro hnil
      simp [hnil] at hlength
    have hparts : ∀ part ∈ groups.map (DigitText.padStart 4),
        (∀ c ∈ part, IsPartChar c) ∧ part.length ≤ 15 := by
      intro part hpart
      obtain ⟨group, hgroup, rfl⟩ := List.mem_map.mp hpart
      exact padStart_group (hexpanded.valid group hgroup)
    refine ⟨groups.map (DigitText.padStart 4), {
      join := Split.intercalate_append_sep hne
      chars := fun part hpart => (hparts part hpart).1
      size := ?_
      count := ?_ }⟩
    · rw [Split.intercalate_append_sep hne]
      refine le_trans (length_flatMap_le fun part hpart => (hparts part hpart).2) ?_
      rw [hlength]
    · rw [hlength]
      cases groups with
      | nil => exact absurd rfl hne
      | cons first =>
        have hgroup := hexpanded.head first rfl
        have hfour : (DigitText.padStart 4 first).length = 4 :=
          DigitText.length_padStart (of_decide_eq_true hgroup).2.1
        have hpoint : '.' ∉ DigitText.padStart 4 first := by
          intro hmem
          rcases List.mem_append.mp hmem with hzero | hdigit
          · exact absurd (List.eq_of_mem_replicate hzero) (by decide)
          · exact absurd (hexValue_of_isGroup hgroup hdigit) (by decide)
        rw [List.map_cons, List.headD_cons, partCount, if_pos ⟨rfl, hfour, hpoint⟩]

/-- A client that the runtime gives an address of, without a zone, or none at all. -/
def IsClientAddress (ip : List Char) : Prop :=
  trim ip = [] ∨ trim ip = unknownPrincipal ∨ (isIP (trim ip) ≠ 0 ∧ '%' ∉ trim ip)

theorem hasParts_unknown : HasParts .ip unknownPrincipal [unknownPrincipal] :=
  hasParts_singleton (List.all_iff_forall_prop.mp (by decide)) (by decide) (by decide)

theorem exists_hasParts_normaliseIp {ip : List Char} (h : IsClientAddress ip) :
    ∃ parts, HasParts .ip (normaliseIp ip) parts := by
  rw [normaliseIp]
  by_cases hempty : trim ip = []
  · rw [if_pos hempty]
    exact ⟨_, hasParts_unknown⟩
  · rw [if_neg hempty]
    rcases h with hnone | hunknown | ⟨haddress, hzone⟩
    · exact absurd hnone hempty
    · rw [hunknown]
      exact ⟨_, hasParts_unknown⟩
    · by_cases hv4 : isIPv4 (trim ip) = true
      · rw [if_pos (by rw [isIP, if_pos hv4])]
        exact ⟨_, hasParts_dotted (isIPv4_chars hv4)⟩
      · have hsix : isIP (trim ip) = 6 := by
          rw [isIP, if_neg hv4] at haddress ⊢
          exact if_pos (by_contra fun hnot => haddress (if_neg hnot))
        rw [if_neg (by rw [hsix]; decide), if_pos hsix]
        exact exists_hasParts_canonicalIpv6 (isIPv6Address_of_isIP hsix hzone)

/-! ## Routes -/

/-- The path between its outer slashes, empty when there is none. -/
def cleanedPath (path : Option (List Char)) : List Char :=
  ((path.getD []).dropWhile (· = '/')).rdropWhile (· = '/')

/-- A path whose segment of the key is its own: characters of one byte, and not spelled like the
aggregate or like the segment of a hashed path. -/
structure IsPlainPath (path : Option (List Char)) : Prop where
  oneByte : ∀ c ∈ cleanedPath path, c.toNat < 256
  notAggregate : cleanedPath path ≠ aggregateRoute
  notHashed : ¬ ("h_".toList <+: (cleanedPath path).flatMap encodeChar ∧
    ((cleanedPath path).flatMap encodeChar).length = 66)

/-- Two hexadecimal digits. -/
def hexPair (n : ℕ) : List Char :=
  List.replicate (2 - (Nat.toDigits 16 n).length) '0' ++ Nat.toDigits 16 n

theorem hexBytes_hexPair : ∀ n < 256, hexBytes (hexPair n) = [n] := by decide +kernel

theorem length_hexPair : ∀ n < 256, (hexPair n).length = 2 := by decide +kernel

theorem all_hexPair : ∀ n < 256, (hexPair n).all (fun c => (hexValue c).isSome) = true := by
  decide +kernel

theorem encodeChar_of_oneByte (hbyte : c.toNat < 256)
    (hc : isAsciiAlphanumeric c = false) : encodeChar c = '_' :: hexPair c.toNat := by
  have hunit : (codeUnits [c]).headD 0 = c.toNat := by
    rw [codeUnits, List.flatMap_cons, if_pos (by omega)]
    rfl
  rw [encodeChar, if_neg (by simp [hc]), hunit]
  rfl

theorem encodeChar_ne_nil (c : Char) : encodeChar c ≠ [] := by
  rw [encodeChar]
  split_ifs
  · exact List.cons_ne_nil _ _
  · exact List.cons_ne_nil _ _

theorem isAsciiAlphanumeric_underscore : isAsciiAlphanumeric '_' = false := by decide

theorem encodeChar_cut {d : Char} {rest rest' : List Char} (hc : c.toNat < 256) (hd : d.toNat < 256)
    (h : encodeChar c ++ rest = encodeChar d ++ rest') : c = d := by
  cases hplain : isAsciiAlphanumeric c with
  | true =>
    have hself : encodeChar c = [c] := if_pos hplain
    rw [hself] at h
    cases hplain' : isAsciiAlphanumeric d with
    | true =>
      have hself' : encodeChar d = [d] := if_pos hplain'
      rw [hself'] at h
      exact List.head_eq_of_cons_eq h
    | false =>
      rw [encodeChar_of_oneByte hd hplain'] at h
      rw [List.head_eq_of_cons_eq h, isAsciiAlphanumeric_underscore] at hplain
      cases hplain
  | false =>
    rw [encodeChar_of_oneByte hc hplain] at h
    cases hplain' : isAsciiAlphanumeric d with
    | true =>
      have hself' : encodeChar d = [d] := if_pos hplain'
      rw [hself'] at h
      rw [← List.head_eq_of_cons_eq h, isAsciiAlphanumeric_underscore] at hplain'
      cases hplain'
    | false =>
      rw [encodeChar_of_oneByte hd hplain'] at h
      have hpairs : hexPair c.toNat = hexPair d.toNat :=
        (List.append_inj (List.tail_eq_of_cons_eq h)
          ((length_hexPair _ hc).trans (length_hexPair _ hd).symm)).1
      have hbytes := congrArg hexBytes hpairs
      rw [hexBytes_hexPair _ hc, hexBytes_hexPair _ hd] at hbytes
      exact Char.toNat_inj.mp (List.head_eq_of_cons_eq hbytes)

theorem flatMap_encodeChar_inj {text' : List Char} (h : ∀ c ∈ text, c.toNat < 256)
    (h' : ∀ c ∈ text', c.toNat < 256) (heq : text.flatMap encodeChar = text'.flatMap encodeChar) :
    text = text' :=
  Split.flatMap_inj (fun c _ => encodeChar_ne_nil c)
    (fun _ _ _ _ hc hd hcut => encodeChar_cut hc hd hcut) h h' heq

section

variable {l : KeyedLimiter} {path path' : Option (List Char)}

theorem routeKeyFromPath_eq (l : Limiter) (path : Option (List Char)) :
    l.routeKeyFromPath path =
      if cleanedPath path = [] then aggregateRoute
      else if ((cleanedPath path).flatMap encodeChar).length ≤ maxRouteSegmentLength then
        (cleanedPath path).flatMap encodeChar
      else "h_".toList ++ (l.sha256Hex (cleanedPath path)).1 := by
  cases path with
  | none | some => rfl

theorem encoded_ne_aggregateRoute (h : IsPlainPath path) :
    (cleanedPath path).flatMap encodeChar ≠ aggregateRoute := by
  intro heq
  have hself : aggregateRoute.flatMap encodeChar = aggregateRoute := by decide
  have hbytes : ∀ c ∈ aggregateRoute, c.toNat < 256 := List.all_iff_forall_prop.mp (by decide)
  exact h.notAggregate (flatMap_encodeChar_inj h.oneByte hbytes (heq.trans hself.symm))

theorem length_hashed (digest : Digest) : ("h_".toList ++ digest.1).length = 66 := by
  rw [List.length_append, digest.2]
  rfl

theorem encoded_ne_hashed (h : IsPlainPath path) (digest : Digest) :
    (cleanedPath path).flatMap encodeChar ≠ "h_".toList ++ digest.1 := fun heq =>
  h.notHashed ⟨heq ▸ List.prefix_append _ _, heq ▸ length_hashed digest⟩

theorem hashed_ne_aggregateRoute (digest : Digest) : "h_".toList ++ digest.1 ≠ aggregateRoute := by
  intro heq
  have hlength := congrArg List.length heq
  rw [length_hashed] at hlength
  exact absurd hlength (by decide)

theorem routeKeyFromPath_eq_iff (h : IsPlainPath path) (h' : IsPlainPath path')
    (hsha : l.sha256Hex (cleanedPath path) = l.sha256Hex (cleanedPath path') →
      cleanedPath path = cleanedPath path') :
    l.routeKeyFromPath path = l.routeKeyFromPath path' ↔
      cleanedPath path = cleanedPath path' := by
  rw [routeKeyFromPath_eq, routeKeyFromPath_eq]
  refine ⟨fun heq => ?_, fun heq => by rw [heq]⟩
  split_ifs at heq with hempty hempty' hshort' hshort hempty' hshort' hempty' hshort'
  · rw [hempty, hempty']
  · exact absurd heq.symm (encoded_ne_aggregateRoute h')
  · exact absurd heq.symm (hashed_ne_aggregateRoute _)
  · exact absurd heq (encoded_ne_aggregateRoute h)
  · exact flatMap_encodeChar_inj h.oneByte h'.oneByte heq
  · exact absurd heq (encoded_ne_hashed h _)
  · exact absurd heq (hashed_ne_aggregateRoute _)
  · exact absurd heq.symm (encoded_ne_hashed h' _)
  · exact hsha (Subtype.ext (List.append_cancel_left heq))

theorem routeKeyFromPath_chars (h : IsPlainPath path) :
    ∀ c ∈ l.routeKeyFromPath path, isAsciiAlphanumeric c = true ∨ c = '_' := by
  intro c hc
  rw [routeKeyFromPath_eq] at hc
  split_ifs at hc with hempty hshort
  · have haggregate : ∀ c ∈ aggregateRoute, isAsciiAlphanumeric c = true :=
      List.all_eq_true.mp (by decide)
    exact Or.inl (haggregate c hc)
  · obtain ⟨original, horiginal, hencoded⟩ := List.mem_flatMap.mp hc
    have hbyte := h.oneByte original horiginal
    cases hplain : isAsciiAlphanumeric original with
    | true =>
      have hself : encodeChar original = [original] := if_pos hplain
      rw [hself] at hencoded
      exact Or.inl (List.mem_singleton.mp hencoded ▸ hplain)
    | false =>
      rw [encodeChar_of_oneByte hbyte hplain] at hencoded
      rcases List.mem_cons.mp hencoded with hmark | hdigit
      · exact Or.inr hmark
      · have hhex := List.all_eq_true.mp (all_hexPair _ hbyte) c hdigit
        exact Or.inl (isAsciiAlphanumeric_of_hexValue hhex)
  · rcases List.mem_append.mp hc with hmark | hdigit
    · have hmarks : ∀ c ∈ "h_".toList, isAsciiAlphanumeric c = true ∨ c = '_' :=
        List.all_iff_forall_prop.mp (by decide)
      exact hmarks c hmark
    · exact Or.inl (isAsciiAlphanumeric_of_hexValue (l.isHex _ c hdigit))

theorem colon_notMem_routeKeyFromPath (h : IsPlainPath path) :
    ':' ∉ l.routeKeyFromPath path := by
  intro hmem
  rcases routeKeyFromPath_chars h ':' hmem with hplain | hmark
  · exact absurd hplain (by decide)
  · exact absurd hmark (by decide)

end

/-! ## Keys and names -/

/-- Two sources that are meant to share a quota: one kind of principal, one client by its
address or one API key, and one path between its outer slashes. -/
structure SameQuota (a b : KeySource) : Prop where
  kind : a.kind = b.kind
  address : a.kind = .ip → clientAddress a.id = clientAddress b.id
  apiKey : a.kind ≠ .ip → a.id = b.id
  path : cleanedPath a.path = cleanedPath b.path

/-- A source with a plain path, and with a plain address if it is known by its address. -/
structure IsPlainSource (source : KeySource) : Prop where
  path : IsPlainPath source.path
  address : source.kind = .ip → IsPlainAddress source.id

/-- The digest tells the API keys and the paths of two sources apart. -/
structure DigestsApart (l : KeyedLimiter) (a b : KeySource) : Prop where
  ids : l.sha256Hex a.id = l.sha256Hex b.id → a.id = b.id
  paths : l.sha256Hex (cleanedPath a.path) = l.sha256Hex (cleanedPath b.path) →
    cleanedPath a.path = cleanedPath b.path

theorem text_injective : Function.Injective PrincipalType.text := by
  intro kind kind' h
  cases kind <;> cases kind' <;> first | rfl | exact absurd h (by decide)

theorem separator_notMem_text (kind : PrincipalType) : ':' ∉ kind.text ∧ '_' ∉ kind.text := by
  cases kind <;> decide

theorem text_chars (kind : PrincipalType) : ∀ c ∈ kind.text, isAsciiAlphanumeric c = true := by
  apply List.all_eq_true.mp
  cases kind <;> decide

section

variable {l : KeyedLimiter} {a b : KeySource}

theorem sameQuota_iff (hsha : DigestsApart l a b) (ha : IsPlainSource a)
    (hb : IsPlainSource b) :
    SameQuota a b ↔ a.kind = b.kind ∧ l.principalOf a = l.principalOf b ∧
      l.routeKeyFromPath a.path = l.routeKeyFromPath b.path := by
  rw [routeKeyFromPath_eq_iff ha.path hb.path hsha.paths]
  obtain ⟨kind, id, path⟩ := a
  obtain ⟨kind', id', path'⟩ := b
  apply Iff.intro
  · rintro ⟨hkind, haddress, hkey, hpath⟩
    cases hkind
    refine ⟨rfl, ?_, hpath⟩
    cases kind with
    | ip => exact (normaliseIp_eq_iff (ha.address rfl) (hb.address rfl)).mpr (haddress rfl)
    | apikey | admin => exact congrArg (fun id => (l.sha256Hex id).1) (hkey nofun)
  · rintro ⟨hkind, hprincipal, hpath⟩
    cases hkind
    refine ⟨rfl, ?_, ?_, hpath⟩
    · intro hip
      cases hip
      exact (normaliseIp_eq_iff (ha.address rfl) (hb.address rfl)).mp hprincipal
    · intro hkey
      cases kind with
      | ip => exact absurd rfl hkey
      | apikey | admin => exact hsha.ids (Subtype.ext hprincipal)

theorem storeKey_eq_iff (ha : IsPlainPath a.path) (hb : IsPlainPath b.path) :
    l.storeKey a = l.storeKey b ↔ a.kind = b.kind ∧ l.principalOf a = l.principalOf b ∧
      l.routeKeyFromPath a.path = l.routeKeyFromPath b.path := by
  apply Iff.intro
  · intro h
    rw [KeyedLimiter.storeKey, KeyedLimiter.storeKey, List.append_cancel_left_eq] at h
    obtain ⟨htext, hrest⟩ := Split.split_first_inj (separator_notMem_text _).1
      (separator_notMem_text _).1 h
    obtain ⟨hprincipal, hroutes⟩ := append_separator_inj (colon_notMem_routeKeyFromPath ha)
      (colon_notMem_routeKeyFromPath hb) hrest
    exact ⟨text_injective htext, hprincipal, hroutes⟩
  · rintro ⟨hkind, hprincipal, hroute⟩
    rw [KeyedLimiter.storeKey, KeyedLimiter.storeKey, hkind, hprincipal, hroute]

end

/-! ## Names in Redis -/

/-- What the store in Redis makes of a character of a key. -/
def sanitiseChar (c : Char) : Char := if c = ':' then '_' else c

/-- A character that keys of addresses and of digests are made of. -/
def IsKeyChar (c : Char) : Prop := IsPartChar c ∨ c = '_' ∨ c = ':'

theorem toNat_of_isKeyChar (h : IsKeyChar c) :
    c.toNat < 0x10000 ∧ (c ≠ ':' → isKeySegmentUnit c.toNat = true) := by
  have hpoint : '.'.toNat = 46 := rfl
  have hmark : '_'.toNat = 95 := rfl
  rcases h with (hplain | rfl) | rfl | rfl
  · simp only [isAsciiAlphanumeric, Char.isDigit, isUpper_iff, isLower_iff, Bool.or_eq_true,
      Bool.and_eq_true, decide_eq_true_eq, ge_iff_le, UInt32.le_iff_toNat_le] at hplain
    change (48 ≤ c.toNat ∧ c.toNat ≤ 57 ∨ 65 ≤ c.toNat ∧ c.toNat ≤ 90) ∨
      97 ≤ c.toNat ∧ c.toNat ≤ 122 at hplain
    refine ⟨by omega, fun _ => ?_⟩
    simp only [isKeySegmentUnit, Bool.or_eq_true, Bool.and_eq_true, decide_eq_true_eq]
    omega
  · decide
  · decide
  · decide

theorem ofNat_of_isKeyChar (h : IsKeyChar c) :
    (if isKeySegmentUnit c.toNat then Char.ofNat c.toNat else '_') = sanitiseChar c := by
  by_cases hcolon : c = ':'
  · rw [hcolon]
    rfl
  · rw [if_pos ((toNat_of_isKeyChar h).2 hcolon), Char.ofNat_toNat, sanitiseChar, if_neg hcolon]

theorem sanitiseIdentifier_eq_map (hchars : ∀ c ∈ text, IsKeyChar c) (hlength : text.length ≤ 256)
    (hne : text ≠ []) : sanitiseIdentifier text = text.map sanitiseChar := by
  have hunits : codeUnits text = text.map Char.toNat := by
    rw [codeUnits, List.map_eq_flatMap]
    exact List.flatMap_congr fun c hc => if_pos (toNat_of_isKeyChar (hchars c hc)).1
  have hsanitised : (codeUnits text).map
      (fun unit => if isKeySegmentUnit unit then Char.ofNat unit else '_') =
        text.map sanitiseChar := by
    rw [hunits, List.map_map]
    exact List.map_congr_left fun c hc => ofNat_of_isKeyChar (hchars c hc)
  rw [sanitiseIdentifier, hsanitised, List.take_of_length_le (by simpa using hlength),
    if_neg (by simpa using hne)]

/-- The source is a client with an address, if it is a client by its address. -/
def HasAddress (source : KeySource) : Prop := source.kind = .ip → IsClientAddress source.id

section

variable {l : KeyedLimiter} {a b : KeySource} {parts : List (List Char)}

theorem exists_hasParts (h : HasAddress a) : ∃ parts, HasParts a.kind (l.principalOf a) parts := by
  obtain ⟨kind, id, path⟩ := a
  have hdigest : ∀ kind : PrincipalType, kind ≠ .ip →
      HasParts kind (l.sha256Hex id).1 [(l.sha256Hex id).1] := by
    intro kind hkind
    apply hasParts_singleton
    · exact fun c hc => Or.inl (isAsciiAlphanumeric_of_hexValue (l.isHex id c hc))
    · rw [(l.sha256Hex id).2]
      decide
    · rw [partCount, if_neg fun hip => hkind hip.1]
  cases kind with
  | ip => exact exists_hasParts_normaliseIp (h rfl)
  | apikey => exact ⟨_, hdigest .apikey nofun⟩
  | admin => exact ⟨_, hdigest .admin nofun⟩

theorem map_sanitiseChar (h : ':' ∉ text) : text.map sanitiseChar = text :=
  (List.map_congr_left fun c hc => if_neg fun heq : c = ':' => h (heq ▸ hc)).trans
    (List.map_id text)

theorem ne_of_isPartChar {c : Char} (h : IsPartChar c) : c ≠ ':' ∧ c ≠ '_' := by
  apply And.intro
  · rintro rfl
    exact absurd h (by decide)
  · rintro rfl
    exact absurd h (by decide)

theorem map_sanitiseChar_parts (h : ∀ part ∈ parts, ∀ c ∈ part, IsPartChar c) :
    (parts.flatMap (· ++ [':'])).map sanitiseChar = parts.flatMap (· ++ ['_']) := by
  rw [List.map_flatMap]
  apply List.flatMap_congr
  intro part hpart
  rw [List.map_append, map_sanitiseChar fun hmem => (ne_of_isPartChar (h part hpart _ hmem)).1 rfl]
  rfl

theorem storeKey_eq (hparts : HasParts a.kind (l.principalOf a) parts) :
    l.storeKey a = "v1:".toList ++ (a.kind.text ++ ':' ::
      (parts.flatMap (· ++ [':']) ++ l.routeKeyFromPath a.path)) := by
  rw [← hparts.join, KeyedLimiter.storeKey, List.append_assoc]
  rfl

theorem redisKey_eq (hparts : HasParts a.kind (l.principalOf a) parts)
    (hplain : IsPlainPath a.path) :
    l.redisKey a = keyPrefix ++ ("v1_".toList ++ (a.kind.text ++ '_' ::
      (parts.flatMap (· ++ ['_']) ++ l.routeKeyFromPath a.path))) := by
  have hroute := routeKeyFromPath_chars (l := l) hplain
  have hversion : ∀ c ∈ "v1:".toList, IsPartChar c ∨ c = ':' :=
    List.all_iff_forall_prop.mp (by decide)
  have hchars : ∀ c ∈ l.storeKey a, IsKeyChar c := by
    intro c hc
    rw [storeKey_eq hparts] at hc
    rcases List.mem_append.mp hc with hc | hc
    · exact (hversion c hc).imp id Or.inr
    rcases List.mem_append.mp hc with hc | hc
    · exact Or.inl (Or.inl (text_chars a.kind c hc))
    rcases List.mem_cons.mp hc with hc | hc
    · exact Or.inr (Or.inr hc)
    rcases List.mem_append.mp hc with hc | hc
    · obtain ⟨part, hpart, hmem⟩ := List.mem_flatMap.mp hc
      rcases List.mem_append.mp hmem with hmem | hcolon
      · exact Or.inl (hparts.chars part hpart c hmem)
      · exact Or.inr (Or.inr (List.mem_singleton.mp hcolon))
    · exact (hroute c hc).imp Or.inl Or.inl
  have hlength : (l.storeKey a).length ≤ 256 := by
    have hkind : a.kind.text.length ≤ 6 := by cases a.kind <;> decide
    have hversionLength : "v1:".toList.length = 3 := rfl
    have hsegment : (l.routeKeyFromPath a.path).length ≤ 96 :=
      Limiter.length_routeKeyFromPath_le a.path
    have hsize := hparts.size
    rw [hparts.join] at hsize
    rw [storeKey_eq hparts]
    simp only [List.length_append, List.length_cons] at hversionLength ⊢
    omega
  have hne : l.storeKey a ≠ [] := by
    rw [KeyedLimiter.storeKey]
    exact List.cons_ne_nil _ _
  rw [KeyedLimiter.redisKey, SlidingWindowStore.buildKey,
    sanitiseIdentifier_eq_map hchars hlength hne, storeKey_eq hparts]
  simp only [List.map_append, List.map_cons, map_sanitiseChar_parts hparts.chars,
    map_sanitiseChar (separator_notMem_text _).1,
    map_sanitiseChar (colon_notMem_routeKeyFromPath hplain)]
  rfl

theorem length_eq_of_joined {kind : PrincipalType} {principal principal' : List Char}
    {parts' : List (List Char)} {rest rest' : List Char} (h : HasParts kind principal parts)
    (h' : HasParts kind principal' parts')
    (hjoined : parts.flatMap (· ++ ['_']) ++ rest = parts'.flatMap (· ++ ['_']) ++ rest') :
    parts.length = parts'.length := by
  have hpositive : ∀ first, 0 < partCount kind first := by
    intro first
    rw [partCount]
    split_ifs <;> decide
  have hmark : ∀ {principal : List Char} {first : List Char} {others : List (List Char)},
      HasParts kind principal (first :: others) → '_' ∉ first := fun hfirst hmem =>
    (ne_of_isPartChar (hfirst.chars _ List.mem_cons_self _ hmem)).2 rfl
  cases parts with
  | nil => exact absurd h.count (hpositive _).ne
  | cons =>
    cases parts' with
    | nil => exact absurd h'.count (hpositive _).ne
    | cons =>
      simp only [List.flatMap_cons, List.append_assoc, List.singleton_append] at hjoined
      obtain ⟨rfl, _⟩ := Split.split_first_inj (hmark h) (hmark h') hjoined
      rw [h.count, h'.count]
      rfl

theorem redisKey_eq_iff (ha : IsPlainPath a.path) (hb : IsPlainPath b.path)
    (haddress : HasAddress a) (haddress' : HasAddress b) :
    l.redisKey a = l.redisKey b ↔ a.kind = b.kind ∧ l.principalOf a = l.principalOf b ∧
      l.routeKeyFromPath a.path = l.routeKeyFromPath b.path := by
  obtain ⟨parts, hparts⟩ := exists_hasParts (l := l) haddress
  obtain ⟨parts', hparts'⟩ := exists_hasParts (l := l) haddress'
  apply Iff.intro
  · intro h
    rw [redisKey_eq hparts ha, redisKey_eq hparts' hb, List.append_cancel_left_eq,
      List.append_cancel_left_eq] at h
    obtain ⟨htext, hrest⟩ := Split.split_first_inj (separator_notMem_text _).2
      (separator_notMem_text _).2 h
    have hkind := text_injective htext
    have hlength : parts.length = parts'.length :=
      length_eq_of_joined (hkind ▸ hparts) hparts' hrest
    obtain ⟨rfl, hroute⟩ := Split.parts_inj hlength
      (fun part hpart hmem => (ne_of_isPartChar (hparts.chars part hpart _ hmem)).2 rfl)
      (fun part hpart hmem => (ne_of_isPartChar (hparts'.chars part hpart _ hmem)).2 rfl) hrest
    have hprincipal : l.principalOf a ++ [':'] = l.principalOf b ++ [':'] := by
      rw [hparts.join, hparts'.join]
    exact ⟨hkind, List.append_cancel_right hprincipal, hroute⟩
  · rintro ⟨hkind, hprincipal, hroute⟩
    rw [KeyedLimiter.redisKey, KeyedLimiter.redisKey,
      (storeKey_eq_iff ha hb).mpr ⟨hkind, hprincipal, hroute⟩]

/-- Two plain sources have one key exactly when they are meant to share a quota, and so have
the names of their keys in Redis where the clients have addresses. -/
theorem keys_eq_iff_sameQuota (hsha : DigestsApart l a b) (ha : IsPlainSource a)
    (hb : IsPlainSource b) :
    (l.storeKey a = l.storeKey b ↔ SameQuota a b) ∧
      (HasAddress a → HasAddress b → (l.redisKey a = l.redisKey b ↔ SameQuota a b)) := by
  rw [sameQuota_iff hsha ha hb]
  exact ⟨storeKey_eq_iff ha.path hb.path, redisKey_eq_iff ha.path hb.path⟩

end

/-! ## An example -/

/-- The digests of the texts of the example. -/
def exampleDigest (text : List Char) : Digest :=
  if text = "2001:db8::1".toList then
    ⟨"5afd19e856d1c18d17d600dfd2b5f534992333985e126c2a951047102c1ed536".toList, rfl⟩
  else if text = "2001:0DB8:0:0:0:0:0:1".toList then
    ⟨"1442e0818fe28ffff1ad46ff9ce3408cd58cf4bc2490a8561d81d1f360e0c529".toList, rfl⟩
  else if text = "api/streams".toList then
    ⟨"00ffa73867920fe1c876d3020c5877e6b5eb18fbd7ba6cd860f20dc00c0a70bf".toList, rfl⟩
  else if text = List.replicate 100 'a' then
    ⟨"2816597888e4a0d3a36b82b83316ab32680eb8f00f8cd3b904d681246d285a0e".toList, rfl⟩
  else ⟨List.replicate 64 '0', rfl⟩

def exampleLimiter : KeyedLimiter where
  ip := ⟨100, 60000, true⟩
  apiKey := ⟨1000, 60000, true⟩
  admin := ⟨10000, 60000, true⟩
  adminKeys := []
  allowlistIps := []
  sha256Hex := exampleDigest
  normaliseIp := normaliseIp
  normaliseIp_eq := rfl
  isHex := by
    intro text
    apply List.all_eq_true.mp
    simp only [exampleDigest]
    split_ifs <;> decide

/-- A client by its address, in two spellings of the address and of the path. -/
def exampleShort : KeySource := ⟨.ip, "2001:db8::1".toList, some "/api/streams".toList⟩

def exampleLong : KeySource :=
  ⟨.ip, "2001:0DB8:0:0:0:0:0:1".toList, some "/api/streams/".toList⟩

def exampleSource (ip : String) (path : Option String) : KeySource :=
  ⟨.ip, ip.toList, path.map String.toList⟩

theorem examplePath_plain {path : Option (List Char)}
    (h : cleanedPath path = "api/streams".toList) : IsPlainPath path where
  oneByte := by
    rw [h]
    exact List.all_iff_forall_prop.mp (by decide)
  notAggregate := by
    rw [h]
    decide
  notHashed := by
    rw [h]
    decide

/-- The two spellings have one key and one name. -/
theorem exampleSpellings_keys :
    exampleLimiter.storeKey exampleShort = exampleLimiter.storeKey exampleLong ∧
      exampleLimiter.redisKey exampleShort = exampleLimiter.redisKey exampleLong := by
  have hpath : cleanedPath exampleShort.path = "api/streams".toList := by decide
  have hpath' : cleanedPath exampleLong.path = "api/streams".toList := by decide
  have hkeys := keys_eq_iff_sameQuota (l := exampleLimiter) (a := exampleShort) (b := exampleLong)
    ⟨fun h => absurd h (by decide), fun _ => hpath.trans hpath'.symm⟩
    ⟨examplePath_plain hpath, fun _ => ⟨fun _ => by decide, fun _ _ => by decide⟩⟩
    ⟨examplePath_plain hpath', fun _ => ⟨fun _ => by decide, fun _ _ => by decide⟩⟩
  have hquota : SameQuota exampleShort exampleLong :=
    ⟨rfl, fun _ => by decide, fun h => absurd rfl h, hpath.trans hpath'.symm⟩
  have haddress : HasAddress exampleShort := fun _ => Or.inr (Or.inr (by decide))
  have haddress' : HasAddress exampleLong := fun _ => Or.inr (Or.inr (by decide))
  exact ⟨hkeys.1.mpr hquota, (hkeys.2 haddress haddress').mpr hquota⟩

/-- Sources that differ have one key: by design where the address or the path is only spelled in
another way, and otherwise where a path reads like the aggregate or a hashed route or has wide
characters, where an address ends in an IPv4 address or has a zone, and where a name in Redis is
of a client without an address. -/
theorem exampleSources_sharedKeys :
    (∀ pair ∈ [
        (exampleSource "::ffff:10.0.0.1" none, exampleSource "10.0.0.1" none),
        (exampleSource "10.0.0.1" (some "/"), exampleSource "10.0.0.1" none),
        (exampleSource "10.0.0.1" (some "/api/"), exampleSource "10.0.0.1" (some "/api")),
        (exampleSource "10.0.0.1" (some "/global"), exampleSource "10.0.0.1" none),
        (exampleSource "10.0.0.1" (some
            "/h(16597888e4a0d3a36b82b83316ab32680eb8f00f8cd3b904d681246d285a0e"),
          ⟨.ip, "10.0.0.1".toList, some (List.replicate 100 'a')⟩),
        (exampleSource "10.0.0.1" (some "/\u0101"), exampleSource "10.0.0.1" (some "/\x101")),
        (exampleSource "a::b:0:0:c:1.2.3.4" none, exampleSource "a:0:0:b::c:1.2.3.4" none),
        (exampleSource "fe80::1%eth0" none, exampleSource "fe80::1%ETH0" none)],
      pair.1 ≠ pair.2 ∧ exampleLimiter.storeKey pair.1 = exampleLimiter.storeKey pair.2) ∧
    exampleSource "a:b" none ≠ exampleSource "a_b" none ∧
      exampleLimiter.redisKey (exampleSource "a:b" none) =
        exampleLimiter.redisKey (exampleSource "a_b" none) := by
  decide +kernel

end Fluxora.RateLimit
