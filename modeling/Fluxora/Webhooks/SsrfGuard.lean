/-
# The guard of webhook targets

`validateWebhookTarget` accepts a URL when it is an https URL of an allowed host that is, or
resolves to, an address outside the blocked ranges. An address is read into a number and looked
up in the ranges; what cannot be read is blocked. Parsing of URLs and name resolution are the
runtime's.
-/

import Fluxora.Lib.IpAddress
import Fluxora.Lib.Fallible

namespace Fluxora.Webhooks

open Fluxora.Lib JsText Fallible IpAddress

/-! ## Addresses as numbers -/

/-- What the runtime knows when a target is checked. -/
structure GuardEnv where
  /-- The protocol and the host name of `new URL(text)`. -/
  parseUrl : String → Option (String × String)
  dnsLookup : String → Option String
  toLowerCase : List Char → List Char

def ipv4Octets (result : ℕ) : List ℤ → Except String ℕ
  | [] => .ok result
  | part :: rest =>
    if part < 0 ∨ 255 < part then .error ("Invalid IPv4 octet: " ++ toString part)
    else ipv4Octets (result * 256 + part.toNat) rest

def ipv4ToBigInt (ip : List Char) : Except String ℕ :=
  match (ip.splitOn '.').mapM parseInt with
  | some parts =>
    if parts.length = 4 then ipv4Octets 0 parts
    else .error ("Invalid IPv4 address: " ++ String.ofList ip)
  | none => .error ("Invalid IPv4 address: " ++ String.ofList ip)

/-- Without the brackets around the address of a URL. -/
def stripBrackets (text : List Char) : List Char :=
  let opened :=
    match text with
    | '[' :: rest => rest
    | text => text
  if opened.getLast? = some ']' then opened.dropLast else opened

/-- An IPv4 address after the last colon, and what is before it. -/
def embeddedIPv4 (text : List Char) : Option (List Char × List Char) :=
  let front := text.rdropWhile (· ≠ ':')
  let tail := text.rtakeWhile (· ≠ ':')
  let groups := tail.splitOn '.'
  let isLineEnd := fun c : Char => [0xA, 0xD, 0x2028, 0x2029].contains c.toNat
  if front ≠ [] ∧ front.any isLineEnd = false ∧ groups.length = 4 ∧
      groups.all (fun digits => digits ≠ [] && digits.all Char.isDigit) then
    some (front, tail)
  else none

/-- The sections of an address, the zeros that two colons stand for among them. -/
def ipv6Sections (ip normalized : List Char) : Except String (List (List Char)) :=
  match splitDoubleColon normalized with
  | [whole] => .ok (colonGroups whole)
  | [left, right] =>
    let left := colonGroups left
    let right := colonGroups right
    if left.length + right.length ≤ 8 then
      .ok (left ++ List.replicate (8 - left.length - right.length) ['0'] ++ right)
    else .error "Invalid array length"
  | _ => .error ("Invalid IPv6 address: " ++ String.ofList ip)

/-- A section of one to four hexadecimal digits. -/
def sectionValue (digits : List Char) : Option ℕ :=
  if 1 ≤ digits.length ∧ digits.length ≤ 4 then
    (digits.mapM hexValue).map (·.foldl (fun value digit => value * 16 + digit) 0)
  else none

def ipv6ToBigInt (toLowerCase : List Char → List Char) (ip : List Char) : Except String ℕ := do
  let lowered := toLowerCase (stripBrackets ip)
  let normalized ←
    match embeddedIPv4 lowered with
    | some (front, tail) =>
      (ipv4ToBigInt tail).map fun v4 =>
        front ++ Nat.toDigits 16 (v4 / 65536) ++ ':' :: Nat.toDigits 16 (v4 % 65536)
    | none => .ok lowered
  let sections ← ipv6Sections ip normalized
  match sections.mapM sectionValue with
  | some values =>
    if values.length = 8 then .ok (values.foldl (fun result value => result * 65536 + value) 0)
    else .error ("Invalid IPv6 address: " ++ String.ofList ip)
  | none => .error ("Invalid IPv6 address: " ++ String.ofList ip)

/-! ## Blocked addresses -/

structure IPRange where
  name : String
  start : ℕ
  stop : ℕ
  description : String

/-- The number of an address by its octets. -/
def octets (a b c d : ℕ) : ℕ := ((a * 256 + b) * 256 + c) * 256 + d

def blockedRanges : List IPRange :=
  [⟨"loopback", octets 127 0 0 0, octets 127 255 255 255, "Loopback addresses (127.0.0.0/8)"⟩,
    ⟨"link-local", octets 169 254 0 0, octets 169 254 255 255,
      "Link-local addresses (169.254.0.0/16)"⟩,
    ⟨"private-10", octets 10 0 0 0, octets 10 255 255 255, "Private network (10.0.0.0/8)"⟩,
    ⟨"private-172", octets 172 16 0 0, octets 172 31 255 255, "Private network (172.16.0.0/12)"⟩,
    ⟨"private-192", octets 192 168 0 0, octets 192 168 255 255,
      "Private network (192.168.0.0/16)"⟩,
    ⟨"reserved-0", octets 0 0 0 0, octets 0 255 255 255, "Reserved addresses (0.0.0.0/8)"⟩,
    ⟨"reserved-240", octets 240 0 0 0, octets 255 255 255 255,
      "Reserved addresses (240.0.0.0/4)"⟩,
    ⟨"multicast", octets 224 0 0 0, octets 239 255 255 255,
      "Multicast addresses (224.0.0.0/4)"⟩]

/-- The range that an IPv4 address by its number is blocked in. -/
def blockedRange (address : ℕ) : Option IPRange :=
  blockedRanges.find? fun range => range.start ≤ address ∧ address ≤ range.stop

/-- The reason that an IPv4 address is blocked for. -/
def isBlockedIPv4 (ip : List Char) : Option String :=
  match ipv4ToBigInt ip with
  | .ok address => (blockedRange address).map (·.description)
  | .error _ => some "Unparseable IPv4 address"

/-- The dotted text of the IPv4 address that an IPv6 address is mapped from. -/
def mappedIPv4 (value : ℕ) : List Char :=
  List.intercalate ['.']
    ([24, 16, 8, 0].map fun shift => Nat.toDigits 10 (value / 2 ^ shift % 256))

/-- The reason that an IPv6 address is blocked for. -/
def isBlockedIPv6 (toLowerCase : List Char → List Char) (ip : List Char) : Option String :=
  match ipv6ToBigInt toLowerCase ip with
  | .ok value =>
    if value = 0 then some "IPv6 unspecified address"
    else if value = 1 then some "IPv6 loopback address"
    else if value / 2 ^ 32 = 0xFFFF then isBlockedIPv4 (mappedIPv4 value)
    else if value / 2 ^ 118 = 0x3FA then some "IPv6 link-local address"
    else if value / 2 ^ 121 = 0x7E then some "IPv6 unique local address (private)"
    else none
  | .error _ => some "Unparseable IPv6 address"

/-! ## The checks -/

def maxWebhookUrlLength : ℕ := 2048

def maxIpAddressLength : ℕ := 256

def validateProtocol (protocol : String) (requireHttps : Bool) : Except String Unit :=
  if requireHttps ∧ protocol ≠ "https:" then
    .error ("Webhook URL must use HTTPS, got: " ++ protocol)
  else if protocol ≠ "http:" ∧ protocol ≠ "https:" then
    .error ("Webhook URL must use HTTP or HTTPS, got: " ++ protocol)
  else .ok ()

/-- Whether a host is the one of an entry of the allowlist, or below its domain. -/
def isAllowedBy (normalizedHostname normalizedAllowed : List Char) : Bool :=
  normalizedAllowed = normalizedHostname ||
    (['*', '.'].isPrefixOf normalizedAllowed &&
      (normalizedHostname = normalizedAllowed.drop 2 ||
        ('.' :: normalizedAllowed.drop 2).isSuffixOf normalizedHostname))

section

variable (env : GuardEnv)

/-- Go through the entries up to the first that allows the host. -/
def searchAllowlist (hostname : String) : List String → Except String Unit
  | [] => .error ("Webhook hostname not in allowlist: " ++ hostname)
  | allowed :: rest =>
    if trim allowed.toList = [] then .error "Allowlist entries must be non-empty strings"
    else if isAllowedBy (env.toLowerCase hostname.toList) (env.toLowerCase allowed.toList) then
      .ok ()
    else searchAllowlist hostname rest

def validateAllowlist (hostname : String) (allowlist : Option (List String)) :
    Except String Unit :=
  match allowlist with
  | none | some [] => .ok ()
  | some entries => searchAllowlist env hostname entries

def validateWebhookIPAddress (ip : String) : Except String Unit :=
  let trimmedIp := trim ip.toList
  if trimmedIp = [] then .error "IP address cannot be empty"
  else if maxIpAddressLength < (codeUnits ip.toList).length then
    .error ("IP address exceeds maximum length of " ++ toString maxIpAddressLength ++ " characters")
  else
    let normalizedIp := stripBrackets trimmedIp
    let address := String.ofList normalizedIp
    if isIP normalizedIp = 6 then
      match isBlockedIPv6 env.toLowerCase normalizedIp with
      | some reason => .error ("Blocked IPv6 address: " ++ address ++ " (" ++ reason ++ ")")
      | none => .ok ()
    else if isIP normalizedIp = 4 then
      match isBlockedIPv4 normalizedIp with
      | some reason => .error ("Blocked IPv4 address: " ++ address ++ " (" ++ reason ++ ")")
      | none => .ok ()
    else .error ("Unparseable IP address: " ++ ip)

def resolveHostname (hostname : String) : Except String (List String) :=
  match env.dnsLookup hostname with
  | some address => .ok [address]
  | none => .error ("DNS resolution failed for hostname: " ++ hostname)

/-- The addresses that a host is checked by: its own, or those that it resolves to. -/
def targetAddresses (hostname : String) : Except String (List String) :=
  if isIP (stripBrackets hostname.toList) ≠ 0 then .ok [hostname]
  else resolveHostname env hostname

/-- The protocol and the host name of a URL. -/
def parseTarget (url : String) : Except String (String × String) :=
  match env.parseUrl (String.ofList (trim url.toList)) with
  | some parsedUrl => .ok parsedUrl
  | none => .error ("Invalid webhook URL format: " ++ url)

/-- The target of a webhook, which has to be an https URL unless the caller says otherwise. -/
def validateWebhookTarget (requireHttps : Bool) (allowlist : Option (List String))
    (url : String) : Except String Unit := do
  refuseIf (trim url.toList = []) "Webhook URL cannot be empty"
  refuseIf (maxWebhookUrlLength < (codeUnits url.toList).length)
    ("Webhook URL exceeds maximum length of " ++ toString maxWebhookUrlLength ++ " characters")
  let (protocol, hostname) ← parseTarget env url
  validateProtocol protocol requireHttps
  refuseIf (trim hostname.toList = []) "Webhook URL must include a valid hostname"
  validateAllowlist env hostname allowlist
  let addresses ← targetAddresses env hostname
  addresses.forM (validateWebhookIPAddress env)

end

/-! ## What an accepted target is -/

/-- An IPv4 address outside the blocked ranges. -/
def IsPublicIPv4 (address : ℕ) : Prop :=
  ∀ range ∈ blockedRanges, ¬ (range.start ≤ address ∧ address ≤ range.stop)

/-- An IPv6 address that is not blocked, nor is the IPv4 address it is mapped from. -/
structure IsPublicIPv6 (value : ℕ) : Prop where
  not_unspecified : value ≠ 0
  not_loopback : value ≠ 1
  mapped : value / 2 ^ 32 = 0xFFFF → IsPublicIPv4 (value % 2 ^ 32)
  not_linkLocal : value / 2 ^ 118 ≠ 0x3FA
  not_uniqueLocal : value / 2 ^ 121 ≠ 0x7E

/-- A text that is an address and a public one. -/
def IsPublic (env : GuardEnv) (ip : String) : Prop :=
  let text := stripBrackets (trim ip.toList)
  (isIP text = 4 ∧
      ∃ value, ipv4ToBigInt text = .ok value ∧ IsPublicIPv4 value) ∨
    (isIP text = 6 ∧
      ∃ value, ipv6ToBigInt env.toLowerCase text = .ok value ∧ IsPublicIPv6 value)

theorem blockedRange_eq_none_iff {address : ℕ} :
    blockedRange address = none ↔ IsPublicIPv4 address := by
  rw [blockedRange, List.find?_eq_none, IsPublicIPv4]
  simp

theorem isBlockedIPv4_eq_none_iff {ip : List Char} :
    isBlockedIPv4 ip = none ↔ ∃ value, ipv4ToBigInt ip = .ok value ∧ IsPublicIPv4 value := by
  rw [isBlockedIPv4]
  cases ipv4ToBigInt ip with
  | error => simp
  | ok => simp [blockedRange_eq_none_iff]

theorem ipv4Octets_octets {a b c d : ℕ} (ha : a < 256) (hb : b < 256) (hc : c < 256)
    (hd : d < 256) : ipv4Octets 0 [(a : ℤ), b, c, d] = .ok (octets a b c d) := by
  have hstep : ∀ {n : ℕ} (result : ℕ) (rest : List ℤ), n < 256 →
      ipv4Octets result ((n : ℤ) :: rest) = ipv4Octets (result * 256 + n) rest := by
    intro n result rest hn
    rw [ipv4Octets, if_neg (by omega), Int.toNat_natCast]
  rw [hstep 0 _ ha, hstep _ _ hb, hstep _ _ hc, hstep _ _ hd, ipv4Octets, octets, Nat.zero_mul,
    Nat.zero_add]

theorem ipv4ToBigInt_mappedIPv4 (value : ℕ) :
    ipv4ToBigInt (mappedIPv4 value) = .ok (value % 2 ^ 32) := by
  have hdot : ∀ digits ∈ [24, 16, 8, 0].map (fun shift =>
      Nat.toDigits 10 (value / 2 ^ shift % 256)), '.' ∉ digits := by
    intro digits hdigits hmem
    obtain ⟨shift, _, rfl⟩ := List.mem_map.mp hdigits
    exact absurd (DigitText.isDigits_toDigits _ _ hmem) (by decide)
  rw [ipv4ToBigInt, mappedIPv4, List.splitOn_intercalate _ hdot (by simp)]
  have hparts : (([24, 16, 8, 0].map fun shift =>
      Nat.toDigits 10 (value / 2 ^ shift % 256)).mapM parseInt) =
        some ([24, 16, 8, 0].map fun shift => ((value / 2 ^ shift % 256 : ℕ) : ℤ)) := by
    simp [parseInt_toDigits]
  rw [hparts]
  refine (if_pos rfl).trans ?_
  refine (ipv4Octets_octets (Nat.mod_lt _ (by decide)) (Nat.mod_lt _ (by decide))
    (Nat.mod_lt _ (by decide)) (Nat.mod_lt _ (by decide))).trans ?_
  rw [octets]
  congr 1
  omega

theorem isBlockedIPv6_eq_none_iff {toLowerCase : List Char → List Char} {ip : List Char} :
    isBlockedIPv6 toLowerCase ip = none ↔
      ∃ value, ipv6ToBigInt toLowerCase ip = .ok value ∧ IsPublicIPv6 value := by
  rw [isBlockedIPv6]
  cases ipv6ToBigInt toLowerCase ip with
  | error => simp
  | ok value =>
    have hmapped : isBlockedIPv4 (mappedIPv4 value) = none ↔ IsPublicIPv4 (value % 2 ^ 32) := by
      rw [isBlockedIPv4_eq_none_iff, ipv4ToBigInt_mappedIPv4]
      simp
    simp only [Except.ok.injEq, exists_eq_left']
    split_ifs with hzero hone hmap hlink hlocal
    · exact ⟨nofun, fun h => absurd hzero h.not_unspecified⟩
    · exact ⟨nofun, fun h => absurd hone h.not_loopback⟩
    · rw [hmapped]
      -- A mapped address is far below the blocked prefixes.
      exact ⟨fun h => ⟨hzero, hone, fun _ => h, by omega, by omega⟩, fun h => h.mapped hmap⟩
    · exact ⟨nofun, fun h => absurd hlink h.not_linkLocal⟩
    · exact ⟨nofun, fun h => absurd hlocal h.not_uniqueLocal⟩
    · exact ⟨fun _ => ⟨hzero, hone, fun h => absurd h hmap, hlink, hlocal⟩, fun _ => rfl⟩

theorem validateWebhookIPAddress_eq_ok_iff {env : GuardEnv} {ip : String} :
    validateWebhookIPAddress env ip = .ok () ↔
      trim ip.toList ≠ [] ∧ (codeUnits ip.toList).length ≤ maxIpAddressLength ∧
        IsPublic env ip := by
  rw [validateWebhookIPAddress, IsPublic]
  dsimp only
  rw [← isBlockedIPv4_eq_none_iff, ← isBlockedIPv6_eq_none_iff]
  generalize stripBrackets (trim ip.toList) = text
  by_cases hempty : trim ip.toList = []
  · simp [hempty]
  · by_cases hlong : maxIpAddressLength < (codeUnits ip.toList).length
    · simp [hempty, hlong]
    · rw [if_neg hempty, if_neg hlong]
      by_cases hsix : isIP text = 6
      · rw [if_pos hsix]
        cases isBlockedIPv6 env.toLowerCase text <;> simp [hempty, not_lt.mp hlong, hsix]
      · rw [if_neg hsix]
        by_cases hfour : isIP text = 4
        · rw [if_pos hfour]
          cases isBlockedIPv4 text <;> simp [hempty, not_lt.mp hlong, hfour]
        · simp [hsix, hfour]

/-- What has been checked of a URL: it is an https URL of an allowed host, and the addresses
that the host was checked by are public. -/
def IsGuarded (env : GuardEnv) (allowlist : Option (List String)) (url : String) : Prop :=
  ∃ hostname, env.parseUrl (String.ofList (trim url.toList)) = some ("https:", hostname) ∧
    validateAllowlist env hostname allowlist = .ok () ∧
    ∃ addresses, targetAddresses env hostname = .ok addresses ∧
      ∀ address ∈ addresses, IsPublic env address

theorem eq_https_of_validateProtocol {protocol : String}
    (h : validateProtocol protocol true = .ok ()) : protocol = "https:" := by
  by_contra hne
  rw [validateProtocol, if_pos ⟨rfl, hne⟩] at h
  cases h

theorem isGuarded_of_validateWebhookTarget {env : GuardEnv} {allowlist : Option (List String)}
    {url : String} (h : validateWebhookTarget env true allowlist url = .ok ()) :
    IsGuarded env allowlist url := by
  rw [validateWebhookTarget, bind_eq_ok] at h
  obtain ⟨_, _, h⟩ := h
  obtain ⟨_, _, h⟩ := bind_eq_ok.mp h
  obtain ⟨⟨protocol, hostname⟩, hparsed, h⟩ := bind_eq_ok.mp h
  obtain ⟨_, hprotocol, h⟩ := bind_eq_ok.mp h
  obtain ⟨_, _, h⟩ := bind_eq_ok.mp h
  obtain ⟨_, hallowed, h⟩ := bind_eq_ok.mp h
  obtain ⟨addresses, haddresses, h⟩ := bind_eq_ok.mp h
  refine ⟨hostname, ?_, hallowed, addresses, haddresses, ?_⟩
  · rw [← eq_https_of_validateProtocol hprotocol]
    rw [parseTarget] at hparsed
    split at hparsed
    · next hurl => rw [hurl, Except.ok.inj hparsed]
    · cases hparsed
  · intro address hmem
    exact (validateWebhookIPAddress_eq_ok_iff.mp (forM_eq_ok.mp h address hmem)).2.2

end Fluxora.Webhooks
