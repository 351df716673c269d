/-
# The address of a client behind proxies

A proxy appends the address it was called from to `X-Forwarded-For`, so that the entries on the
right come from the own proxies and all others from anyone. With a number of hops the entry that
many places from the right is the client, with a list of proxies the rightmost one that is not on
it.
-/

import Fluxora.Lib.JsonParse

namespace Fluxora.RateLimit

open Lib Lib.JsText Lib.JsNumber

/-! ## Configuration -/

/-- Express's `trust proxy`. -/
inductive TrustProxySetting
  | unset
  | flag (value : Bool)
  | hops (count : ℤ)
  | text (value : List Char)
  | list (values : List (List Char))
  | function
  deriving DecidableEq

def TrustProxySetting.isTruthy : TrustProxySetting → Bool
  | .unset => false
  | .flag value => value
  | .hops count => count ≠ 0
  | .text value => value ≠ []
  | .list _ | .function => true

inductive ProxyList
  | array (addresses : List (List Char))
  | set (addresses : List (List Char))

structure ClientIpOptions where
  trustedProxies : Option ProxyList := none
  trustedProxyCount : Option ℤ := none
  trustProxy : Option Bool := none

structure ProxyEnv where
  rateLimitTrustProxy : Option (List Char) := none
  trustedProxies : Option (List Char) := none
  wsTrustedProxies : Option (List Char) := none
  rateLimitTrustedProxies : Option (List Char) := none
  trustedProxyCount : Option (List Char) := none
  trustProxyHops : Option (List Char) := none
  rateLimitTrustedProxyCount : Option (List Char) := none

/-- All that `getClientIp` does not take from the request. -/
structure ClientIpConfig where
  options : ClientIpOptions := {}
  env : ProxyEnv := {}
  expressTrustProxy : TrustProxySetting := .unset

/-- A text that is there and not empty, as `||` asks for it. -/
def given (text : Option (List Char)) : Option (List Char) := text.filter (· ≠ [])

/-- `Number.isNaN(Number(text))`. The infinities are numbers. -/
def isNaNText (text : List Char) : Bool :=
  match trim text with
  | [] => false
  | '0' :: c :: digits =>
    match radix c with
    | some base => (radixValue base digits).isNone
    | none => (unsignedDecimal ('0' :: c :: digits)).isNone
  | sign :: rest =>
    let unsigned := if sign = '-' ∨ sign = '+' then rest else sign :: rest
    unsigned ≠ "Infinity".toList && (unsignedDecimal unsigned).isNone

/-! ## Proxies -/

def normalizeIp (ip : List Char) : List Char :=
  if "::ffff:".toList.isPrefixOf (trim ip) then (trim ip).drop 7 else trim ip

/-- The parts between commas that are not blank. -/
def commaParts (text : List Char) : List (List Char) :=
  ((text.splitOn ',').map trim).filter (· ≠ [])

def parseTrustedProxies (raw : List Char) : List (List Char) :=
  (commaParts raw).flatMap fun part => [part, normalizeIp part]

def isTrustedProxy (ip : List Char) (trustedProxies : List (List Char)) : Bool :=
  trustedProxies ≠ [] && (trustedProxies.contains ip || trustedProxies.contains (normalizeIp ip))

namespace ClientIpConfig

variable (c : ClientIpConfig)

def trustProxy : Bool :=
  c.options.trustProxy.getD
    (c.env.rateLimitTrustProxy ≠ some "false".toList && c.expressTrustProxy ≠ .flag false)

def trustedProxies : List (List Char) :=
  match c.options.trustedProxies with
  | some (.set addresses) => addresses
  | some (.array addresses) => parseTrustedProxies ([','].intercalate addresses)
  | none =>
    let fromEnv := parseTrustedProxies ((given c.env.trustedProxies <|>
      given c.env.wsTrustedProxies <|> given c.env.rateLimitTrustedProxies).getD [])
    if fromEnv = [] then
      match c.expressTrustProxy with
      | .list values => parseTrustedProxies ([','].intercalate values)
      | .text value => if isNaNText value then parseTrustedProxies value else []
      | _ => []
    else fromEnv

/-- The number of hops, with `none` for NaN. -/
def trustedProxyCount : Option ℤ :=
  let parsed := c.options.trustedProxyCount <|> parseInt ((given c.env.trustedProxyCount <|>
    given c.env.trustProxyHops <|> given c.env.rateLimitTrustedProxyCount).getD ['0'])
  let count := max (parsed.getD 0) 0
  if count = 0 ∧ c.expressTrustProxy.isTruthy ∧ c.trustedProxies = [] then
    match c.expressTrustProxy with
    | .hops count => some count
    | .flag true => some 1
    | .text value => if isNaNText value then some count else parseInt value
    | _ => some count
  else some count

end ClientIpConfig

/-! ## Requests -/

/-- Repeated headers may come as one text or as several. -/
inductive ForwardedFor
  | text (value : List Char)
  | texts (values : List (List Char))

structure ForwardedRequest where
  socketAddress : Option (List Char)
  ip : Option (List Char) := none
  forwardedFor : Option ForwardedFor

namespace ForwardedRequest

/-- `req.socket?.remoteAddress || req.ip || 'unknown'`. -/
def remoteAddress (req : ForwardedRequest) : List Char :=
  (given req.socketAddress <|> given req.ip).getD "unknown".toList

/-- The entries of the header that are not blank. -/
def entries (req : ForwardedRequest) : List (List Char) :=
  match req.forwardedFor with
  | none => []
  | some (.text value) => commaParts value
  | some (.texts values) => commaParts ([','].intercalate values)

end ForwardedRequest

def getClientIp (c : ClientIpConfig) (req : ForwardedRequest) : List Char :=
  let remoteAddress := req.remoteAddress
  let ips := req.entries
  if remoteAddress = "unknown".toList then "unknown".toList
  else if !c.trustProxy then remoteAddress
  else if c.trustedProxyCount.any (· ≤ 0) ∧ c.trustedProxies = [] then remoteAddress
  else if ips = [] then remoteAddress
  else
    match c.trustedProxyCount.filter (0 < ·) with
    | some count =>
      if c.trustedProxies ≠ [] ∧ ¬ isTrustedProxy remoteAddress c.trustedProxies then remoteAddress
      else if 0 ≤ ips.length - count then ips.getD (ips.length - count).toNat remoteAddress
      else ips.headD remoteAddress
    | none =>
      if c.trustedProxies = [] ∨ ¬ isTrustedProxy remoteAddress c.trustedProxies then remoteAddress
      else
        match ips.reverse.find? (!isTrustedProxy · c.trustedProxies) with
        | some candidate => candidate
        | none => ips.headD remoteAddress

/-! ## No spoofing -/

/-- The last entries, as many as there are hops. -/
def lastEntries (count : ℕ) (ips : List (List Char)) : List (List Char) :=
  ips.drop (ips.length - count)

/-- The peer cannot vouch for a header, or nothing says that anyone can. -/
def ClientIpConfig.Ignores (c : ClientIpConfig) (peer : List Char) : Prop :=
  peer = "unknown".toList ∨ c.trustProxy = false ∨
    ((∀ count ∈ c.trustedProxyCount, count ≤ 0) ∧ c.trustedProxies = []) ∨
    (c.trustedProxies ≠ [] ∧ isTrustedProxy peer c.trustedProxies = false)

/-- What is promised of a configuration: with a number of hops the last entries decide, with a
list of proxies the rightmost entry that is not on it and those after it do, and where the
header is not trusted the peer is the client. -/
structure Unspoofable (c : ClientIpConfig) : Prop where
  hops : ∀ count ∈ c.trustedProxyCount, 1 ≤ count → ∀ a b : ForwardedRequest,
    a.remoteAddress = b.remoteAddress →
    lastEntries count.toNat a.entries = lastEntries count.toNat b.entries →
    getClientIp c a = getClientIp c b
  proxies : (∀ count ∈ c.trustedProxyCount, count < 1) → ∀ a b : ForwardedRequest,
    a.remoteAddress = b.remoteAddress → ∀ before before' client after,
    a.entries = before ++ client :: after → b.entries = before' ++ client :: after →
    isTrustedProxy client c.trustedProxies = false →
    (∀ ip ∈ after, isTrustedProxy ip c.trustedProxies = true) →
    getClientIp c a = getClientIp c b
  ignored : ∀ a : ForwardedRequest, c.Ignores a.remoteAddress → getClientIp c a = a.remoteAddress

theorem headD_lastEntries (count : ℕ) (ips : List (List Char)) (peer : List Char) :
    (lastEntries count ips).headD peer = ips.getD (ips.length - count) peer := by
  rw [lastEntries, List.headD_eq_head?_getD, List.head?_drop, List.getD_eq_getElem?_getD]

variable {c : ClientIpConfig} {req : ForwardedRequest}

theorem filter_pos_eq_none {count : Option ℤ} :
    count.filter (0 < ·) = none ↔ ∀ n ∈ count, n < 1 := by
  simp [Option.filter_eq_none_iff, Int.lt_iff_add_one_le]

theorem getClientIp_of_ignores (h : c.Ignores req.remoteAddress) :
    getClientIp c req = req.remoteAddress := by
  unfold getClientIp
  dsimp only
  by_cases hunknown : req.remoteAddress = "unknown".toList
  · rw [if_pos hunknown, hunknown]
  · rw [if_neg hunknown]
    obtain hoff | ⟨hcount, hnone⟩ | hpeer := h.resolve_left hunknown
    · rw [hoff, if_pos (by rfl)]
    · have hfilter : c.trustedProxyCount.filter (0 < ·) = none :=
        filter_pos_eq_none.mpr fun count hmem => by linarith [hcount count hmem]
      rw [hfilter]
      dsimp only
      rw [if_pos (Or.inl hnone), ite_self, ite_self, ite_self]
    · cases c.trustedProxyCount.filter (0 < ·) with
      | some =>
        dsimp only
        rw [if_pos (And.intro hpeer.1 (Bool.eq_false_iff.mp hpeer.2)), ite_self, ite_self, ite_self]
      | none =>
        dsimp only
        rw [if_pos (Or.inr (Bool.eq_false_iff.mp hpeer.2)), ite_self, ite_self, ite_self]

section

variable (h : ¬ c.Ignores req.remoteAddress)

include h

theorem getClientIp_eq_match : getClientIp c req =
    if req.entries = [] then req.remoteAddress
    else
      match c.trustedProxyCount.filter (0 < ·) with
      | some count =>
        if 0 ≤ req.entries.length - count then
          req.entries.getD (req.entries.length - count).toNat req.remoteAddress
        else req.entries.headD req.remoteAddress
      | none =>
        match req.entries.reverse.find? (!isTrustedProxy · c.trustedProxies) with
        | some candidate => candidate
        | none => req.entries.headD req.remoteAddress := by
  obtain ⟨hknown, hon, hset, hpeer⟩ : req.remoteAddress ≠ "unknown".toList ∧ c.trustProxy = true ∧
      ¬ ((∀ count ∈ c.trustedProxyCount, count ≤ 0) ∧ c.trustedProxies = []) ∧
      ¬ (c.trustedProxies ≠ [] ∧ isTrustedProxy req.remoteAddress c.trustedProxies = false) := by
    simpa [ClientIpConfig.Ignores, not_or] using h
  have hany : ¬ (c.trustedProxyCount.any (· ≤ 0) = true ∧ c.trustedProxies = []) := by
    rintro ⟨hle, hnone⟩
    refine hset ⟨fun count hmem => ?_, hnone⟩
    rw [show c.trustedProxyCount = some count from hmem] at hle
    exact of_decide_eq_true hle
  unfold getClientIp
  dsimp only
  rw [if_neg hknown, hon, if_neg (by decide), if_neg hany]
  congr 1
  cases hfilter : c.trustedProxyCount.filter (0 < ·) with
  | some count =>
    dsimp only
    rw [if_neg (by simpa using hpeer)]
  | none =>
    have hlist : c.trustedProxies ≠ [] := fun hnone =>
      hset ⟨fun count hmem => by linarith [filter_pos_eq_none.mp hfilter count hmem], hnone⟩
    dsimp only
    rw [if_neg (by simpa [hlist] using hpeer)]

theorem getClientIp_of_hops {count : ℤ} (hcount : c.trustedProxyCount = some count)
    (hpos : 1 ≤ count) :
    getClientIp c req = (lastEntries count.toNat req.entries).headD req.remoteAddress := by
  have hfilter : c.trustedProxyCount.filter (0 < ·) = some count := by
    rw [hcount]
    exact Option.filter_eq_some_iff.mpr ⟨rfl, decide_eq_true hpos⟩
  rw [getClientIp_eq_match h, hfilter, headD_lastEntries]
  split_ifs with hempty
  · simp [hempty]
  · dsimp only
    split_ifs with hlong
    · congr 1
      omega
    · rw [show req.entries.length - count.toNat = 0 by omega, List.headD_eq_head?_getD,
        List.getD_eq_getElem?_getD, List.head?_eq_getElem?]

theorem getClientIp_of_proxies (hcount : ∀ count ∈ c.trustedProxyCount, count < 1)
    {before after : List (List Char)} {client : List Char}
    (hentries : req.entries = before ++ client :: after)
    (hclient : isTrustedProxy client c.trustedProxies = false)
    (hafter : ∀ ip ∈ after, isTrustedProxy ip c.trustedProxies = true) :
    getClientIp c req = client := by
  have hfilter : c.trustedProxyCount.filter (0 < ·) = none := filter_pos_eq_none.mpr hcount
  have hfind : req.entries.reverse.find? (!isTrustedProxy · c.trustedProxies) = some client := by
    have hnone : after.reverse.find? (!isTrustedProxy · c.trustedProxies) = none :=
      List.find?_eq_none.mpr fun ip hip => by simp [hafter ip (List.mem_reverse.mp hip)]
    rw [hentries, List.reverse_append, List.reverse_cons, List.append_assoc, List.find?_append,
      hnone]
    simp [hclient]
  rw [getClientIp_eq_match h, hfilter, if_neg (by rw [hentries]; simp)]
  dsimp only
  rw [hfind]

end

/-- Whatever stands before the entries that the configuration vouches for, the client is the
same. -/
theorem getClientIp_unspoofable (c : ClientIpConfig) : Unspoofable c where
  hops count hcount hpos a b hpeer hlast := by
    by_cases hignored : c.Ignores a.remoteAddress
    · rw [getClientIp_of_ignores hignored, getClientIp_of_ignores (hpeer ▸ hignored), hpeer]
    · rw [getClientIp_of_hops hignored hcount hpos,
        getClientIp_of_hops (hpeer ▸ hignored) hcount hpos, hlast, hpeer]
  proxies hcount a b hpeer _ _ client after ha hb hclient hafter := by
    by_cases hignored : c.Ignores a.remoteAddress
    · rw [getClientIp_of_ignores hignored, getClientIp_of_ignores (hpeer ▸ hignored), hpeer]
    · rw [getClientIp_of_proxies hignored hcount ha hclient hafter,
        getClientIp_of_proxies (hpeer ▸ hignored) hcount hb hclient hafter]
  ignored _ := getClientIp_of_ignores

end Fluxora.RateLimit
