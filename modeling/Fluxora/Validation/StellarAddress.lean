/-
# Stellar addresses

An address is the base32 text of a version byte, a payload and a checksum. It is checked
without a network: length, alphabet, version byte and checksum.
-/

import Mathlib.Data.Nat.Bitwise
import Fluxora.Lib.JsText

namespace Fluxora.Validation

open Lib.JsText

def stellarStrkeyLength : ℕ := 56
def stellarStrkeyDecodedLength : ℕ := 35
def stellarStrkeyPayloadLength : ℕ := 33
def stellarMuxedStrkeyLength : ℕ := 69
def stellarMuxedStrkeyDecodedLength : ℕ := 43
def stellarMuxedStrkeyPayloadLength : ℕ := 41

def stellarStrkeyAlphabet : List Char := "ABCDEFGHIJKLMNOPQRSTUVWXYZ234567".toList

inductive StellarAddressKind
  | account
  | muxed
  | contract
  | seed
  | preAuthTx
  | hashX
  | invalid
  deriving DecidableEq

structure AddressClassification where
  kind : StellarAddressKind
  valid : Bool
  reason : Option String := none
  deriving DecidableEq

/-- The loop of the base32 decoder. `current` is a 32-bit integer, here without its sign:
only its low bits get into a byte. -/
def decodeLoop : List Char → ℕ → ℕ → List ℕ → Option (List ℕ)
  | [], _, _, bytes => some bytes
  | char :: rest, bits, current, bytes =>
    match stellarStrkeyAlphabet.idxOf? char with
    | none => none
    | some digit =>
      let current := ((current <<< 5) ||| digit) % 2 ^ 32
      let bits := bits + 5
      if bits ≥ 8 then
        decodeLoop rest (bits - 8) current (bytes ++ [(current >>> (bits - 8)) &&& 0xff])
      else decodeLoop rest bits current bytes

def decodeStellarBase32 (value : String) : Option (List ℕ) :=
  decodeLoop value.toList 0 0 []

/-- One of the eight rounds for a byte. -/
def crcRound (crc : ℕ) : ℕ :=
  (if crc &&& 0x8000 ≠ 0 then (crc <<< 1) ^^^ 0x1021 else crc <<< 1) &&& 0xffff

def crc16XModem (bytes : List ℕ) : ℕ :=
  bytes.foldl (fun crc byte => crcRound^[8] (crc ^^^ (byte <<< 8))) 0

def versionToKind (version : ℕ) : StellarAddressKind :=
  if version = 6 <<< 3 then .account
  else if version = 12 <<< 3 then .muxed
  else if version = 2 <<< 3 then .contract
  else if version = 18 <<< 3 then .seed
  else if version = 19 <<< 3 then .preAuthTx
  else if version = 23 <<< 3 then .hashX
  else .invalid

/-- `/^[A-Z2-7]+$/` -/
def isStrkeyText (text : List Char) : Bool :=
  text ≠ [] && text.all fun c =>
    (65 ≤ c.toNat && c.toNat ≤ 90) || (50 ≤ c.toNat && c.toNat ≤ 55)

/-- Classify a text as an address, without any network context. -/
def classifyStellarAddress (value : String) : AddressClassification :=
  let length := (codeUnits value.toList).length
  let isMuxed := length = stellarMuxedStrkeyLength
  let expectedLength := if isMuxed then stellarMuxedStrkeyLength else stellarStrkeyLength
  if length ≠ expectedLength then
    { kind := .invalid, valid := false
      reason := s!"expected {expectedLength} characters, got {length}" }
  else if isStrkeyText value.toList = false then
    { kind := .invalid, valid := false
      reason := "address contains characters outside the Stellar base32 alphabet " ++
        "(expected uppercase A-Z and 2-7)" }
  else
    match decodeStellarBase32 value with
    | none => { kind := .invalid, valid := false, reason := "base32 decoding failed" }
    | some decoded =>
      if decoded.length ≠
          (if isMuxed then stellarMuxedStrkeyDecodedLength else stellarStrkeyDecodedLength) then
        { kind := .invalid, valid := false, reason := "base32 decoding failed" }
      else
        let versionByte := decoded.getD 0 0
        let kind := versionToKind versionByte
        if kind = .invalid then
          let hex := String.ofList (Nat.toDigits 16 versionByte)
          { kind := .invalid, valid := false
            reason := s!"unrecognized StrKey version byte 0x{hex}" }
        else
          let payloadLength :=
            if isMuxed then stellarMuxedStrkeyPayloadLength else stellarStrkeyPayloadLength
          let actualChecksum :=
            decoded.getD payloadLength 0 ||| (decoded.getD (payloadLength + 1) 0 <<< 8)
          if crc16XModem (decoded.take payloadLength) ≠ actualChecksum then
            { kind, valid := false, reason := "StrKey checksum mismatch" }
          else { kind, valid := true }

/-- An account address with all that can be checked of it without a network. -/
def isValidStellarAccountAddress (value : String) : Bool :=
  (classifyStellarAddress value).valid &&
    (classifyStellarAddress value).kind = .account

example : isValidStellarAccountAddress
    "GAAREIZUIVLGO6EJTKV3ZTO654ABCIRTIRKWM54ITGVLXTG5537RAI5F" = true := by
  decide +kernel

variable {value : String}

theorem isStrkeyText_of_valid (h : isValidStellarAccountAddress value = true) :
    isStrkeyText value.toList = true := by
  rw [isValidStellarAccountAddress, Bool.and_eq_true] at h
  by_contra htext
  rw [Bool.not_eq_true] at htext
  have hvalid := h.1
  simp only [classifyStellarAddress, htext, if_true] at hvalid
  split_ifs at hvalid

variable {c : Char} {text : List Char}

theorem mem_alphabet_of_valid (h : isValidStellarAccountAddress value = true)
    (hc : c ∈ value.toList) : 50 ≤ c.toNat ∧ c.toNat ≤ 90 := by
  have htext := isStrkeyText_of_valid h
  rw [isStrkeyText, Bool.and_eq_true, List.all_eq_true] at htext
  have hrange := htext.2 c hc
  simp only [Bool.or_eq_true, Bool.and_eq_true, decide_eq_true_eq] at hrange
  omega

/-! ## What makes an address valid -/

/-- The version byte of an account, and the checksum of the payload after it. -/
def hasAccountFrame (payloadLength : ℕ) (value : String) : Bool :=
  match decodeStellarBase32 value with
  | none => false
  | some decoded =>
    decoded.getD 0 0 = 6 <<< 3 ∧ crc16XModem (decoded.take payloadLength) =
      decoded.getD payloadLength 0 ||| (decoded.getD (payloadLength + 1) 0 <<< 8)

theorem mem_alphabet : ∀ n < 91, (65 ≤ n ∧ n ≤ 90 ∨ 50 ≤ n ∧ n ≤ 55) →
    Char.ofNat n ∈ stellarStrkeyAlphabet := by decide

theorem getElem?_of_idxOf? {digit : ℕ} (h : stellarStrkeyAlphabet.idxOf? c = some digit) :
    digit < 32 ∧ stellarStrkeyAlphabet[digit]? = some c := by
  rw [List.idxOf?, List.findIdx?_eq_some_iff_getElem] at h
  obtain ⟨hlt, hc, -⟩ := h
  exact ⟨hlt, by rw [List.getElem?_eq_getElem hlt, eq_of_beq hc]⟩

theorem idxOf?_alphabet (h : 65 ≤ c.toNat ∧ c.toNat ≤ 90 ∨ 50 ≤ c.toNat ∧ c.toNat ≤ 55) :
    ∃ digit, stellarStrkeyAlphabet.idxOf? c = some digit := by
  have hmem := mem_alphabet c.toNat (by omega) h
  rw [Char.ofNat_toNat] at hmem
  exact Option.isSome_iff_exists.mp (List.isSome_idxOf?.mpr hmem)

variable {decoded : List ℕ}

theorem length_decodeLoop {bits current : ℕ} {bytes : List ℕ} (hbits : bits < 8)
    (h : decodeLoop text bits current bytes = some decoded) :
    decoded.length = bytes.length + (bits + 5 * text.length) / 8 := by
  induction text generalizing bits current bytes with
  | nil =>
    cases h
    rw [List.length_nil]
    omega
  | cons _ _ ih =>
    rw [decodeLoop] at h
    split at h
    · cases h
    · dsimp only at h
      split_ifs at h with hbyte
      · rw [ih (by omega) h, List.length_append, List.length_singleton, List.length_cons]
        omega
      · rw [ih (by omega) h, List.length_cons]
        omega

theorem prefix_decodeLoop {bits current : ℕ} {bytes : List ℕ}
    (h : decodeLoop text bits current bytes = some decoded) : bytes <+: decoded := by
  induction text generalizing bits current bytes with
  | nil =>
    cases h
    exact List.prefix_rfl
  | cons _ _ ih =>
    rw [decodeLoop] at h
    split at h
    · cases h
    · dsimp only at h
      split_ifs at h
      · exact (List.prefix_append bytes _).trans (ih h)
      · exact ih h

theorem isSome_decodeLoop
    (htext : ∀ c ∈ text, 65 ≤ c.toNat ∧ c.toNat ≤ 90 ∨ 50 ≤ c.toNat ∧ c.toNat ≤ 55)
    (bits current : ℕ) (bytes : List ℕ) : (decodeLoop text bits current bytes).isSome = true := by
  induction text generalizing bits current bytes with
  | nil => rfl
  | cons c _ ih =>
    obtain ⟨digit, hdigit⟩ := idxOf?_alphabet (htext c List.mem_cons_self)
    have hrest := ih fun d hd => htext d (List.mem_cons_of_mem _ hd)
    rw [decodeLoop, hdigit]
    dsimp only
    split_ifs
    · exact hrest _ _ _
    · exact hrest _ _ _

theorem alphabet_of_isStrkeyText (h : isStrkeyText text = true) :
    ∀ c ∈ text, 65 ≤ c.toNat ∧ c.toNat ≤ 90 ∨ 50 ≤ c.toNat ∧ c.toNat ≤ 55 := by
  intro c hc
  rw [isStrkeyText, Bool.and_eq_true, List.all_eq_true] at h
  simpa using h.2 c hc

theorem length_codeUnits_of_isStrkeyText (h : isStrkeyText text = true) :
    (codeUnits text).length = text.length := by
  have hall := alphabet_of_isStrkeyText h
  clear h
  induction text with
  | nil => rfl
  | cons c _ ih =>
    have hc := hall c List.mem_cons_self
    rw [codeUnits, List.flatMap_cons, if_pos (by omega), List.length_append,
      List.length_singleton, List.length_cons, Nat.add_comm]
    exact congrArg (· + 1) (ih fun d hd => hall d (List.mem_cons_of_mem _ hd))

theorem head_of_version {d : Char} {rest : List Char}
    (h : decodeLoop (c :: d :: rest) 0 0 [] = some decoded)
    (hversion : decoded.getD 0 0 = 6 <<< 3) :
    c = 'G' := by
  have hbyte : ∀ i < 32, ∀ j < 32, (((((0 <<< 5 ||| i) % 2 ^ 32) <<< 5 ||| j) % 2 ^ 32) >>> 2)
      &&& 0xff = 6 <<< 3 → i = 6 := by decide +kernel
  rw [decodeLoop] at h
  split at h
  · cases h
  · rename_i i hc
    obtain ⟨hi, hletter⟩ := getElem?_of_idxOf? hc
    dsimp only at h
    rw [if_neg (by decide), decodeLoop] at h
    split at h
    · cases h
    · rename_i j hd
      obtain ⟨hj, -⟩ := getElem?_of_idxOf? hd
      dsimp only at h
      rw [if_pos (by decide)] at h
      obtain ⟨tail, rfl⟩ := prefix_decodeLoop h
      obtain rfl := hbyte i hi j hj hversion
      exact (Option.some.inj hletter).symm

variable {payloadLength : ℕ}

theorem head_of_hasAccountFrame (hlength : 2 ≤ value.toList.length)
    (h : hasAccountFrame payloadLength value = true) : value.toList.head? = some 'G' := by
  rw [hasAccountFrame] at h
  split at h
  · cases h
  · rename_i decoded hdecoded
    rw [decide_eq_true_eq] at h
    obtain ⟨c, d, rest, htext⟩ : ∃ c d rest, value.toList = c :: d :: rest := by
      rcases htext : value.toList with - | ⟨c, - | ⟨d, rest⟩⟩
      · rw [htext] at hlength
        exact absurd hlength (by decide)
      · rw [htext] at hlength
        exact absurd hlength (by simp)
      · exact ⟨c, d, rest, rfl⟩
    rw [decodeStellarBase32, htext] at hdecoded
    rw [htext, head_of_version hdecoded h.1]
    rfl

theorem versionToKind_eq_account {version : ℕ} :
    versionToKind version = .account ↔ version = 6 <<< 3 := by
  unfold versionToKind
  split_ifs with haccount <;> simp_all

/-- What the last two checks say of the bytes of an address. -/
def classifyFrame (payloadLength : ℕ) (decoded : List ℕ) : AddressClassification :=
  let versionByte := decoded.getD 0 0
  let kind := versionToKind versionByte
  if kind = .invalid then
    let hex := String.ofList (Nat.toDigits 16 versionByte)
    { kind := .invalid, valid := false
      reason := s!"unrecognized StrKey version byte 0x{hex}" }
  else
    let actualChecksum :=
      decoded.getD payloadLength 0 ||| (decoded.getD (payloadLength + 1) 0 <<< 8)
    if crc16XModem (decoded.take payloadLength) ≠ actualChecksum then
      { kind, valid := false, reason := "StrKey checksum mismatch" }
    else { kind, valid := true }

theorem classifyFrame_account (hdecoded : decodeStellarBase32 value = some decoded) :
    ((classifyFrame payloadLength decoded).valid = true ∧
      (classifyFrame payloadLength decoded).kind = .account) ↔
        hasAccountFrame payloadLength value = true := by
  rw [hasAccountFrame, hdecoded, classifyFrame]
  simp only [decide_eq_true_eq]
  split_ifs with hkind hsum
  · have hversion : decoded.getD 0 0 ≠ 6 <<< 3 := fun h => by
      rw [(versionToKind_eq_account).mpr h] at hkind
      cases hkind
    exact ⟨fun h => h.1.elim, fun h => absurd h.1 hversion⟩
  · exact ⟨fun h => h.1.elim, fun h => absurd h.2 hsum⟩
  · rw [not_not] at hsum
    exact ⟨fun h => ⟨(versionToKind_eq_account).mp h.2, hsum⟩,
      fun h => ⟨rfl, (versionToKind_eq_account).mpr h.1⟩⟩

/-- The strings that are valid account addresses. One of the length of a multiplexed address is
not asked for the version byte of one. -/
theorem isValidStellarAccountAddress_iff :
    isValidStellarAccountAddress value = true ↔ isStrkeyText value.toList = true ∧
      (value.toList.length = stellarStrkeyLength ∧
          hasAccountFrame stellarStrkeyPayloadLength value = true ∨
        value.toList.length = stellarMuxedStrkeyLength ∧
          hasAccountFrame stellarMuxedStrkeyPayloadLength value = true) := by
  by_cases htext : isStrkeyText value.toList = true
  swap
  · exact ⟨fun h => absurd (isStrkeyText_of_valid h) htext, fun h => absurd h.1 htext⟩
  have hlength := length_codeUnits_of_isStrkeyText htext
  obtain ⟨decoded, hdecoded⟩ : ∃ decoded, decodeStellarBase32 value = some decoded :=
    Option.isSome_iff_exists.mp (isSome_decodeLoop (alphabet_of_isStrkeyText htext) 0 0 [])
  have hbytes := length_decodeLoop (by decide) hdecoded
  rw [List.length_nil] at hbytes
  rw [and_iff_right htext, isValidStellarAccountAddress, Bool.and_eq_true, decide_eq_true_eq]
  by_cases hmuxed : value.toList.length = stellarMuxedStrkeyLength
  · have hframe : classifyStellarAddress value =
        classifyFrame stellarMuxedStrkeyPayloadLength decoded := by
      have h43 : decoded.length = stellarMuxedStrkeyDecodedLength := by
        rw [hbytes, hmuxed]
        rfl
      rw [classifyStellarAddress]
      simp only [hlength, hmuxed, htext, hdecoded, h43]
      rfl
    rw [hframe, classifyFrame_account hdecoded, hmuxed]
    exact ⟨fun h => .inr ⟨rfl, h⟩, fun h => h.elim (fun h => absurd h.1 (by decide)) And.right⟩
  · rw [or_iff_left fun h => hmuxed h.1]
    by_cases haccount : value.toList.length = stellarStrkeyLength
    · have hframe : classifyStellarAddress value =
          classifyFrame stellarStrkeyPayloadLength decoded := by
        have h35 : decoded.length = stellarStrkeyDecodedLength := by
          rw [hbytes, haccount]
          rfl
        rw [classifyStellarAddress]
        simp only [hlength, haccount, htext, hdecoded, h35]
        rfl
      rw [hframe, classifyFrame_account hdecoded, and_iff_right haccount]
    · have hrefused : (classifyStellarAddress value).valid = false := by
        rw [classifyStellarAddress]
        simp only [hlength, if_neg hmuxed, if_pos haccount]
      rw [hrefused]
      exact ⟨fun h => absurd h.1 Bool.false_ne_true, fun h => absurd h.1 haccount⟩

end Fluxora.Validation
