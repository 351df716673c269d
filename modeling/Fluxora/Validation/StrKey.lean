/-
# Keys and their texts

A key is of a kind, with a payload of the length of its kind. Its text is the base32 text of the
version byte, the payload and the checksum, the low byte of the checksum first; no bit of the text
is left unused, or it is zero.

The classifier reads the kind from the version byte and the length of the payload from the length
of the text, and does not compare the two; nor does it look at an unused bit.
-/

import Fluxora.Lib.BitString
import Fluxora.Lib.Crc
import Fluxora.Validation.StellarAddress

namespace Fluxora.Validation

open Lib Lib.JsText Lib.BitString

/-! ## The checksum -/

def crcPolynomial : BitVec 16 := 0x1021#16

variable (register : BitVec 16)

theorem crcRound_toNat : crcRound register.toNat = (Crc.shift crcPolynomial register).toNat := by
  have hlow : ∀ n : ℕ, n &&& 0xffff = n % 2 ^ 16 := fun n => Nat.and_two_pow_sub_one_eq_mod n 16
  have hmsb : register.toNat &&& 0x8000 ≠ 0 ↔ register.msb = true := by
    rw [BitVec.msb_eq_getLsbD_last]
    change register.toNat &&& 2 ^ 15 ≠ 0 ↔ register.toNat.testBit 15 = true
    rw [Nat.and_two_pow]
    cases register.toNat.testBit 15 <;> simp
  rw [crcRound, hlow, Crc.shift, BitVec.toNat_xor, BitVec.toNat_shiftLeft]
  by_cases hset : register.msb = true
  · rw [if_pos (hmsb.mpr hset), hset, Nat.xor_mod_two_pow]
    rfl
  · rw [if_neg fun h => hset (hmsb.mp h), Bool.not_eq_true _ |>.mp hset]
    exact (Nat.xor_zero _).symm

theorem aligned_byte : ∀ byte < 256,
    (Crc.aligned (toBits 8 byte) : BitVec 16) = BitVec.ofNat 16 (byte <<< 8) := by
  decide +kernel

theorem crcByte_toNat {byte : ℕ} (hbyte : byte < 256) :
    crcRound^[8] (register.toNat ^^^ (byte <<< 8)) =
      (Crc.crcFrom crcPolynomial register (toBits 8 byte)).toNat := by
  have hrounds : ∀ (n : ℕ) (start : BitVec 16),
      crcRound^[n] start.toNat = ((Crc.shift crcPolynomial)^[n] start).toNat := by
    intro n
    induction n with
    | zero => exact fun _ => rfl
    | succ _ ih =>
      intro start
      rw [Function.iterate_succ_apply, crcRound_toNat, ih, Function.iterate_succ_apply]
  have hshifted : byte <<< 8 % 2 ^ 16 = byte <<< 8 := by
    rw [Nat.shiftLeft_eq]
    omega
  have hadded : register.toNat ^^^ (byte <<< 8) =
      (register ^^^ BitVec.ofNat 16 (byte <<< 8)).toNat := by
    rw [BitVec.toNat_xor, BitVec.toNat_ofNat, hshifted]
  rw [hadded, hrounds, Crc.crcFrom_eq_aligned (by rw [length_toBits]; decide), length_toBits,
    aligned_byte byte hbyte]

theorem crc16XModem_eq {bytes : List ℕ} (hbytes : ∀ byte ∈ bytes, byte < 256) :
    crc16XModem bytes = (Crc.crc crcPolynomial (bitString 8 bytes)).toNat := by
  have hloop : ∀ register : BitVec 16,
      bytes.foldl (fun crc byte => crcRound^[8] (crc ^^^ (byte <<< 8))) register.toNat =
        (Crc.crcFrom crcPolynomial register (bitString 8 bytes)).toNat := by
    induction bytes with
    | nil => exact fun _ => rfl
    | cons _ _ ih =>
      intro register
      obtain ⟨hbyte, hrest⟩ := List.forall_mem_cons.mp hbytes
      rw [List.foldl_cons, crcByte_toNat register hbyte, ih hrest, bitString_cons,
        Crc.crcFrom_append]
  exact hloop 0#16

/-! ## Digits of a text -/

def digitOf (c : Char) : ℕ := stellarStrkeyAlphabet.idxOf c

def letterOf (digit : ℕ) : Char := stellarStrkeyAlphabet.getD digit 'A'

theorem letterOf_spec : ∀ digit < 32, digitOf (letterOf digit) = digit ∧
    (65 ≤ (letterOf digit).toNat ∧ (letterOf digit).toNat ≤ 90 ∨
      50 ≤ (letterOf digit).toNat ∧ (letterOf digit).toNat ≤ 55) := by
  decide

theorem digitOf_spec {c : Char}
    (h : 65 ≤ c.toNat ∧ c.toNat ≤ 90 ∨ 50 ≤ c.toNat ∧ c.toNat ≤ 55) :
    stellarStrkeyAlphabet.idxOf? c = some (digitOf c) ∧ digitOf c < 32 ∧
      letterOf (digitOf c) = c := by
  obtain ⟨digit, hdigit⟩ := idxOf?_alphabet h
  obtain ⟨hlt, hletter⟩ := getElem?_of_idxOf? hdigit
  have hsame : digitOf c = digit := by
    rw [digitOf, List.idxOf_eq_getD_idxOf?, hdigit, Option.getD_some]
  rw [hsame]
  exact ⟨hdigit, hlt, by rw [letterOf, List.getD_eq_getElem?_getD, hletter, Option.getD_some]⟩

theorem toBits_mod_of_le {width more n : ℕ} (hle : width ≤ more) :
    toBits width (n % 2 ^ more) = toBits width n := by
  rw [← toBits_mod width (n % 2 ^ more), Nat.mod_mod_of_dvd _ (pow_dvd_pow 2 hle), toBits_mod]

theorem toBits_next {bits digit : ℕ} (hbits : bits < 8) (hdigit : digit < 32) (current : ℕ) :
    toBits (bits + 5) (((current <<< 5) ||| digit) % 2 ^ 32) =
      toBits bits current ++ toBits 5 digit := by
  have hjoin : (current <<< 5) ||| digit = current * 2 ^ 5 + digit := by
    rw [← Nat.shiftLeft_add_eq_or_of_lt (show digit < 2 ^ 5 from hdigit), Nat.shiftLeft_eq]
  have hhigh : (current * 2 ^ 5 + digit) / 2 ^ 5 = current := by omega
  have hlow : (current * 2 ^ 5 + digit) % 2 ^ 5 = digit := by omega
  rw [toBits_mod_of_le (by omega), hjoin, toBits_add, hhigh, ← toBits_mod 5, hlow]

theorem decodeLoop_eq {text : List Char} (htext : ∀ c ∈ text,
    65 ≤ c.toNat ∧ c.toNat ≤ 90 ∨ 50 ≤ c.toNat ∧ c.toNat ≤ 55) {bits : ℕ} (hbits : bits < 8)
    (current : ℕ) (bytes : List ℕ) :
    decodeLoop text bits current bytes =
      some (bytes ++ groups 8 (toBits bits current ++ bitString 5 (text.map digitOf))) := by
  induction text generalizing bits current bytes with
  | nil =>
    have hshort : (toBits bits current ++ bitString 5 ([].map digitOf)).length < 8 := by
      simpa [bitString] using hbits
    rw [decodeLoop, groups_short hshort, List.append_nil]
  | cons c _ ih =>
    obtain ⟨hc, hrest⟩ := List.forall_mem_cons.mp htext
    obtain ⟨hdigit, hlt, -⟩ := digitOf_spec hc
    have hnext := toBits_next hbits hlt current
    rw [decodeLoop, hdigit, List.map_cons, bitString_cons, ← List.append_assoc, ← hnext]
    simp only
    generalize ((current <<< 5) ||| digitOf c) % 2 ^ 32 = joined
    by_cases hbyte : bits + 5 ≥ 8
    · -- the first eight bits are a byte, and fewer than eight are left
      have hsplit : bits + 5 = 8 + (bits + 5 - 8) := by omega
      have hlow : (joined >>> (bits + 5 - 8)) &&& 0xff = joined / 2 ^ (bits + 5 - 8) % 2 ^ 8 := by
        rw [Nat.shiftRight_eq_div_pow]
        exact Nat.and_two_pow_sub_one_eq_mod _ 8
      rw [if_pos hbyte, ih hrest (by omega)]
      conv_rhs => rw [hsplit, toBits_add, List.append_assoc,
        groups_append (by decide) (length_toBits 8 _), ofBits_toBits]
      rw [hlow, List.append_assoc]
      rfl
    · rw [if_neg hbyte, ih hrest (by omega)]

theorem decodeStellarBase32_eq {value : String} (htext : isStrkeyText value.toList = true) :
    decodeStellarBase32 value = some (groups 8 (bitString 5 (value.toList.map digitOf))) := by
  rw [decodeStellarBase32, decodeLoop_eq (alphabet_of_isStrkeyText htext) (by decide)]
  rfl

/-! ## Keys -/

def StellarAddressKind.versionByte : StellarAddressKind → Option ℕ
  | .account => some (6 <<< 3)
  | .muxed => some (12 <<< 3)
  | .contract => some (2 <<< 3)
  | .seed => some (18 <<< 3)
  | .preAuthTx => some (19 <<< 3)
  | .hashX => some (23 <<< 3)
  | .invalid => none

/-- A multiplexed account has an id of eight bytes behind its key. -/
def StellarAddressKind.payloadLength : StellarAddressKind → ℕ
  | .muxed => 40
  | _ => 32

def StellarAddressKind.textLength : StellarAddressKind → ℕ
  | .muxed => stellarMuxedStrkeyLength
  | _ => stellarStrkeyLength

theorem versionToKind_iff {version : ℕ} {kind : StellarAddressKind} :
    versionToKind version = kind ∧ kind ≠ .invalid ↔ kind.versionByte = some version := by
  apply Iff.intro
  · rintro ⟨rfl, hvalid⟩
    revert hvalid
    unfold versionToKind
    split_ifs with h1 h2 h3 h4 h5 h6 <;> intro hvalid <;> simp_all [StellarAddressKind.versionByte]
  · intro hversion
    cases kind with
    | invalid => cases hversion
    | account | muxed | contract | seed | preAuthTx | hashX =>
      cases hversion
      exact ⟨rfl, by decide⟩

theorem versionByte_lt {version : ℕ} {kind : StellarAddressKind}
    (hversion : kind.versionByte = some version) : version < 256 := by
  cases kind <;> simp only [StellarAddressKind.versionByte, Option.some.injEq, reduceCtorEq]
    at hversion <;> omega

structure StellarKey where
  kind : StellarAddressKind
  version : ℕ
  payload : List ℕ
  versionByte_eq : kind.versionByte = some version
  length_payload : payload.length = kind.payloadLength
  payload_lt : ∀ byte ∈ payload, byte < 256

namespace StellarKey

variable (key : StellarKey)

def frame : List ℕ := key.version :: key.payload

def checksum : ℕ := (Crc.crc crcPolynomial (bitString 8 key.frame)).toNat

/-- The frame and its checksum, the low byte first. -/
def bytes : List ℕ := key.frame ++ [key.checksum % 256, key.checksum / 256]

/-- The base32 text of a key. -/
def text : List Char := (regroup 8 5 key.bytes).map letterOf

theorem frame_lt : ∀ byte ∈ key.frame, byte < 256 :=
  List.forall_mem_cons.mpr ⟨versionByte_lt key.versionByte_eq, key.payload_lt⟩

theorem checksum_lt : key.checksum < 2 ^ 16 := BitVec.isLt _

theorem bytes_lt : ∀ byte ∈ key.bytes, byte < 2 ^ 8 := by
  have hsum := key.checksum_lt
  intro byte hbyte
  cases List.mem_append.mp hbyte with
  | inl hframe => exact key.frame_lt byte hframe
  | inr hcheck =>
    simp only [List.mem_cons, List.not_mem_nil, or_false] at hcheck
    omega

theorem length_frame : key.frame.length = key.kind.payloadLength + 1 := by
  rw [frame, List.length_cons, key.length_payload]

theorem length_bytes : key.bytes.length = key.kind.payloadLength + 3 := by
  rw [bytes, List.length_append, length_frame]
  rfl

theorem payloadLength_cases (kind : StellarAddressKind) :
    kind.payloadLength = 32 ∧ kind.textLength = 56 ∨
      kind.payloadLength = 40 ∧ kind.textLength = 69 := by
  cases kind <;> decide

theorem map_digitOf_text : key.text.map digitOf = regroup 8 5 key.bytes := by
  rw [text, List.map_map]
  conv_rhs => rw [← List.map_id (regroup 8 5 key.bytes)]
  apply List.map_congr_left
  intro digit hdigit
  exact (letterOf_spec digit (lt_of_mem_regroup (by decide) hdigit)).1

theorem padding_bytes : padding 5 (8 * key.bytes.length) < 8 :=
  (padding_lt (by decide) _).trans (by decide)

theorem groups_text : groups 8 (bitString 5 (key.text.map digitOf)) = key.bytes := by
  rw [map_digitOf_text]
  exact groups_bitString_regroup (by decide) (by decide) key.bytes_lt key.padding_bytes

theorem bitString_text : bitString 5 (key.text.map digitOf) =
    bitString 8 key.bytes ++ List.replicate (padding 5 (8 * key.bytes.length)) false := by
  rw [map_digitOf_text, bitString_regroup (by decide)]

theorem length_text : key.text.length = key.kind.textLength := by
  have hlength := congrArg List.length key.bitString_text
  rw [length_bitString, List.length_map, List.length_append, length_bitString,
    List.length_replicate, key.length_bytes] at hlength
  cases payloadLength_cases key.kind with
  | inl hshort =>
    rw [hshort.1] at hlength
    have hnone : padding 5 (8 * (32 + 3)) = 0 := rfl
    rw [hshort.2]
    omega
  | inr hlong =>
    rw [hlong.1] at hlength
    have hone : padding 5 (8 * (40 + 3)) = 1 := rfl
    rw [hlong.2]
    omega

theorem isStrkeyText_text : isStrkeyText key.text = true := by
  have hne : key.text ≠ [] := by
    intro hnil
    have hlength := key.length_text
    rw [hnil, List.length_nil] at hlength
    cases payloadLength_cases key.kind <;> omega
  rw [isStrkeyText, Bool.and_eq_true, List.all_eq_true]
  refine ⟨decide_eq_true hne, fun c hc => ?_⟩
  obtain ⟨digit, hdigit, rfl⟩ := List.mem_map.mp hc
  simpa using (letterOf_spec digit (lt_of_mem_regroup (by decide) hdigit)).2

end StellarKey

/-! ## What the classifier reads -/

/-- The bytes of a text. -/
def textBytes (text : List Char) : List ℕ := groups 8 (bitString 5 (text.map digitOf))

/-- The bits of a text behind its last byte. -/
def unusedBits (text : List Char) : List Bool :=
  (bitString 5 (text.map digitOf)).drop (8 * (textBytes text).length)

/-- The end of the payload, which the classifier takes from the length of the text. -/
def payloadEnd (text : List Char) : ℕ :=
  if text.length = stellarMuxedStrkeyLength then stellarMuxedStrkeyPayloadLength
  else stellarStrkeyPayloadLength

def kindOf (text : List Char) : StellarAddressKind := versionToKind ((textBytes text).getD 0 0)

/-- The two bytes behind the payload are its checksum, the low one first. -/
def IsChecked (text : List Char) : Prop :=
  crc16XModem ((textBytes text).take (payloadEnd text)) =
    (textBytes text).getD (payloadEnd text) 0 |||
      ((textBytes text).getD (payloadEnd text + 1) 0 <<< 8)

instance (text : List Char) : Decidable (IsChecked text) := inferInstanceAs (Decidable (_ = _))

/-- A text of one of the two lengths, with a known version byte and its checksum. -/
structure IsFramed (text : List Char) : Prop where
  isStrkeyText : isStrkeyText text = true
  length : text.length = stellarStrkeyLength ∨ text.length = stellarMuxedStrkeyLength
  kind : kindOf text ≠ .invalid
  checked : IsChecked text

theorem classifyFrame_iff {decoded : List ℕ} {payloadLength : ℕ} {kind : StellarAddressKind} :
    ((classifyFrame payloadLength decoded).valid = true ∧
      (classifyFrame payloadLength decoded).kind = kind) ↔
        versionToKind (decoded.getD 0 0) = kind ∧ kind ≠ .invalid ∧
          crc16XModem (decoded.take payloadLength) =
            decoded.getD payloadLength 0 ||| (decoded.getD (payloadLength + 1) 0 <<< 8) := by
  rw [classifyFrame]
  simp only
  split_ifs with hkind hsum
  · simp only [false_and, false_iff]
    rintro ⟨hsame, hvalid, -⟩
    exact hvalid (hsame.symm.trans hkind)
  · simp only [false_and, false_iff]
    exact fun h => hsum h.2.2
  · rw [not_not] at hsum
    simp only [true_and]
    exact ⟨fun h => ⟨h, h ▸ hkind, hsum⟩, fun h => h.1⟩

theorem length_textBytes (text : List Char) : (textBytes text).length = 5 * text.length / 8 := by
  obtain ⟨rest, hrest, hbits, -⟩ :=
    exists_bitString_groups (show 0 < 8 by decide) (bitString 5 (text.map digitOf))
  have hlength := congrArg List.length hbits
  rw [length_bitString, List.length_map, List.length_append, length_bitString] at hlength
  rw [textBytes]
  omega

theorem classifyStellarAddress_iff {value : String} {kind : StellarAddressKind} :
    ((classifyStellarAddress value).valid = true ∧ (classifyStellarAddress value).kind = kind) ↔
      IsFramed value.toList ∧ kindOf value.toList = kind := by
  by_cases htext : isStrkeyText value.toList = true
  swap
  · have hrefused : (classifyStellarAddress value).valid = false := by
      rw [Bool.not_eq_true] at htext
      rw [classifyStellarAddress]
      simp only [htext, if_true]
      split_ifs <;> rfl
    rw [hrefused]
    exact ⟨fun h => absurd h.1 Bool.false_ne_true, fun h => absurd h.1.isStrkeyText htext⟩
  have hlength := length_codeUnits_of_isStrkeyText htext
  have hdecoded : decodeStellarBase32 value = some (textBytes value.toList) :=
    decodeStellarBase32_eq htext
  have hbytes := length_textBytes value.toList
  have hframed : (value.toList.length = 56 ∨ value.toList.length = 69) →
      ((versionToKind ((textBytes value.toList).getD 0 0) = kind ∧ kind ≠ .invalid ∧
        IsChecked value.toList) ↔ IsFramed value.toList ∧ kindOf value.toList = kind) := by
    intro hsize
    apply Iff.intro
    · rintro ⟨rfl, hvalid, hchecked⟩
      exact ⟨⟨htext, hsize, hvalid, hchecked⟩, rfl⟩
    · rintro ⟨hframed, rfl⟩
      exact ⟨rfl, hframed.kind, hframed.checked⟩
  by_cases hmuxed : value.toList.length = stellarMuxedStrkeyLength
  · have hframe : classifyStellarAddress value =
        classifyFrame stellarMuxedStrkeyPayloadLength (textBytes value.toList) := by
      have h43 : (textBytes value.toList).length = stellarMuxedStrkeyDecodedLength := by
        rw [hbytes, hmuxed]
        rfl
      rw [classifyStellarAddress]
      simp only [hlength, hmuxed, htext, hdecoded, h43]
      rfl
    rw [hframe, classifyFrame_iff, ← hframed (.inr hmuxed), IsChecked, payloadEnd, if_pos hmuxed]
  · by_cases hshort : value.toList.length = stellarStrkeyLength
    · have hframe : classifyStellarAddress value =
          classifyFrame stellarStrkeyPayloadLength (textBytes value.toList) := by
        have h35 : (textBytes value.toList).length = stellarStrkeyDecodedLength := by
          rw [hbytes, hshort]
          rfl
        rw [classifyStellarAddress]
        simp only [hlength, hshort, htext, hdecoded, h35]
        rfl
      rw [hframe, classifyFrame_iff, ← hframed (.inl hshort), IsChecked, payloadEnd,
        if_neg hmuxed]
    · have hrefused : (classifyStellarAddress value).valid = false := by
        rw [classifyStellarAddress]
        simp only [hlength, if_neg hmuxed, if_pos hshort]
      rw [hrefused]
      exact ⟨fun h => absurd h.1 Bool.false_ne_true,
        fun h => (h.1.length.elim hshort hmuxed).elim⟩

/-! ## Texts of keys -/

theorem checksum_bytes {low : ℕ} (high : ℕ) (hlow : low < 256) :
    (low ||| (high <<< 8)) % 256 = low ∧ (low ||| (high <<< 8)) / 256 = high := by
  have hsum : low ||| (high <<< 8) = high * 2 ^ 8 + low := by
    rw [Nat.or_comm, ← Nat.shiftLeft_add_eq_or_of_lt (show low < 2 ^ 8 from hlow),
      Nat.shiftLeft_eq]
  rw [hsum]
  omega

theorem or_shiftLeft_bytes (n : ℕ) : n % 256 ||| ((n / 256) <<< 8) = n := by
  rw [Nat.or_comm, ← Nat.shiftLeft_add_eq_or_of_lt (show n % 256 < 2 ^ 8 by omega),
    Nat.shiftLeft_eq]
  omega

namespace StellarKey

variable (key : StellarKey)

theorem textBytes_text : textBytes key.text = key.bytes := key.groups_text

theorem kindOf_text : kindOf key.text = key.kind ∧ key.kind ≠ .invalid := by
  rw [kindOf, textBytes_text]
  exact versionToKind_iff.mpr key.versionByte_eq

theorem payloadEnd_text : payloadEnd key.text = key.frame.length := by
  rw [payloadEnd, length_text, length_frame]
  cases key.kind <;> rfl

theorem isChecked_text : IsChecked key.text := by
  have hlow : key.bytes.getD key.frame.length 0 = key.checksum % 256 := by
    rw [bytes, List.getD_eq_getElem?_getD, List.getElem?_append_right (le_refl _), Nat.sub_self]
    rfl
  have hhigh : key.bytes.getD (key.frame.length + 1) 0 = key.checksum / 256 := by
    rw [bytes, List.getD_eq_getElem?_getD, List.getElem?_append_right (Nat.le_add_right _ 1),
      Nat.add_sub_cancel_left]
    rfl
  rw [IsChecked, textBytes_text, payloadEnd_text, hlow, hhigh, or_shiftLeft_bytes, bytes,
    List.take_left, crc16XModem_eq key.frame_lt, checksum]

theorem unusedBits_text : true ∉ unusedBits key.text := by
  rw [unusedBits, textBytes_text, bitString_text, ← length_bitString, List.drop_left]
  exact fun hset => absurd (List.eq_of_mem_replicate hset) (by decide)

theorem isFramed_text : IsFramed key.text where
  isStrkeyText := key.isStrkeyText_text
  length := by
    rw [length_text]
    cases key.kind <;> decide
  kind := key.kindOf_text.1 ▸ key.kindOf_text.2
  checked := key.isChecked_text

end StellarKey

theorem IsFramed.exists_bytes {text : List Char} (hframed : IsFramed text) :
    ∃ version payload low high, textBytes text = version :: payload ++ [low, high] ∧
      payloadEnd text = payload.length + 1 ∧ (∀ byte ∈ textBytes text, byte < 256) ∧
      crc16XModem (version :: payload) = low ||| (high <<< 8) := by
  obtain ⟨-, -, -, hlt⟩ :=
    exists_bitString_groups (show 0 < 8 by decide) (bitString 5 (text.map digitOf))
  have hsize : (textBytes text).length = payloadEnd text + 2 ∧ 1 ≤ payloadEnd text := by
    rw [length_textBytes, payloadEnd]
    cases hframed.length with
    | inl hshort => rw [hshort]; decide
    | inr hlong => rw [hlong]; decide
  obtain ⟨version, rest, hcons⟩ : ∃ version rest, textBytes text = version :: rest :=
    List.exists_cons_of_length_pos (by omega)
  rw [hcons, List.length_cons] at hsize
  obtain ⟨low, high, hlast⟩ : ∃ low high, rest.drop (payloadEnd text - 1) = [low, high] :=
    List.length_eq_two.mp (by rw [List.length_drop]; omega)
  have hbytes : textBytes text = version :: rest.take (payloadEnd text - 1) ++ [low, high] := by
    rw [hcons, List.cons_append, ← hlast, List.take_append_drop]
  have hend : payloadEnd text = (rest.take (payloadEnd text - 1)).length + 1 := by
    rw [List.length_take]
    omega
  generalize rest.take (payloadEnd text - 1) = payload at hbytes hend
  refine ⟨version, payload, low, high, hbytes, hend, hlt, ?_⟩
  have hchecked := hframed.checked
  have hlow : (version :: payload ++ [low, high]).getD (payload.length + 1) 0 = low := by simp
  have hhigh : (version :: payload ++ [low, high]).getD (payload.length + 1 + 1) 0 = high := by
    simp
  have htake : (version :: payload ++ [low, high]).take (payload.length + 1) =
      version :: payload := List.take_left' rfl
  rwa [IsChecked, hend, hbytes, hlow, hhigh, htake] at hchecked

theorem bitString_eq (text : List Char) : bitString 5 (text.map digitOf) =
    bitString 8 (textBytes text) ++ unusedBits text := by
  obtain ⟨rest, -, hbits, -⟩ :=
    exists_bitString_groups (show 0 < 8 by decide) (bitString 5 (text.map digitOf))
  have hunused : unusedBits text = rest := by
    rw [unusedBits, hbits, ← length_bitString, ← textBytes, List.drop_left]
  rw [hunused]
  exact hbits

theorem map_letterOf_digitOf {text : List Char} (htext : isStrkeyText text = true) :
    (text.map digitOf).map letterOf = text := by
  rw [List.map_map]
  conv_rhs => rw [← List.map_id text]
  apply List.map_congr_left
  intro c hc
  exact (digitOf_spec (alphabet_of_isStrkeyText htext c hc)).2.2

theorem digits_lt {text : List Char} (htext : isStrkeyText text = true) :
    ∀ digit ∈ text.map digitOf, digit < 2 ^ 5 := by
  intro digit hdigit
  obtain ⟨c, hc, rfl⟩ := List.mem_map.mp hdigit
  exact (digitOf_spec (alphabet_of_isStrkeyText htext c hc)).2.1

theorem map_letterOf_regroup {text : List Char} {kind : StellarAddressKind}
    (htext : isStrkeyText text = true) (hlength : text.length = kind.textLength)
    (hunused : true ∉ unusedBits text) :
    (regroup 8 5 (textBytes text)).map letterOf = text := by
  have hbits := bitString_eq text
  have hzeros : unusedBits text = List.replicate (unusedBits text).length false :=
    List.eq_replicate_of_mem fun bit hbit => by
      cases bit with
      | false => rfl
      | true => exact absurd hbit hunused
  have hfew : (unusedBits text).length < 5 := by
    have hsize := congrArg List.length hbits
    rw [length_bitString, List.length_map, List.length_append, length_bitString,
      length_textBytes, hlength] at hsize
    cases StellarKey.payloadLength_cases kind <;> omega
  rw [hzeros] at hbits
  rw [textBytes, (regroup_groups_iff (by decide) (digits_lt htext)).mpr ⟨_, hfew, hbits⟩,
    map_letterOf_digitOf htext]

theorem exists_text_iff {text : List Char} {kind : StellarAddressKind} :
    (∃ key : StellarKey, key.kind = kind ∧ key.text = text) ↔
      IsFramed text ∧ kindOf text = kind ∧ text.length = kind.textLength ∧
        true ∉ unusedBits text := by
  apply Iff.intro
  · rintro ⟨key, rfl, rfl⟩
    exact ⟨key.isFramed_text, key.kindOf_text.1, key.length_text, key.unusedBits_text⟩
  · rintro ⟨hframed, hkind, hlength, hunused⟩
    obtain ⟨version, payload, low, high, hbytes, hend, hlt, hchecked⟩ := hframed.exists_bytes
    have hpayload : payload.length = kind.payloadLength := by
      rw [payloadEnd, hlength] at hend
      cases kind with
      | muxed => exact (Nat.succ.inj hend).symm
      | account | contract | seed | preAuthTx | hashX | invalid =>
        exact (Nat.succ.inj hend).symm
    have hversion : kind.versionByte = some version := by
      have hvalid : kind ≠ .invalid := hkind ▸ hframed.kind
      rw [kindOf, hbytes] at hkind
      exact versionToKind_iff.mp ⟨hkind, hvalid⟩
    rw [hbytes] at hlt
    let key : StellarKey :=
      { kind := kind
        version := version
        payload := payload
        versionByte_eq := hversion
        length_payload := hpayload
        payload_lt := fun byte hbyte => hlt byte (by simp [hbyte]) }
    have hsum : key.checksum = low ||| (high <<< 8) :=
      (crc16XModem_eq key.frame_lt).symm.trans hchecked
    have hkey : key.bytes = textBytes text := by
      have hparts := checksum_bytes high (hlt low (by simp))
      rw [StellarKey.bytes, hsum, hparts.1, hparts.2, hbytes]
      rfl
    refine ⟨key, rfl, ?_⟩
    rw [StellarKey.text, hkey, map_letterOf_regroup hframed.isStrkeyText hlength hunused]

/-! ## Main results -/

/-- The kind and the payload that an accepted text is read as. -/
def readKey (text : List Char) : StellarAddressKind × List ℕ :=
  (kindOf text, ((textBytes text).take (payloadEnd text)).drop 1)

theorem textBytes_of_readKey {text text' : List Char} (hframed : IsFramed text)
    (hframed' : IsFramed text') (hkey : readKey text = readKey text') :
    textBytes text = textBytes text' := by
  obtain ⟨version, payload, low, high, hbytes, hend, hlt, hchecked⟩ := hframed.exists_bytes
  obtain ⟨version', payload', low', high', hbytes', hend', hlt', hchecked'⟩ :=
    hframed'.exists_bytes
  obtain ⟨hkind, hpayload⟩ := Prod.mk.inj hkey
  have htake : ∀ (version : ℕ) (payload last : List ℕ),
      ((version :: payload ++ last).take (payload.length + 1)).drop 1 = payload := by
    intro version payload last
    have hfront : (version :: payload ++ last).take (payload.length + 1) = version :: payload :=
      List.take_left' rfl
    rw [hfront]
    rfl
  rw [hbytes, hbytes', hend, hend', htake, htake] at hpayload
  have hversion : version = version' := by
    have hfirst : (kindOf text).versionByte = some ((textBytes text).getD 0 0) :=
      versionToKind_iff.mp ⟨rfl, hframed.kind⟩
    have hsecond : (kindOf text).versionByte = some ((textBytes text').getD 0 0) :=
      versionToKind_iff.mp ⟨hkind.symm, hframed.kind⟩
    rw [hbytes] at hfirst
    rw [hbytes'] at hsecond
    exact Option.some.inj (hfirst.symm.trans hsecond)
  rw [hbytes] at hlt
  rw [hbytes'] at hlt'
  rw [hversion, hpayload] at hchecked
  have hsum : low ||| (high <<< 8) = low' ||| (high' <<< 8) := hchecked.symm.trans hchecked'
  have hparts := checksum_bytes high (hlt low (by simp))
  have hparts' := checksum_bytes high' (hlt' low' (by simp))
  rw [hsum] at hparts
  have hlow : low = low' := hparts.1.symm.trans hparts'.1
  have hhigh : high = high' := hparts.2.symm.trans hparts'.2
  rw [hbytes, hbytes', hversion, hpayload, hlow, hhigh]

theorem unusedBits_of_short {text : List Char} (hlength : text.length = 56) :
    unusedBits text = [] := by
  apply List.drop_eq_nil_of_le
  rw [length_bitString, List.length_map, length_textBytes, hlength]

theorem eq_iff_unusedBits {text text' : List Char} (hframed : IsFramed text)
    (hframed' : IsFramed text') (hkey : readKey text = readKey text') :
    text = text' ↔ unusedBits text = unusedBits text' := by
  apply Iff.intro
  · rintro rfl
    rfl
  · intro hunused
    have hbits : bitString 5 (text.map digitOf) = bitString 5 (text'.map digitOf) := by
      rw [bitString_eq, bitString_eq, textBytes_of_readKey hframed hframed' hkey, hunused]
    have hlength := congrArg List.length hbits
    rw [length_bitString, length_bitString, List.length_map, List.length_map] at hlength
    have hdigits := bitString_inj (by rw [List.length_map, List.length_map]; omega)
      (digits_lt hframed.isStrkeyText) (digits_lt hframed'.isStrkeyText) hbits
    have htext := congrArg (List.map letterOf) hdigits
    rwa [map_letterOf_digitOf hframed.isStrkeyText,
      map_letterOf_digitOf hframed'.isStrkeyText] at htext

/-- An accepted text that is not the text of a key: its length is not that of its kind, or an
unused bit is set. -/
def IsMisframed (text : List Char) : Prop :=
  IsFramed text ∧ (text.length ≠ (kindOf text).textLength ∨ true ∈ unusedBits text)

/-- The strings accepted as a kind are the texts of its keys, apart from the misframed ones. The
accounts among them have 56 characters, apart from those framed at the other length. Accepted
texts of one key are the same exactly if their unused bits are. -/
theorem classifyStellarAddress_canonical_iff (value : String) :
    ((∀ kind, (classifyStellarAddress value).valid = true ∧
        (classifyStellarAddress value).kind = kind ↔
          ∃ key : StellarKey, key.kind = kind ∧ key.text = value.toList) ↔
      ¬ IsMisframed value.toList) ∧
    ((isValidStellarAccountAddress value = true ↔ value.toList.length = 56 ∧
        ∃ key : StellarKey, key.kind = .account ∧ key.text = value.toList) ↔
      ¬ (IsFramed value.toList ∧ kindOf value.toList = .account ∧
        value.toList.length ≠ 56)) ∧
    ∀ value', (classifyStellarAddress value).valid = true →
      (classifyStellarAddress value').valid = true →
      readKey value.toList = readKey value'.toList →
      (value = value' ↔ unusedBits value.toList = unusedBits value'.toList) := by
  refine ⟨?classified, ?accounts, ?injective⟩
  case classified =>
    apply Iff.intro
    · rintro hall ⟨hframed, hdeviates⟩
      obtain ⟨-, -, hlength, hunused⟩ := exists_text_iff.mp
        ((hall (kindOf value.toList)).mp (classifyStellarAddress_iff.mpr ⟨hframed, rfl⟩))
      exact hdeviates.elim (fun h => h hlength) hunused
    · intro hcanonical kind
      rw [classifyStellarAddress_iff, exists_text_iff]
      apply Iff.intro
      · rintro ⟨hframed, rfl⟩
        exact ⟨hframed, rfl, by_contra fun h => hcanonical ⟨hframed, .inl h⟩,
          fun h => hcanonical ⟨hframed, .inr h⟩⟩
      · exact fun h => ⟨h.1, h.2.1⟩
  case accounts =>
    have haccepts : isValidStellarAccountAddress value = true ↔
        IsFramed value.toList ∧ kindOf value.toList = .account := by
      rw [isValidStellarAccountAddress, Bool.and_eq_true, decide_eq_true_eq,
        classifyStellarAddress_iff]
    rw [haccepts, exists_text_iff]
    apply Iff.intro
    · rintro hall ⟨hframed, hkind, hlength⟩
      exact hlength (hall.mp ⟨hframed, hkind⟩).1
    · intro hcanonical
      apply Iff.intro
      · rintro ⟨hframed, hkind⟩
        have hlength : value.toList.length = 56 :=
          by_contra fun h => hcanonical ⟨hframed, hkind, h⟩
        exact ⟨hlength, hframed, hkind, hlength, by rw [unusedBits_of_short hlength]; simp⟩
      · exact fun h => ⟨h.2.1, h.2.2.1⟩
  case injective =>
    intro value' hvalid hvalid' hkey
    have hframed := (classifyStellarAddress_iff.mp ⟨hvalid, rfl⟩).1
    have hframed' := (classifyStellarAddress_iff.mp ⟨hvalid', rfl⟩).1
    rw [← eq_iff_unusedBits hframed hframed' hkey, String.toList_inj]

/-- A multiplexed address and its twin, whose unused bit is set. -/
theorem classifyStellarAddress_twins :
    let address := "MAAAAAAAAAAAAAAAAAAAAAAAAAAAAAAAAAAAAAAAAAAAAAAAAAAAAAAAAAAAAAAAAB5IG"
    let twin := "MAAAAAAAAAAAAAAAAAAAAAAAAAAAAAAAAAAAAAAAAAAAAAAAAAAAAAAAAAAAAAAAAB5IH"
    classifyStellarAddress address = ⟨.muxed, true, none⟩ ∧
      classifyStellarAddress twin = ⟨.muxed, true, none⟩ ∧
      decodeStellarBase32 address = decodeStellarBase32 twin ∧ address ≠ twin ∧
      ¬ ∃ key : StellarKey, key.kind = .muxed ∧ key.text = twin.toList := by
  refine ⟨by decide +kernel, by decide +kernel, by decide +kernel, by decide, fun hkey => ?_⟩
  apply (exists_text_iff.mp hkey).2.2.2
  rw [unusedBits, length_textBytes]
  decide +kernel

end Fluxora.Validation
