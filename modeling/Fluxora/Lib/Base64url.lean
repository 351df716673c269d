/-
# Base64 with the URL alphabet

Three bytes are four digits of six bits; what is left at the end is two or three digits, and
nothing is padded. A reader takes the digits of both alphabets and passes over everything else,
so that it reads back what was written.
-/

import Fluxora.Lib.JsText

namespace Fluxora.Lib.Base64url

/-! ## Digits of six bits -/

/-- Bytes as digits of six bits. -/
def sixes : List ℕ → List ℕ
  | a :: b :: c :: rest =>
    a / 4 :: (a % 4 * 16 + b / 16) :: (b % 16 * 4 + c / 64) :: c % 64 :: sixes rest
  | [a, b] => [a / 4, a % 4 * 16 + b / 16, b % 16 * 4]
  | [a] => [a / 4, a % 4 * 16]
  | [] => []

/-- The bytes of digits of six bits. A single digit at the end is no byte. -/
def eights : List ℕ → List ℕ
  | w :: x :: y :: z :: rest =>
    (w * 4 + x / 16) :: (x % 16 * 16 + y / 4) :: (y % 4 * 64 + z) :: eights rest
  | [w, x, y] => [w * 4 + x / 16, x % 16 * 16 + y / 4]
  | [w, x] => [w * 4 + x / 16]
  | _ => []

theorem eights_sixes : ∀ bytes : List ℕ, (∀ b ∈ bytes, b < 256) → eights (sixes bytes) = bytes
  | a :: b :: c :: rest, h => by
    have ha := h a (by simp)
    have hb := h b (by simp)
    have hc := h c (by simp)
    have hrest := eights_sixes rest fun d hd => h d (by simp [hd])
    rw [sixes, eights, hrest]
    congr 1
    · omega
    · congr 1
      · omega
      · congr 1
        omega
  | [a, b], h => by
    have ha := h a (by simp)
    have hb := h b (by simp)
    rw [sixes, eights]
    congr 1
    · omega
    · congr 1
      omega
  | [a], h => by
    have ha := h a (by simp)
    rw [sixes, eights]
    congr 1
    omega
  | [], _ => rfl

theorem lt_of_mem_sixes : ∀ bytes : List ℕ, (∀ b ∈ bytes, b < 256) → ∀ n ∈ sixes bytes, n < 64
  | a :: b :: c :: rest, h, n, hn => by
    have ha := h a (by simp)
    have hb := h b (by simp)
    have hc := h c (by simp)
    rw [sixes] at hn
    simp only [List.mem_cons] at hn
    rcases hn with rfl | rfl | rfl | rfl | hn
    · omega
    · omega
    · omega
    · omega
    · exact lt_of_mem_sixes rest (fun d hd => h d (by simp [hd])) n hn
  | [a, b], h, n, hn => by
    have ha := h a (by simp)
    have hb := h b (by simp)
    rw [sixes] at hn
    simp only [List.mem_cons, List.not_mem_nil, or_false] at hn
    rcases hn with rfl | rfl | rfl <;> omega
  | [a], h, n, hn => by
    have ha := h a (by simp)
    rw [sixes] at hn
    simp only [List.mem_cons, List.not_mem_nil, or_false] at hn
    rcases hn with rfl | rfl <;> omega
  | [], _, _, hn => by cases hn

/-! ## Texts -/

def digit (n : ℕ) : Char :=
  if n < 26 then Char.ofNat (65 + n)
  else if n < 52 then Char.ofNat (71 + n)
  else if n < 62 then Char.ofNat (n - 4)
  else if n = 62 then '-'
  else '_'

/-- The value of a digit of either alphabet. -/
def digitValue (c : Char) : Option ℕ :=
  if c.isUpper then some (c.toNat - 65)
  else if c.isLower then some (c.toNat - 71)
  else if c.isDigit then some (c.toNat + 4)
  else if c = '-' ∨ c = '+' then some 62
  else if c = '_' ∨ c = '/' then some 63
  else none

theorem digitValue_digit : ∀ n < 64, digitValue (digit n) = some n := by decide

def encode (bytes : List UInt8) : List Char := (sixes (bytes.map UInt8.toNat)).map digit

def decode (text : List Char) : List UInt8 := (eights (text.filterMap digitValue)).map UInt8.ofNat

theorem filterMap_digits {values : List ℕ} (h : ∀ n ∈ values, n < 64) :
    (values.map digit).filterMap digitValue = values := by
  induction values with
  | nil => rfl
  | cons n _ ih =>
    rw [List.map_cons, List.filterMap_cons, digitValue_digit n (h n List.mem_cons_self),
      ih fun m hm => h m (List.mem_cons_of_mem _ hm)]

theorem decode_encode (bytes : List UInt8) : decode (encode bytes) = bytes := by
  have hbytes : ∀ b ∈ bytes.map UInt8.toNat, b < 256 := by
    intro b hb
    obtain ⟨byte, -, rfl⟩ := List.mem_map.mp hb
    exact byte.toNat_lt
  rw [decode, encode, filterMap_digits (lt_of_mem_sixes _ hbytes), eights_sixes _ hbytes,
    List.map_map]
  have hsame : (UInt8.ofNat ∘ UInt8.toNat) = id := funext fun byte => UInt8.ofNat_toNat
  rw [hsame, List.map_id]

theorem isWhiteSpace_digit : ∀ n < 64, JsText.isWhiteSpace (digit n) = false := by decide

theorem trim_encode_ne_nil {bytes : List UInt8} (h : bytes ≠ []) :
    JsText.trim (encode bytes) ≠ [] := by
  cases bytes with
  | nil => exact absurd rfl h
  | cons byte rest =>
    have hdigit : byte.toNat / 4 < 64 := by
      have hbyte := byte.toNat_lt
      omega
    obtain ⟨digits, hdigits⟩ :
        ∃ digits, sixes ((byte :: rest).map UInt8.toNat) = byte.toNat / 4 :: digits := by
      rw [List.map_cons]
      rcases rest with - | ⟨second, - | ⟨third, rest⟩⟩ <;> exact ⟨_, rfl⟩
    rw [encode, hdigits, List.map_cons]
    exact JsText.trim_ne_nil_of_head (isWhiteSpace_digit _ hdigit)

end Fluxora.Lib.Base64url
