/-
# Bytes of a text

The UTF-8 bytes of a text, and the text of any bytes: bytes that are no character are read as
one replacement character for the longest beginning of a character, as decoders do it.
-/

import Mathlib.Data.List.Basic

namespace Fluxora.Lib.Utf8

def replacementCharacter : Char := Char.ofNat 0xFFFD

def bytes (text : List Char) : List UInt8 := text.flatMap String.utf8EncodeChar

def isContinuation (byte : UInt8) : Bool := 0x80 ≤ byte && byte < 0xC0

/-- Whether a byte can be the second one of a character of three or four bytes. -/
def canFollow (first second : UInt8) : Bool :=
  if first = 0xE0 then 0xA0 ≤ second && second < 0xC0
  else if first = 0xED then 0x80 ≤ second && second < 0xA0
  else if first = 0xF0 then 0x90 ≤ second && second < 0xC0
  else if first = 0xF4 then 0x80 ≤ second && second < 0x90
  else 0xE0 < first && first < 0xF4 && isContinuation second

/-- The number of bytes that one replacement character stands for. -/
def brokenLength : List UInt8 → ℕ
  | first :: second :: rest =>
    if canFollow first second then
      if 0xF0 ≤ first ∧ rest.head?.any isContinuation then 3 else 2
    else 1
  | _ => 1

/-- Read the rest of the bytes from a position. The fuel need not exceed their number. -/
def replaceFrom (all : ByteArray) : ℕ → ℕ → List Char
  | 0, _ => []
  | fuel + 1, position =>
    if position < all.size then
      match all.utf8DecodeChar? position with
      | some c => c :: replaceFrom all fuel (position + c.utf8Size)
      | none =>
        replacementCharacter ::
          replaceFrom all fuel (position + brokenLength (all.data.toList.drop position))
    else []

def read (bytes : List UInt8) : List Char :=
  let all := bytes.toByteArray
  match all.utf8Decode? with
  | some text => text.toList
  | none => replaceFrom all all.size 0

theorem read_bytes (text : List Char) : read (bytes text) = text := by
  have hdecoded : (bytes text).toByteArray.utf8Decode? = some text.toArray :=
    List.utf8Decode?_utf8Encode
  simp only [read, hdecoded]

theorem bytes_append (text text' : List Char) : bytes (text ++ text') = bytes text ++ bytes text' :=
  List.flatMap_append

theorem bytes_inj {text text' : List Char} (h : bytes text = bytes text') : text = text' := by
  rw [← read_bytes text, h, read_bytes]

theorem byte_utf8EncodeChar {c : Char} {byte : UInt8} (hmem : byte ∈ String.utf8EncodeChar c) :
    byte.toNat = c.toNat ∨ 0x80 ≤ byte.toNat := by
  rw [String.utf8EncodeChar] at hmem
  split_ifs at hmem with hascii
  · left
    rw [List.mem_singleton.mp hmem, UInt8.toNat_ofNat']
    exact Nat.mod_eq_of_lt (by omega)
  all_goals
    right
    simp only [List.mem_cons, List.not_mem_nil, or_false] at hmem
    rcases hmem with rfl | rfl | rfl | rfl <;> rw [UInt8.toNat_ofNat'] <;> omega

theorem mem_of_mem_bytes {d : Char} (hd : d.toNat < 0x80) {text : List Char}
    (hmem : UInt8.ofNat d.toNat ∈ bytes text) : d ∈ text := by
  obtain ⟨c, hc, hbyte⟩ := List.mem_flatMap.mp hmem
  have hvalue : (UInt8.ofNat d.toNat).toNat = d.toNat :=
    UInt8.toNat_ofNat_of_lt' (by rw [UInt8.size]; omega)
  have hchar : d = c := by
    rcases byte_utf8EncodeChar hbyte with heq | hbeyond
    · exact Char.toNat_inj.mp (hvalue.symm.trans heq)
    · omega
  exact hchar ▸ hc

end Fluxora.Lib.Utf8
