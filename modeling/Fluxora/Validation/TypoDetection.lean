/-
# Typing errors in an address

The bits of an address of 56 characters are those of its frame and of the checksum, whose two
bytes are stored in swapped order. The difference of the checksum stored from the one computed is
linear in the bits, and zero for an accepted address.

A wrong character changes up to five neighbouring bits, and two swapped characters up to ten.
-/

import Fluxora.Validation.StrKey

namespace Fluxora.Validation

open Lib Lib.BitString

/-! ## The difference of the checksums -/

/-- The two bytes of a register, swapped. -/
def swapBytes (register : BitVec 16) : BitVec 16 := (register <<< 8) ^^^ (register >>> 8)

theorem swapBytes_xor (a b : BitVec 16) : swapBytes (a ^^^ b) = swapBytes a ^^^ swapBytes b := by
  rw [swapBytes, BitVec.shiftLeft_xor_distrib, BitVec.ushiftRight_xor_distrib, swapBytes, swapBytes]
  ac_rfl

theorem swapBytes_zero : swapBytes 0#16 = 0#16 := rfl

theorem swapBytes_eq_zero {register : BitVec 16} (hzero : swapBytes register = 0#16) :
    register = 0#16 := by
  have hbits : ∀ i, (swapBytes register).getLsbD i = false := by
    rw [hzero]
    exact fun i => BitVec.getLsbD_zero
  apply BitVec.eq_of_getLsbD_eq
  intro i hi
  rw [BitVec.getLsbD_zero]
  by_cases hlow : i < 8
  · have hup := hbits (i + 8)
    rw [swapBytes, BitVec.getLsbD_xor, BitVec.getLsbD_shiftLeft, BitVec.getLsbD_ushiftRight,
      BitVec.getLsbD_of_ge register (8 + (i + 8)) (by omega)] at hup
    simpa [show i + 8 < 16 by omega] using hup
  · have hdown := hbits (i - 8)
    rw [swapBytes, BitVec.getLsbD_xor, BitVec.getLsbD_shiftLeft,
      BitVec.getLsbD_ushiftRight] at hdown
    simpa [show i - 8 < 8 by omega, show 8 + (i - 8) = i by omega] using hdown

/-- The number of bits of a frame with a payload of 32 bytes. -/
def frameBits : ℕ := 8 * stellarStrkeyPayloadLength

/-- The checksum computed of the frame and the one stored behind it, added. -/
def syndrome (bits : List Bool) : BitVec 16 :=
  Crc.crc crcPolynomial (bits.take frameBits) ^^^ swapBytes (Crc.aligned (bits.drop frameBits))

theorem syndrome_xor {bits bits' : List Bool} (hlength : bits.length = bits'.length) :
    syndrome (List.zipWith xor bits bits') = syndrome bits ^^^ syndrome bits' := by
  rw [syndrome, List.take_zipWith, List.drop_zipWith,
    Crc.crc_xor (by rw [List.length_take, List.length_take, hlength]),
    Crc.aligned_xor (by rw [List.length_drop, List.length_drop, hlength]), swapBytes_xor,
    syndrome, syndrome]
  ac_rfl

theorem low_or_high {low : ℕ} (high : ℕ) (hlow : low < 256) :
    low ||| (high <<< 8) = low ^^^ (high <<< 8) := by
  apply Nat.eq_of_testBit_eq
  intro i
  rw [Nat.testBit_or, Nat.testBit_xor, Nat.testBit_shiftLeft]
  by_cases hbelow : i < 8
  · have hnone : decide (i ≥ 8) = false := decide_eq_false (not_le.mpr hbelow)
    rw [hnone, Bool.false_and, Bool.or_false, Bool.xor_false]
  · have hnone : low.testBit i = false := by
      apply Nat.testBit_lt_two_pow
      exact lt_of_lt_of_le hlow (Nat.pow_le_pow_right Nat.two_pos (not_lt.mp hbelow))
    rw [hnone, Bool.false_or, Bool.false_xor]

theorem swapBytes_aligned {low high : ℕ} (hlow : low < 256) (hhigh : high < 256) :
    swapBytes (Crc.aligned (toBits 8 low ++ toBits 8 high)) =
      BitVec.ofNat 16 (low ||| (high <<< 8)) := by
  have hfirst : ∀ byte < 256, swapBytes (BitVec.ofNat 16 (byte <<< 8)) = BitVec.ofNat 16 byte := by
    decide +kernel
  have hsecond : ∀ byte < 256, swapBytes (BitVec.ofNat 16 (byte <<< 8) >>> 8) =
      BitVec.ofNat 16 (byte <<< 8) := by decide +kernel
  rw [Crc.aligned_append, length_toBits, aligned_byte low hlow, aligned_byte high hhigh,
    swapBytes_xor, hfirst low hlow, hsecond high hhigh, low_or_high high hlow, BitVec.ofNat_xor]

variable {text : List Char}

theorem syndrome_of_isFramed (hframed : IsFramed text) (hlength : text.length = 56) :
    syndrome (bitString 5 (text.map digitOf)) = 0#16 := by
  obtain ⟨version, payload, low, high, hbytes, hend, hlt, hchecked⟩ := hframed.exists_bytes
  have hpayload : payload.length = 32 := by
    rw [payloadEnd, hlength] at hend
    exact (Nat.succ.inj hend).symm
  rw [hbytes] at hlt
  have hbits : bitString 5 (text.map digitOf) =
      bitString 8 (version :: payload) ++ (toBits 8 low ++ toBits 8 high) := by
    rw [bitString_eq, unusedBits_of_short hlength, List.append_nil, hbytes, bitString_append,
      bitString_cons low, bitString_cons high]
    simp [bitString]
  have hframe : (bitString 8 (version :: payload)).length = frameBits := by
    rw [length_bitString, List.length_cons, hpayload]
    rfl
  have hsum : Crc.crc crcPolynomial (bitString 8 (version :: payload)) =
      BitVec.ofNat 16 (low ||| (high <<< 8)) := by
    rw [crc16XModem_eq fun byte hbyte => hlt byte (List.mem_append_left _ hbyte)] at hchecked
    rw [← hchecked, BitVec.ofNat_toNat, BitVec.setWidth_eq]
  rw [hbits, syndrome, List.take_left' hframe, List.drop_left' hframe, hsum,
    swapBytes_aligned (hlt low (by simp)) (hlt high (by simp)), BitVec.xor_self]

/-! ## Bursts of errors -/

/-- The difference that `count` characters in a row make, each of which changes by `change`. -/
def burstAt (before count change after : ℕ) : List Bool :=
  List.replicate (5 * before) false ++ bitString 5 (List.replicate count change) ++
    List.replicate (5 * after) false

variable {change : ℕ}

theorem toBits_ne_zeros (hlt : change < 32) (hne : change ≠ 0) : true ∈ toBits 5 change := by
  by_contra hnone
  have hzeros : toBits 5 change = toBits 5 0 := by
    rw [toBits_zero, List.eq_replicate_iff]
    refine ⟨length_toBits 5 change, fun bit hbit => ?_⟩
    cases bit with
    | false => rfl
    | true => exact absurd hbit hnone
  exact hne (toBits_inj hlt (by decide) hzeros)

theorem aligned_zeros (n : ℕ) : (Crc.aligned (List.replicate n false) : BitVec 16) = 0#16 := by
  induction n with
  | zero => rfl
  | succ _ ih =>
    rw [List.replicate_succ, Crc.aligned, ih]
    rfl

theorem syndrome_border : ∀ change < 32, change ≠ 0 →
    syndrome (burstAt 52 1 change 3) ≠ 0#16 ∧ syndrome (burstAt 51 2 change 3) ≠ 0#16 ∧
      syndrome (burstAt 52 2 change 2) ≠ 0#16 := by
  decide +kernel

theorem syndrome_burstAt_ne_zero {before count after : ℕ} (hcount : count = 1 ∨ count = 2)
    (hlength : before + count + after = 56) (hlt : change < 32) (hne : change ≠ 0) :
    syndrome (burstAt before count change after) ≠ 0#16 := by
  have hsize : (bitString 5 (List.replicate count change)).length = 5 * count := by
    rw [length_bitString, List.length_replicate]
  have hset : true ∈ bitString 5 (List.replicate count change) := by
    apply List.mem_flatMap.mpr
    exact ⟨change, List.mem_replicate.mpr ⟨by omega, rfl⟩, toBits_ne_zeros hlt hne⟩
  have hframe : frameBits = 264 := rfl
  by_cases hinside : 5 * (before + count) ≤ frameBits
  · have hsplit : List.replicate (5 * after) false =
        List.replicate (frameBits - 5 * (before + count)) false ++ List.replicate 16 false := by
      rw [← List.replicate_add]
      congr 1
      omega
    have hfront : (List.replicate (5 * before) false ++
        bitString 5 (List.replicate count change) ++
          List.replicate (frameBits - 5 * (before + count)) false).length = frameBits := by
      rw [List.length_append, List.length_append, hsize, List.length_replicate,
        List.length_replicate]
      omega
    rw [burstAt, hsplit, ← List.append_assoc, syndrome, List.take_left' hfront,
      List.drop_left' hfront, aligned_zeros, swapBytes_zero, BitVec.xor_zero]
    exact Crc.crc_burst_ne_zero (by decide) (by omega) hset _ _
  by_cases hbehind : frameBits ≤ 5 * before
  · have hsplit : List.replicate (5 * before) false =
        List.replicate frameBits false ++ List.replicate (5 * before - frameBits) false := by
      rw [← List.replicate_add, Nat.add_sub_cancel' hbehind]
    have hzeros : Crc.crc crcPolynomial (List.replicate frameBits false) = 0#16 := by
      rw [Crc.crc, Crc.crcFrom_zeros, Crc.iterate_shift_zero]
    rw [burstAt, hsplit, List.append_assoc, List.append_assoc, syndrome,
      List.take_left' List.length_replicate, List.drop_left' List.length_replicate, hzeros,
      BitVec.zero_xor]
    intro hzero
    have hnone := Crc.aligned_eq_zero (by simp [hsize]; omega) (swapBytes_eq_zero hzero) true
      (List.mem_append_right _ (List.mem_append_left _ hset))
    exact absurd hnone (by decide)
  · -- the border is inside one of the characters
    obtain ⟨hone, htwo, hlast⟩ := syndrome_border change hlt hne
    obtain ⟨rfl, rfl, rfl⟩ | ⟨rfl, rfl, rfl⟩ | ⟨rfl, rfl, rfl⟩ :
        (before = 52 ∧ count = 1 ∧ after = 3) ∨ (before = 51 ∧ count = 2 ∧ after = 3) ∨
          (before = 52 ∧ count = 2 ∧ after = 2) := by omega
    · exact hone
    · exact htwo
    · exact hlast

/-! ## Two accepted addresses -/

theorem digitOf_lt (hframed : IsFramed text) {c : Char} (hc : c ∈ text) : digitOf c < 32 :=
  (digitOf_spec (alphabet_of_isStrkeyText hframed.isStrkeyText c hc)).2.1

theorem digitOf_inj {text' : List Char} (hframed : IsFramed text) (hframed' : IsFramed text')
    {c c' : Char} (hc : c ∈ text) (hc' : c' ∈ text') (hsame : digitOf c = digitOf c') : c = c' := by
  rw [← (digitOf_spec (alphabet_of_isStrkeyText hframed.isStrkeyText c hc)).2.2, hsame,
    (digitOf_spec (alphabet_of_isStrkeyText hframed'.isStrkeyText c' hc')).2.2]

theorem difference_eq (front back : List ℕ) {window window' : List ℕ}
    (hwindow : List.zipWith xor (bitString 5 window) (bitString 5 window') = bitString 5
      (List.replicate window.length change)) (hsize : window.length = window'.length) :
    List.zipWith xor (bitString 5 (front ++ window ++ back))
        (bitString 5 (front ++ window' ++ back)) =
      burstAt front.length window.length change back.length := by
  rw [bitString_append, bitString_append, bitString_append, bitString_append,
    List.zipWith_append, List.zipWith_append, zipWith_xor_self, zipWith_xor_self, hwindow, burstAt,
    length_bitString, length_bitString]
  · rfl
  · rw [List.length_append, List.length_append, length_bitString, length_bitString,
      length_bitString, hsize]

theorem change_eq_zero {front window window' back : List Char} (change : ℕ)
    (hframed : IsFramed (front ++ window ++ back)) (hframed' : IsFramed (front ++ window' ++ back))
    (hlength : (front ++ window ++ back).length = 56) (hsize : window.length = window'.length)
    (hcount : window.length = 1 ∨ window.length = 2) (hlt : change < 32)
    (hwindow : List.zipWith xor (bitString 5 (window.map digitOf))
        (bitString 5 (window'.map digitOf)) =
      bitString 5 (List.replicate window.length change)) : change = 0 := by
  have hlength' : (front ++ window' ++ back).length = 56 := by
    rw [← hlength, List.length_append, List.length_append, List.length_append, List.length_append,
      hsize]
  have hzero : syndrome (burstAt front.length window.length change back.length) = 0#16 := by
    have hdifference := difference_eq (front.map digitOf) (back.map digitOf) (hwindow.trans (by
      rw [List.length_map])) (by rw [List.length_map, List.length_map, hsize])
    rw [List.length_map, List.length_map, List.length_map, ← List.map_append, ← List.map_append,
      ← List.map_append, ← List.map_append] at hdifference
    rw [← hdifference, syndrome_xor, syndrome_of_isFramed hframed hlength,
      syndrome_of_isFramed hframed' hlength', BitVec.xor_self]
    rw [length_bitString, length_bitString, List.length_map, List.length_map, hlength, hlength']
  by_contra hne
  have hparts : front.length + window.length + back.length = 56 := by
    rw [← hlength, List.length_append, List.length_append]
  exact syndrome_burstAt_ne_zero hcount hparts hlt hne hzero

/-! ## Main results -/

/-- An address of 56 characters is refused when one of them is typed wrong, and when two
neighbours that differ are swapped. -/
theorem classifyStellarAddress_detects_typo (value : String) (hlength : value.toList.length = 56)
    (hvalid : (classifyStellarAddress value).valid = true) :
    (∀ front c c' back, value.toList = front ++ c :: back → c' ≠ c →
      (classifyStellarAddress (String.ofList (front ++ c' :: back))).valid = false) ∧
    ∀ front c d back, value.toList = front ++ c :: d :: back → c ≠ d →
      (classifyStellarAddress (String.ofList (front ++ d :: c :: back))).valid = false := by
  have hframed := (classifyStellarAddress_iff.mp ⟨hvalid, rfl⟩).1
  have hframed_of : ∀ text : List Char,
      (classifyStellarAddress (String.ofList text)).valid = true → IsFramed text := by
    intro text htext
    have hread := (classifyStellarAddress_iff.mp ⟨htext, rfl⟩).1
    rwa [String.toList_ofList] at hread
  apply And.intro
  · intro front c c' back htext hne
    rw [← Bool.not_eq_true]
    intro htyped
    have hframed' := hframed_of _ htyped
    rw [htext] at hframed hlength
    have hc := digitOf_lt hframed (c := c) (by simp)
    have hc' := digitOf_lt hframed' (c := c') (by simp)
    rw [List.append_cons] at hframed hframed' hlength
    have hzero := change_eq_zero (digitOf c ^^^ digitOf c') hframed hframed' hlength rfl (.inl rfl)
      (Nat.xor_lt_two_pow (n := 5) hc hc')
      (by simpa [bitString] using (toBits_xor 5 (digitOf c) (digitOf c')).symm)
    exact hne (digitOf_inj hframed' hframed (by simp) (by simp) (Nat.xor_eq_zero_iff.mp hzero).symm)
  · intro front c d back htext hne
    rw [← Bool.not_eq_true]
    intro htyped
    have hframed' := hframed_of _ htyped
    rw [htext] at hframed hlength
    have hc := digitOf_lt hframed (c := c) (by simp)
    have hd := digitOf_lt hframed (c := d) (by simp)
    have hsplit : ∀ c d : Char, front ++ c :: d :: back = front ++ [c, d] ++ back := by
      intro c d
      rw [List.append_assoc]
      rfl
    rw [hsplit] at hframed hframed' hlength
    have hzero := change_eq_zero (digitOf c ^^^ digitOf d) hframed hframed' hlength rfl (.inr rfl)
      (Nat.xor_lt_two_pow (n := 5) hc hd) (by
        have hback := toBits_xor 5 (digitOf d) (digitOf c)
        rw [Nat.xor_comm] at hback
        simp only [List.map_cons, List.map_nil, bitString_cons, List.length_cons, List.length_nil,
          List.replicate_succ, List.replicate_zero]
        rw [List.zipWith_append (by rw [length_toBits, length_toBits]), ← toBits_xor,
          List.zipWith_append (by rw [length_toBits, length_toBits]), ← hback]
        rfl)
    exact hne (digitOf_inj hframed hframed' (by simp) (by simp) (Nat.xor_eq_zero_iff.mp hzero))

theorem classifyStellarAddress_detects_typo_account :
    let address := "GAAREIZUIVLGO6EJTKV3ZTO654ABCIRTIRKWM54ITGVLXTG5537RAI5F"
    (classifyStellarAddress address).valid = true ∧
      (classifyStellarAddress
        "GAAREIZUIVLGO6EJTKV3ZTO654ABCIRTIRKWM54ITGVLXTG5537QAI5F").valid = false ∧
      (classifyStellarAddress
        "GAAREIZUIVLGO6EJTKV3ZTO654ABCIRTIRKWM54ITGVLXTG5537ARI5F").valid = false := by
  have hvalid : (classifyStellarAddress
      "GAAREIZUIVLGO6EJTKV3ZTO654ABCIRTIRKWM54ITGVLXTG5537RAI5F").valid = true := by
    decide +kernel
  obtain ⟨hreplaced, hswapped⟩ := classifyStellarAddress_detects_typo
    "GAAREIZUIVLGO6EJTKV3ZTO654ABCIRTIRKWM54ITGVLXTG5537RAI5F" (by decide) hvalid
  exact ⟨hvalid,
    hreplaced "GAAREIZUIVLGO6EJTKV3ZTO654ABCIRTIRKWM54ITGVLXTG5537".toList 'R' 'Q' "AI5F".toList
      (by decide) (by decide),
    hswapped "GAAREIZUIVLGO6EJTKV3ZTO654ABCIRTIRKWM54ITGVLXTG5537".toList 'R' 'A' "I5F".toList
      (by decide) (by decide)⟩

end Fluxora.Validation
