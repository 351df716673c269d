/-
# Numbers as strings of bits

A number of a given width is the list of its bits, the highest one first. A list of numbers of one
width is read as numbers of another width by joining the bits and cutting them anew; what is left
at the end is filled up with zero bits by a writer, and passed over by a reader.
-/

import Mathlib.Data.List.Induction
import Mathlib.Data.Nat.Bitwise
import Mathlib.Data.Nat.ModEq
import Mathlib.Tactic.Ring

namespace Fluxora.Lib.BitString

/-! ## Bits of a number -/

/-- The lowest bits of a number, the highest of them first. -/
def toBits : ℕ → ℕ → List Bool
  | 0, _ => []
  | width + 1, n => toBits width (n / 2) ++ [decide (n % 2 = 1)]

def ofBits (bits : List Bool) : ℕ := bits.foldl (fun n bit => 2 * n + bit.toNat) 0

@[simp] theorem length_toBits (width n : ℕ) : (toBits width n).length = width := by
  induction width generalizing n with
  | zero => rfl
  | succ _ ih => rw [toBits, List.length_append, ih, List.length_singleton]

variable (bits : List Bool)

theorem ofBits_concat (bit : Bool) : ofBits (bits ++ [bit]) = 2 * ofBits bits + bit.toNat := by
  rw [ofBits, List.foldl_append, List.foldl_cons, List.foldl_nil, ofBits]

theorem ofBits_lt : ofBits bits < 2 ^ bits.length := by
  induction bits using List.reverseRecOn with
  | nil => decide
  | append_singleton _ bit =>
    have hbit : bit.toNat < 2 := Bool.toNat_lt bit
    rw [ofBits_concat, List.length_append, List.length_singleton, pow_succ]
    omega

theorem ofBits_toBits (width n : ℕ) : ofBits (toBits width n) = n % 2 ^ width := by
  induction width generalizing n with
  | zero => rw [toBits, pow_zero, Nat.mod_one]; rfl
  | succ _ ih =>
    have hbit : (decide (n % 2 = 1)).toNat = n % 2 := by
      cases Nat.mod_two_eq_zero_or_one n with
      | inl hzero => rw [hzero]; rfl
      | inr hone => rw [hone]; rfl
    rw [toBits, ofBits_concat, ih, hbit, pow_succ', Nat.mod_mul]
    ring

theorem toBits_ofBits : toBits bits.length (ofBits bits) = bits := by
  induction bits using List.reverseRecOn with
  | nil => rfl
  | append_singleton bits bit ih =>
    have hhalf : (2 * ofBits bits + bit.toNat) / 2 = ofBits bits := by
      have hbit : bit.toNat < 2 := Bool.toNat_lt bit
      omega
    have hlast : decide ((2 * ofBits bits + bit.toNat) % 2 = 1) = bit := by
      cases bit with
      | false => simp
      | true => simp [Nat.add_mod]
    rw [ofBits_concat, List.length_append, List.length_singleton, toBits, hhalf, ih, hlast]

theorem toBits_mod (width n : ℕ) : toBits width (n % 2 ^ width) = toBits width n := by
  have hbits := toBits_ofBits (toBits width n)
  rwa [length_toBits, ofBits_toBits] at hbits

theorem toBits_inj {width m n : ℕ} (hm : m < 2 ^ width) (hn : n < 2 ^ width)
    (h : toBits width m = toBits width n) : m = n := by
  have hvalues := congrArg ofBits h
  rwa [ofBits_toBits, ofBits_toBits, Nat.mod_eq_of_lt hm, Nat.mod_eq_of_lt hn] at hvalues

theorem toBits_add (high low n : ℕ) :
    toBits (high + low) n = toBits high (n / 2 ^ low) ++ toBits low n := by
  induction low generalizing n with
  | zero => rw [Nat.add_zero, pow_zero, Nat.div_one, toBits, List.append_nil]
  | succ _ ih =>
    rw [← Nat.add_assoc, toBits, ih, toBits, List.append_assoc, Nat.div_div_eq_div_mul,
      pow_succ']

theorem toBits_zero (width : ℕ) : toBits width 0 = List.replicate width false := by
  induction width with
  | zero => rfl
  | succ _ ih =>
    rw [toBits, Nat.zero_div, ih, List.replicate_succ']
    rfl

theorem toBits_xor (width m n : ℕ) :
    toBits width (m ^^^ n) = List.zipWith xor (toBits width m) (toBits width n) := by
  induction width generalizing m n with
  | zero => rfl
  | succ _ ih =>
    have hbit : decide ((m ^^^ n) % 2 = 1) = (decide (m % 2 = 1) ^^ decide (n % 2 = 1)) := by
      rw [Nat.xor_mod_two_eq, Nat.add_mod]
      cases Nat.mod_two_eq_zero_or_one m with
      | inl hm | inr hm => cases Nat.mod_two_eq_zero_or_one n with
        | inl hn => rw [hm, hn]; rfl
        | inr hn => rw [hm, hn]; rfl
    rw [toBits, toBits, toBits, Nat.xor_div_two, ih, hbit,
      List.zipWith_append (by rw [length_toBits, length_toBits])]
    rfl

theorem zipWith_xor_self : List.zipWith xor bits bits = List.replicate bits.length false := by
  induction bits with
  | nil => rfl
  | cons _ _ ih =>
    rw [List.zipWith_cons_cons, ih, Bool.xor_self, List.length_cons, List.replicate_succ]

/-! ## Bits of several numbers -/

section Strings

variable {width : ℕ}

def bitString (width : ℕ) (numbers : List ℕ) : List Bool := numbers.flatMap (toBits width)

/-- Cut bits into numbers; what is left at the end is passed over. -/
def groups (width : ℕ) (bits : List Bool) : List ℕ :=
  if 0 < width ∧ width ≤ bits.length then
    ofBits (bits.take width) :: groups width (bits.drop width)
  else []
termination_by bits.length
decreasing_by
  rw [List.length_drop]
  omega

@[simp] theorem length_bitString (numbers : List ℕ) :
    (bitString width numbers).length = width * numbers.length := by
  induction numbers with
  | nil => rfl
  | cons _ _ ih =>
    rw [bitString, List.flatMap_cons, List.length_append, length_toBits, List.length_cons,
      Nat.mul_succ, Nat.add_comm]
    exact congrArg (· + width) ih

theorem bitString_append (front back : List ℕ) :
    bitString width (front ++ back) = bitString width front ++ bitString width back :=
  List.flatMap_append

theorem bitString_cons (n : ℕ) (rest : List ℕ) :
    bitString width (n :: rest) = toBits width n ++ bitString width rest :=
  List.flatMap_cons

variable {numbers : List ℕ}

theorem bitString_inj {numbers' : List ℕ} (hlength : numbers.length = numbers'.length)
    (hlt : ∀ n ∈ numbers, n < 2 ^ width) (hlt' : ∀ n ∈ numbers', n < 2 ^ width)
    (h : bitString width numbers = bitString width numbers') : numbers = numbers' := by
  induction numbers generalizing numbers' with
  | nil => exact (List.length_eq_zero_iff.mp hlength.symm).symm
  | cons _ _ ih =>
    cases numbers' with
    | nil => cases hlength
    | cons =>
      rw [bitString_cons, bitString_cons] at h
      obtain ⟨hfirst, hrest⟩ := List.append_inj h (by rw [length_toBits, length_toBits])
      obtain ⟨hn, hlt⟩ := List.forall_mem_cons.mp hlt
      obtain ⟨hn', hlt'⟩ := List.forall_mem_cons.mp hlt'
      rw [toBits_inj hn hn' hfirst, ih (Nat.succ.inj hlength) hlt hlt' hrest]

theorem groups_short {bits : List Bool} (hshort : bits.length < width) :
    groups width bits = [] := by
  rw [groups, if_neg (by omega)]

theorem groups_append (hwidth : 0 < width) {front : List Bool} (hlength : front.length = width)
    (rest : List Bool) : groups width (front ++ rest) = ofBits front :: groups width rest := by
  rw [groups, if_pos ⟨hwidth, by rw [List.length_append]; omega⟩, List.take_left' hlength,
    List.drop_left' hlength]

theorem groups_bitString_append (hwidth : 0 < width) (hlt : ∀ n ∈ numbers, n < 2 ^ width)
    {rest : List Bool} (hrest : rest.length < width) :
    groups width (bitString width numbers ++ rest) = numbers := by
  induction numbers with
  | nil => exact groups_short hrest
  | cons n _ ih =>
    obtain ⟨hn, hnumbers⟩ := List.forall_mem_cons.mp hlt
    rw [bitString_cons, List.append_assoc, groups_append hwidth (length_toBits width n),
      ofBits_toBits, Nat.mod_eq_of_lt hn, ih hnumbers]

theorem exists_bitString_groups (hwidth : 0 < width) (bits : List Bool) :
    ∃ rest, rest.length < width ∧ bits = bitString width (groups width bits) ++ rest ∧
      ∀ n ∈ groups width bits, n < 2 ^ width := by
  fun_induction groups width bits with
  | case1 bits hlong ih =>
    obtain ⟨rest, hrest, hbits, hlt⟩ := ih
    have hlength : (bits.take width).length = width := List.length_take_of_le hlong.2
    refine ⟨rest, hrest, ?_, ?_⟩
    · have hfirst := toBits_ofBits (bits.take width)
      rw [hlength] at hfirst
      rw [bitString_cons, hfirst, List.append_assoc, ← hbits, List.take_append_drop]
    · have hvalue := ofBits_lt (bits.take width)
      rw [hlength] at hvalue
      exact List.forall_mem_cons.mpr ⟨hvalue, hlt⟩
  | case2 bits => exact ⟨bits, by omega, rfl, by simp⟩

/-! ## From one width to another -/

/-- The number of zero bits that fill up the last number. -/
def padding (width length : ℕ) : ℕ := (width - length % width) % width

/-- Numbers of one width written as numbers of another one. -/
def regroup (source target : ℕ) (numbers : List ℕ) : List ℕ :=
  groups target (bitString source numbers ++
    List.replicate (padding target (source * numbers.length)) false)

variable {source target : ℕ} (htarget : 0 < target)

include htarget

theorem padding_lt (length : ℕ) : padding target length < target := Nat.mod_lt _ htarget

theorem dvd_add_padding (length : ℕ) : target ∣ length + padding target length := by
  have hlt : length % target < target := Nat.mod_lt _ htarget
  rw [padding, Nat.dvd_iff_mod_eq_zero, Nat.add_mod_mod]
  have hsplit : length + (target - length % target) =
      target * (length / target) + target := by
    have hdiv := Nat.div_add_mod length target
    omega
  rw [hsplit, Nat.mul_add_mod_self_left, Nat.mod_self]

theorem eq_padding {length more : ℕ} (hmore : more < target) (hdvd : target ∣ length + more) :
    more = padding target length := by
  have hcongr : Nat.ModEq target (length + more) (length + padding target length) :=
    (Nat.modEq_zero_iff_dvd.mpr hdvd).trans
      (Nat.modEq_zero_iff_dvd.mpr (dvd_add_padding htarget length)).symm
  exact (Nat.ModEq.add_left_cancel' length hcongr).eq_of_lt_of_lt hmore
    (padding_lt htarget length)

theorem bitString_regroup (source : ℕ) (numbers : List ℕ) :
    bitString target (regroup source target numbers) = bitString source numbers ++
      List.replicate (padding target (source * numbers.length)) false := by
  obtain ⟨rest, hshort, hbits, -⟩ := exists_bitString_groups htarget (bitString source numbers ++
    List.replicate (padding target (source * numbers.length)) false)
  have hrest : rest = [] := by
    have hlength := congrArg List.length hbits
    rw [List.length_append, List.length_append, length_bitString, length_bitString,
      List.length_replicate] at hlength
    have hdvd : target ∣ rest.length := by
      apply (Nat.dvd_add_right (Nat.dvd_mul_right target _)).mp
      rw [← hlength]
      exact dvd_add_padding htarget _
    exact List.length_eq_zero_iff.mp (Nat.eq_zero_of_dvd_of_lt hdvd hshort)
  rw [regroup]
  rw [hrest, List.append_nil] at hbits
  exact hbits.symm

theorem lt_of_mem_regroup {n : ℕ} (hn : n ∈ regroup source target numbers) : n < 2 ^ target := by
  obtain ⟨-, -, -, hlt⟩ := exists_bitString_groups htarget (bitString source numbers ++
    List.replicate (padding target (source * numbers.length)) false)
  exact hlt n hn

theorem groups_bitString_regroup (hsource : 0 < source) (hlt : ∀ n ∈ numbers, n < 2 ^ source)
    (hpadding : padding target (source * numbers.length) < source) :
    groups source (bitString target (regroup source target numbers)) = numbers := by
  rw [bitString_regroup htarget]
  exact groups_bitString_append hsource hlt (by rwa [List.length_replicate])

/-- A text is what is written of the numbers read from it exactly if it has no more bits behind
them than needed, all of them zero. -/
theorem regroup_groups_iff {digits : List ℕ}
    (hlt : ∀ digit ∈ digits, digit < 2 ^ target) :
    regroup source target (groups source (bitString target digits)) = digits ↔
      ∃ more < target, bitString target digits =
        bitString source (groups source (bitString target digits)) ++
          List.replicate more false := by
  apply Iff.intro
  · intro hdigits
    have hbits := bitString_regroup htarget source (groups source (bitString target digits))
    rw [hdigits] at hbits
    exact ⟨_, padding_lt htarget _, hbits⟩
  · rintro ⟨more, hmore, hbits⟩
    have hlength := congrArg List.length hbits
    rw [length_bitString, List.length_append, length_bitString, List.length_replicate] at hlength
    have hdvd : target ∣
        source * (groups source (bitString target digits)).length + more := ⟨_, hlength.symm⟩
    rw [eq_padding htarget hmore hdvd] at hbits
    rw [regroup, ← hbits]
    have hnone : ([] : List Bool).length < target := htarget
    have hread := groups_bitString_append htarget hlt hnone
    rwa [List.append_nil] at hread

end Strings

end Fluxora.Lib.BitString
