/-
# Cyclic redundancy checks

A register of some width takes one bit after the other, the highest bit first: the bit is added
to the top of the register, which is then shifted, and the polynomial is added for a bit that
falls out. The register starts at zero.

The check is linear. If the polynomial is odd a shift loses nothing, so that a burst of errors
no longer than the register is never missed, wherever it stands.
-/

import Mathlib.Logic.Function.Iterate
import Mathlib.Tactic.Common

namespace Fluxora.Lib.Crc

variable {width : ℕ}

/-! ## The register -/

/-- A pattern, taken once for a bit. -/
def times (bit : Bool) (pattern : BitVec width) : BitVec width := if bit then pattern else 0#(width)

def shift (poly register : BitVec width) : BitVec width :=
  (register <<< 1) ^^^ times register.msb poly

/-- A bit at the top of the register. -/
def top (bit : Bool) : BitVec width := times bit (BitVec.twoPow width (width - 1))

def feed (poly register : BitVec width) (bit : Bool) : BitVec width :=
  shift poly (register ^^^ top bit)

def crcFrom (poly register : BitVec width) (bits : List Bool) : BitVec width :=
  bits.foldl (feed poly) register

def crc (poly : BitVec width) (bits : List Bool) : BitVec width := crcFrom poly 0#(width) bits

/-- Some bits at the top of the register, the first one highest. -/
def aligned : List Bool → BitVec width
  | [] => 0#(width)
  | bit :: rest => top bit ^^^ (aligned rest >>> 1)

variable {poly : BitVec width} {bits bits' : List Bool}

/-! ## Linearity -/

theorem times_xor (a b : Bool) (pattern : BitVec width) :
    times (a ^^ b) pattern = times a pattern ^^^ times b pattern := by
  cases a <;> cases b <;> simp [times]

theorem shift_zero : shift poly 0#(width) = 0#(width) := by
  simp [shift, times]

theorem shift_xor (a b : BitVec width) :
    shift poly (a ^^^ b) = shift poly a ^^^ shift poly b := by
  rw [shift, BitVec.msb_xor, times_xor, BitVec.shiftLeft_xor_distrib, shift, shift]
  ac_rfl

theorem feed_xor (a b : BitVec width) (bit bit' : Bool) :
    feed poly (a ^^^ b) (bit ^^ bit') = feed poly a bit ^^^ feed poly b bit' := by
  rw [feed, feed, feed, ← shift_xor, top, times_xor]
  congr 1
  ac_rfl

theorem crcFrom_xor (hlength : bits.length = bits'.length)
    (a b : BitVec width) : crcFrom poly (a ^^^ b) (List.zipWith xor bits bits') =
      crcFrom poly a bits ^^^ crcFrom poly b bits' := by
  induction bits generalizing bits' a b with
  | nil =>
    rw [List.length_eq_zero_iff.mp hlength.symm]
    rfl
  | cons bit bits ih =>
    cases bits' with
    | nil => cases hlength
    | cons bit' bits' =>
      rw [List.zipWith_cons_cons, crcFrom, List.foldl_cons]
      change crcFrom poly (feed poly (a ^^^ b) (bit ^^ bit')) (List.zipWith xor bits bits') = _
      rw [feed_xor, ih (Nat.succ.inj hlength)]
      rfl

theorem crc_xor (hlength : bits.length = bits'.length) :
    crc poly (List.zipWith xor bits bits') = crc poly bits ^^^ crc poly bits' := by
  have hzero : crcFrom poly (0#(width) ^^^ 0#(width)) (List.zipWith xor bits bits') =
      crcFrom poly 0#(width) bits ^^^ crcFrom poly 0#(width) bits' := crcFrom_xor hlength _ _
  rwa [BitVec.xor_zero] at hzero

variable (register : BitVec width)

theorem crcFrom_append (front back : List Bool) :
    crcFrom poly register (front ++ back) = crcFrom poly (crcFrom poly register front) back :=
  List.foldl_append

/-! ## Zero bits -/

theorem feed_false : feed poly register false = shift poly register := by
  rw [feed, top, times, if_neg Bool.false_ne_true, BitVec.xor_zero]

theorem crcFrom_zeros (n : ℕ) :
    crcFrom poly register (List.replicate n false) = (shift poly)^[n] register := by
  induction n generalizing register with
  | zero => rfl
  | succ _ ih =>
    rw [List.replicate_succ, crcFrom, List.foldl_cons, feed_false, Function.iterate_succ_apply]
    exact ih _

theorem iterate_shift_zero (n : ℕ) : (shift poly)^[n] 0#(width) = 0#(width) := by
  induction n with
  | zero => rfl
  | succ _ ih => rw [Function.iterate_succ_apply, shift_zero, ih]

theorem crc_zeros_append (n : ℕ) (bits : List Bool) :
    crc poly (List.replicate n false ++ bits) = crc poly bits := by
  rw [crc, crcFrom_append, crcFrom_zeros, iterate_shift_zero, crc]

/-! ## Bursts -/

theorem shift_eq_zero (hodd : poly.getLsbD 0 = true) {register : BitVec width}
    (hzero : shift poly register = 0#(width)) : register = 0#(width) := by
  have hbit : ∀ i, (shift poly register).getLsbD i = false := by
    rw [hzero]
    exact fun i => BitVec.getLsbD_zero
  have hmsb : register.msb = false := by
    have hlow := hbit 0
    rw [shift, BitVec.getLsbD_xor, BitVec.getLsbD_shiftLeft] at hlow
    cases hmsb : register.msb with
    | false => rfl
    | true =>
      rw [hmsb] at hlow
      simp [times, hodd] at hlow
  apply BitVec.eq_of_getLsbD_eq
  intro i hi
  rw [BitVec.getLsbD_zero]
  by_cases hlast : i = width - 1
  · rw [hlast, ← BitVec.msb_eq_getLsbD_last, hmsb]
  · have hnext := hbit (i + 1)
    rw [shift, hmsb, times, if_neg Bool.false_ne_true, BitVec.xor_zero,
      BitVec.getLsbD_shiftLeft] at hnext
    simpa [show i + 1 < width by omega] using hnext

theorem iterate_shift_eq_zero (hodd : poly.getLsbD 0 = true) (n : ℕ) {register : BitVec width}
    (hzero : (shift poly)^[n] register = 0#(width)) : register = 0#(width) := by
  induction n generalizing register with
  | zero => exact hzero
  | succ _ ih => exact shift_eq_zero hodd (ih hzero)

theorem getLsbD_top (bit : Bool) (i : ℕ) :
    (top bit : BitVec width).getLsbD i = (bit && decide (i + 1 = width)) := by
  cases bit with
  | false => simp [top, times]
  | true =>
    rw [top, times, if_pos rfl, BitVec.getLsbD_twoPow, Bool.true_and, ← Bool.decide_and]
    apply decide_eq_decide.mpr
    omega

theorem getLsbD_aligned {i : ℕ} (hi : i + bits.length < width) :
    (aligned bits : BitVec width).getLsbD i = false := by
  induction bits generalizing i with
  | nil => exact BitVec.getLsbD_zero
  | cons _ _ ih =>
    rw [List.length_cons] at hi
    rw [aligned, BitVec.getLsbD_xor, getLsbD_top, BitVec.getLsbD_ushiftRight,
      ih (by omega), decide_eq_false (by omega), Bool.and_false, Bool.xor_false]

theorem shift_ushiftRight {register : BitVec width} (hlow : register.getLsbD 0 = false) :
    shift poly (register >>> 1) = register := by
  have hmsb : (register >>> 1).msb = false := by
    rw [BitVec.msb_ushiftRight]
    simp
  rw [shift, hmsb, times, if_neg Bool.false_ne_true, BitVec.xor_zero]
  apply BitVec.eq_of_getLsbD_eq
  intro i hi
  rw [BitVec.getLsbD_shiftLeft, BitVec.getLsbD_ushiftRight]
  cases i with
  | zero => simp [hlow]
  | succ => simp [hi, Nat.add_comm]

theorem crcFrom_eq_aligned (hfits : bits.length ≤ width) (register : BitVec width) :
    crcFrom poly register bits = (shift poly)^[bits.length] (register ^^^ aligned bits) := by
  induction bits generalizing register with
  | nil => rw [aligned, BitVec.xor_zero]; rfl
  | cons bit rest ih =>
    rw [List.length_cons] at hfits
    rw [crcFrom, List.foldl_cons]
    change crcFrom poly (feed poly register bit) rest = _
    rw [ih (by omega), List.length_cons, Function.iterate_succ_apply, aligned,
      ← BitVec.xor_assoc, shift_xor, shift_ushiftRight (getLsbD_aligned (by omega)), feed]

theorem aligned_eq_zero (hfits : bits.length ≤ width)
    (hzero : (aligned bits : BitVec width) = 0#(width)) : ∀ bit ∈ bits, bit = false := by
  induction bits with
  | nil => simp
  | cons bit rest ih =>
    rw [List.length_cons] at hfits
    have hbits : ∀ i, (aligned (bit :: rest) : BitVec width).getLsbD i = false := by
      rw [hzero]
      exact fun i => BitVec.getLsbD_zero
    have hrest : (aligned rest : BitVec width) = 0#(width) := by
      apply BitVec.eq_of_getLsbD_eq
      intro i hi
      rw [BitVec.getLsbD_zero]
      cases i with
      | zero => exact getLsbD_aligned (by omega)
      | succ i =>
        have hbelow := hbits i
        rw [aligned, BitVec.getLsbD_xor, getLsbD_top, BitVec.getLsbD_ushiftRight,
          decide_eq_false (by omega), Bool.and_false, Bool.false_xor, Nat.add_comm] at hbelow
        exact hbelow
    have hbit : bit = false := by
      have htop := hbits (width - 1)
      rw [aligned, hrest, BitVec.getLsbD_xor, getLsbD_top, decide_eq_true (by omega)] at htop
      simpa using htop
    exact List.forall_mem_cons.mpr ⟨hbit, ih (by omega) hrest⟩

theorem aligned_xor (hlength : bits.length = bits'.length) :
    (aligned (List.zipWith xor bits bits') : BitVec width) = aligned bits ^^^ aligned bits' := by
  induction bits generalizing bits' with
  | nil =>
    rw [List.length_eq_zero_iff.mp hlength.symm]
    simp [aligned]
  | cons _ _ ih =>
    cases bits' with
    | nil => cases hlength
    | cons =>
      rw [List.zipWith_cons_cons, aligned, ih (Nat.succ.inj hlength), top, times_xor,
        BitVec.ushiftRight_xor_distrib, aligned, aligned, top, top]
      ac_rfl

theorem aligned_append (front back : List Bool) :
    (aligned (front ++ back) : BitVec width) =
      aligned front ^^^ (aligned back >>> front.length) := by
  induction front with
  | nil => simp [aligned]
  | cons _ _ ih =>
    rw [List.cons_append, aligned, ih, aligned, BitVec.ushiftRight_xor_distrib,
      List.length_cons, BitVec.shiftRight_add, BitVec.xor_assoc]

theorem crc_burst_ne_zero (hodd : poly.getLsbD 0 = true) {burst : List Bool}
    (hfits : burst.length ≤ width) (hset : true ∈ burst) (before after : ℕ) :
    crc poly (List.replicate before false ++ burst ++ List.replicate after false) ≠ 0#(width) := by
  rw [List.append_assoc, crc_zeros_append, crc, crcFrom_append, crcFrom_zeros,
    crcFrom_eq_aligned hfits, BitVec.zero_xor]
  intro hzero
  have haligned := iterate_shift_eq_zero hodd _ (iterate_shift_eq_zero hodd _ hzero)
  exact absurd (aligned_eq_zero hfits haligned true hset) (by decide)

end Fluxora.Lib.Crc
