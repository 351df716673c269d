/-
# Integer-valued binary64 numbers and their shortest decimal text

A double with an integer value is an integer that rounding to 53 significant bits leaves alone.
Printing such a number does not print that integer: the language standard asks for the decimal
with the fewest significant digits that still rounds to the same double, pads it with zeros, and
switches to exponential notation from 10^21 on.

The module models both directions on natural numbers. Rounding is to nearest, ties to even. The
shortest decimal is found by trying ever smaller powers of ten and looking at the two multiples
that enclose the number.
-/

import Fluxora.Lib.DigitText
import Mathlib.Data.Nat.Log

namespace Fluxora.Lib.Binary64

open DigitText

/-! ## Rounding to 53 bits -/

/-- Divide by `unit` and round to the nearest integer, ties to the even one. -/
def roundHalfEven (v unit : ℕ) : ℕ :=
  if 2 * (v % unit) < unit ∨ (2 * (v % unit) = unit ∧ v / unit % 2 = 0) then v / unit
  else v / unit + 1

/-- The exponent of the unit in the last place of a 53-bit significand. -/
def ulpExponent (v : ℕ) : ℕ := v.log2 - 52

/-- The integer value of the double nearest to `v`. -/
def roundToDouble (v : ℕ) : ℕ := roundHalfEven v (2 ^ ulpExponent v) * 2 ^ ulpExponent v

theorem le_roundHalfEven (v unit : ℕ) : v / unit ≤ roundHalfEven v unit := by
  unfold roundHalfEven
  split <;> omega

theorem roundHalfEven_le (v unit : ℕ) : roundHalfEven v unit ≤ v / unit + 1 := by
  unfold roundHalfEven
  split <;> omega

variable {v w x j : ℕ}

theorem roundHalfEven_mono {unit : ℕ} (h : v ≤ w) :
    roundHalfEven v unit ≤ roundHalfEven w unit := by
  rcases Nat.lt_or_ge (v / unit) (w / unit) with hlt | hge
  · calc
      roundHalfEven v unit ≤ v / unit + 1 := roundHalfEven_le v unit
      _ ≤ w / unit := hlt
      _ ≤ roundHalfEven w unit := le_roundHalfEven w unit
  · have hquot : v / unit = w / unit := le_antisymm (Nat.div_le_div_right h) hge
    have hrem : v % unit ≤ w % unit := by
      have hv := Nat.div_add_mod v unit
      have hw := Nat.div_add_mod w unit
      rw [hquot] at hv
      omega
    unfold roundHalfEven
    rw [hquot]
    split <;> split <;> omega

theorem lt_two_pow_ulpExponent (v : ℕ) : v < 2 ^ (53 + ulpExponent v) := by
  have hlog : v < 2 ^ (v.log2 + 1) := Nat.lt_log2_self
  refine lt_of_lt_of_le hlog (Nat.pow_le_pow_right (by decide) ?_)
  unfold ulpExponent
  omega

theorem two_pow_ulpExponent_le (h : 0 < ulpExponent v) : 2 ^ (52 + ulpExponent v) ≤ v := by
  have hlog : 52 + ulpExponent v = v.log2 := by
    unfold ulpExponent at h ⊢
    omega
  have hne : v ≠ 0 := by
    rintro rfl
    simp [ulpExponent] at h
  rw [hlog]
  exact Nat.log2_self_le hne

theorem ulpExponent_mono (h : v ≤ w) : ulpExponent v ≤ ulpExponent w := by
  unfold ulpExponent
  rw [Nat.log2_eq_log_two, Nat.log2_eq_log_two]
  have := Nat.log_mono_right (b := 2) h
  omega

theorem roundToDouble_le (v : ℕ) : roundToDouble v ≤ 2 ^ (53 + ulpExponent v) := by
  have hquot : v / 2 ^ ulpExponent v < 2 ^ 53 := by
    rw [Nat.div_lt_iff_lt_mul (by positivity), ← pow_add]
    exact lt_two_pow_ulpExponent v
  have hround : roundHalfEven v (2 ^ ulpExponent v) ≤ 2 ^ 53 :=
    le_trans (roundHalfEven_le _ _) hquot
  calc
    roundToDouble v ≤ 2 ^ 53 * 2 ^ ulpExponent v := Nat.mul_le_mul_right _ hround
    _ = 2 ^ (53 + ulpExponent v) := (pow_add _ _ _).symm

theorem two_pow_le_roundToDouble (h : 0 < ulpExponent v) :
    2 ^ (52 + ulpExponent v) ≤ roundToDouble v := by
  have hquot : 2 ^ 52 ≤ v / 2 ^ ulpExponent v := by
    rw [Nat.le_div_iff_mul_le (by positivity), ← pow_add]
    exact two_pow_ulpExponent_le h
  calc
    2 ^ (52 + ulpExponent v) = 2 ^ 52 * 2 ^ ulpExponent v := pow_add _ _ _
    _ ≤ roundToDouble v :=
      Nat.mul_le_mul_right _ (le_trans hquot (le_roundHalfEven _ _))

theorem roundToDouble_mono (h : v ≤ w) : roundToDouble v ≤ roundToDouble w := by
  rcases Nat.lt_or_ge (ulpExponent v) (ulpExponent w) with hlt | hge
  · calc
      roundToDouble v ≤ 2 ^ (53 + ulpExponent v) := roundToDouble_le v
      _ ≤ 2 ^ (52 + ulpExponent w) := Nat.pow_le_pow_right (by decide) (by omega)
      _ ≤ roundToDouble w := two_pow_le_roundToDouble (by omega)
  · have hexp : ulpExponent v = ulpExponent w := le_antisymm (ulpExponent_mono h) hge
    unfold roundToDouble
    rw [hexp]
    exact Nat.mul_le_mul_right _ (roundHalfEven_mono h)

theorem roundToDouble_eq_of_between {low mid high : ℕ} (hlow : roundToDouble low = x)
    (hhigh : roundToDouble high = x) (h₁ : low ≤ mid) (h₂ : mid ≤ high) : roundToDouble mid = x :=
  le_antisymm (hhigh ▸ roundToDouble_mono h₂) (hlow ▸ roundToDouble_mono h₁)

theorem roundToDouble_of_lt (h : v < 2 ^ 53) : roundToDouble v = v := by
  have hexp : ulpExponent v = 0 := by
    unfold ulpExponent
    rcases Nat.eq_zero_or_pos v with rfl | hpos
    · simp
    · have := (Nat.log2_lt hpos.ne').mpr h
      omega
  simp [roundToDouble, hexp, roundHalfEven, Nat.mod_one]

/-! ## The shortest decimal of a double -/

/-- The multiple of `10 ^ j` next to `x` that rounds to `x`, if there is one.
When both neighbours do, the nearer one is taken, and on a tie the one whose
digit is even. -/
def neighbour (x j : ℕ) : Option ℕ :=
  let lower := x / 10 ^ j * 10 ^ j
  let upper := lower + 10 ^ j
  if roundToDouble lower = x then
    if roundToDouble upper = x ∧
        (upper - x < x - lower ∨ (upper - x = x - lower ∧ x / 10 ^ j % 2 = 1)) then
      some upper
    else some lower
  else if roundToDouble upper = x then some upper
  else none

/-- Search from the coarsest power of ten down; the number itself ends it. -/
def shortestFrom (x : ℕ) : ℕ → ℕ
  | 0 => x
  | j + 1 => (neighbour x (j + 1)).getD (shortestFrom x j)

/-- The decimal with the fewest significant digits that rounds to `x`. -/
def shortestDecimal (x : ℕ) : ℕ := shortestFrom x (Nat.toDigits 10 x).length

/-- No integer that rounds to `x` ends in more zeros than `x`. -/
def NoShorter (x : ℕ) : Prop := ∀ v j, roundToDouble v = x → 10 ^ j ∣ v → 10 ^ j ∣ x

theorem neighbour_eq_some (h : neighbour x j = some v) : 10 ^ j ∣ v ∧ roundToDouble v = x := by
  have hlow : 10 ^ j ∣ x / 10 ^ j * 10 ^ j := Dvd.intro_left _ rfl
  have hup : 10 ^ j ∣ x / 10 ^ j * 10 ^ j + 10 ^ j := (Nat.dvd_add_right hlow).mpr dvd_rfl
  unfold neighbour at h
  simp only at h
  split at h
  · rename_i hround
    split at h
    · rename_i hboth
      cases h
      exact ⟨hup, hboth.1⟩
    · cases h
      exact ⟨hlow, hround⟩
  · split at h
    · rename_i hround
      cases h
      exact ⟨hup, hround⟩
    · cases h

theorem neighbour_ne_none (hx : roundToDouble x = x) (hdvd : 10 ^ j ∣ v)
    (hv : roundToDouble v = x) : neighbour x j ≠ none := by
  have hpos : 0 < 10 ^ j := by positivity
  obtain ⟨k, rfl⟩ := hdvd
  have hlower : x / 10 ^ j * 10 ^ j ≤ x := Nat.div_mul_le_self x _
  have hupper : x < x / 10 ^ j * 10 ^ j + 10 ^ j := by
    have hsplit := Nat.div_add_mod' x (10 ^ j)
    have hrem := Nat.mod_lt x hpos
    omega
  unfold neighbour
  simp only
  rcases Nat.lt_or_ge (x / 10 ^ j) k with hlt | hge
  · -- the multiple lies above, so the upper neighbour rounds to `x`
    have hle : x / 10 ^ j * 10 ^ j + 10 ^ j ≤ 10 ^ j * k := by
      have := Nat.mul_le_mul_right (10 ^ j) hlt
      rw [Nat.succ_mul] at this
      rwa [Nat.mul_comm (10 ^ j) k]
    have hround := roundToDouble_eq_of_between hx hv hupper.le hle
    split
    · split <;> simp
    · simp
  · -- the multiple lies below, so the lower neighbour rounds to `x`
    have hle : 10 ^ j * k ≤ x / 10 ^ j * 10 ^ j := by
      rw [Nat.mul_comm]
      exact Nat.mul_le_mul_right _ hge
    have hround := roundToDouble_eq_of_between hv hx hle hlower
    rw [if_pos hround]
    split <;> simp

theorem neighbour_self (hx : roundToDouble x = x) (hdvd : 10 ^ j ∣ x) : neighbour x j = some x := by
  have hlow : x / 10 ^ j * 10 ^ j = x := Nat.div_mul_cancel hdvd
  have hpos : 0 < 10 ^ j := by positivity
  unfold neighbour
  simp only [hlow, hx, if_true, Nat.sub_self, Nat.not_lt_zero, false_or, Nat.add_sub_cancel_left]
  rw [if_neg]
  omega

theorem shortestFrom_eq_self_iff (hx : roundToDouble x = x) (n : ℕ) :
    shortestFrom x n = x ↔
      ∀ j ≤ n, ∀ v, roundToDouble v = x → 10 ^ j ∣ v → 10 ^ j ∣ x := by
  induction n with
  | zero =>
    simp only [shortestFrom, Nat.le_zero_eq, true_iff]
    rintro j rfl v _ _
    simp
  | succ n ih =>
    rw [shortestFrom]
    cases hcand : neighbour x (n + 1) with
    | none =>
      rw [Option.getD_none, ih]
      refine ⟨fun h j hj v hv hdvd => ?_, fun h j hj => h j (Nat.le_succ_of_le hj)⟩
      rcases Nat.lt_or_ge n j with hlt | hge
      · obtain rfl : j = n + 1 := by omega
        exact absurd hcand (neighbour_ne_none hx hdvd hv)
      · exact h j hge v hv hdvd
    | some w =>
      obtain ⟨hdvd, hround⟩ := neighbour_eq_some hcand
      rw [Option.getD_some]
      apply Iff.intro
      · rintro rfl j hj v _ _
        exact (pow_dvd_pow 10 hj).trans hdvd
      · intro h
        have hself := neighbour_self hx (h (n + 1) le_rfl w hround hdvd)
        rw [hcand] at hself
        exact Option.some.inj hself

/-- A double prints as itself exactly when no integer of that double ends in
more zeros. Powers of ten beyond the length of the number add nothing: a
multiple of one of them would put the next power of ten into the same double. -/
theorem shortestDecimal_eq_self_iff (hx : roundToDouble x = x) :
    shortestDecimal x = x ↔ NoShorter x := by
  have hlen : x < 10 ^ (Nat.toDigits 10 x).length :=
    (Nat.length_toDigits_le_iff (by decide) Nat.length_toDigits_pos).mp le_rfl
  rw [shortestDecimal, shortestFrom_eq_self_iff hx]
  apply Iff.intro
  · intro h v j hv hdvd
    rcases Nat.lt_or_ge (Nat.toDigits 10 x).length j with hlt | hge
    · rcases Nat.eq_zero_or_pos v with rfl | hpos
      · have hzero : roundToDouble 0 = 0 := roundToDouble_of_lt (by decide)
        rw [← hv, hzero]
        exact dvd_zero _
      · have hle : 10 ^ (Nat.toDigits 10 x).length ≤ v :=
          le_trans (Nat.pow_le_pow_right (by decide) hlt.le) (Nat.le_of_dvd hpos hdvd)
        have hround := roundToDouble_eq_of_between hx hv hlen.le hle
        have hself := h _ le_rfl _ hround dvd_rfl
        rcases Nat.eq_zero_or_pos x with rfl | hxpos
        · exact dvd_zero _
        · exact absurd (Nat.le_of_dvd hxpos hself) (by omega)
    · exact h j hge v hv hdvd
  · intro h j _ v hv hdvd
    exact h v j hv hdvd

/-! ## Doubles with an integer value -/

/-- A double whose value is an integer. Negative zero has the value, and the
text, of zero. -/
structure IntegerDouble where
  /-- The exact value. -/
  val : ℤ
  /-- Rounding to 53 bits leaves the value alone. -/
  representable : roundToDouble val.natAbs = val.natAbs
  /-- The value has at most 1024 bits. -/
  finite : val.natAbs.log2 < 1024

/-- The exponential form: one digit, the other significant digits after a point
if there are any, and the decimal exponent. -/
def exponentialText (digits : List Char) : List Char :=
  let exponent := ['e', '+'] ++ Nat.toDigits 10 (digits.length - 1)
  match dropTrailingZeros digits with
  | [] => exponent
  | [lead] => lead :: exponent
  | lead :: rest => lead :: '.' :: (rest ++ exponent)

/-- The text of a natural number whose digits are its shortest decimal. -/
def naturalText (v : ℕ) : List Char :=
  if (Nat.toDigits 10 v).length ≤ 21 then Nat.toDigits 10 v
  else exponentialText (Nat.toDigits 10 v)

/-- `Number.prototype.toString` on a double with an integer value. -/
def IntegerDouble.toText (n : IntegerDouble) : List Char :=
  (if n.val < 0 then ['-'] else []) ++ naturalText (shortestDecimal n.val.natAbs)

theorem e_mem_exponentialText (digits : List Char) : 'e' ∈ exponentialText digits := by
  unfold exponentialText
  simp only
  split <;> simp

end Fluxora.Lib.Binary64
