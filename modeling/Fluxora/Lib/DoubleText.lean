/-
# Doubles are read back

Seventeen significant digits tell all doubles apart: the decimal with so many digits that is
nearest to a double is nearer to it than half of its unit in the last place, on both sides. So
the shortest decimal that rounds to a double exists, and reading its text gives the double.
-/

import Mathlib.Tactic.Positivity
import Fluxora.Lib.JsonParse

namespace Fluxora.Lib.DoubleText

open DigitText JsonStringify JsonParse

/-! ## Rounding -/

/-- A finite number of binary64. -/
def IsDouble (q : ℚ) : Prop :=
  ∃ m e : ℤ, |m| < 2 ^ 53 ∧ -1074 ≤ e ∧ e ≤ 971 ∧ q = m * 2 ^ e

/-- The exponent of the unit in the last place. -/
def unitExponent (q : ℚ) : ℤ := max (Int.log 2 q - 52) (-1074)

theorem roundToDouble_eq (q : ℚ) :
    roundToDouble q = roundHalfEven (q / 2 ^ unitExponent q) * 2 ^ unitExponent q := rfl

variable {q : ℚ}

theorem roundHalfEven_of_near {z : ℤ} (h : |q - z| < 1 / 2) : roundHalfEven q = z := by
  obtain ⟨hlow, hhigh⟩ := abs_lt.mp h
  rw [roundHalfEven]
  rcases lt_or_ge q z with hbelow | habove
  · have hfloor : ⌊q⌋ = z - 1 := by
      rw [Int.floor_eq_iff]
      push_cast
      constructor <;> linarith
    have hfract : 1 / 2 < Int.fract q := by
      rw [Int.fract, hfloor]
      push_cast
      linarith
    rw [if_neg, hfloor, sub_add_cancel]
    rintro (hlt | ⟨heq, -⟩) <;> linarith
  · have hfloor : ⌊q⌋ = z := by
      rw [Int.floor_eq_iff]
      constructor <;> linarith
    rw [if_pos, hfloor]
    left
    rw [Int.fract, hfloor]
    linarith

variable (e : ℤ)

theorem two_zpow_pos : (0 : ℚ) < 2 ^ e := zpow_pos (by norm_num) e

theorem lt_unit : q < 2 ^ 53 * 2 ^ unitExponent q := by
  have hlog : q < (2 : ℕ) ^ (Int.log 2 q + 1) := Int.lt_zpow_succ_log_self (by decide) q
  calc
    q < (2 : ℚ) ^ (Int.log 2 q + 1) := by exact_mod_cast hlog
    _ ≤ (2 : ℚ) ^ (53 + unitExponent q) := by
        refine zpow_le_zpow_right₀ (by norm_num) ?_
        have := le_max_left (Int.log 2 q - 52) (-1074)
        rw [unitExponent]
        omega
    _ = 2 ^ 53 * 2 ^ unitExponent q := by
        rw [zpow_add₀ (by norm_num)]
        norm_num

theorem exists_multiple (hq : IsDouble q) (hpos : 0 < q) {E : ℤ}
    (hE : E ≤ unitExponent q) : ∃ z : ℤ, q = z * 2 ^ E := by
  obtain ⟨m, e, hm, he, -, rfl⟩ := hq
  have hmpos : 0 < m := by
    by_contra hneg
    have : (m : ℚ) * 2 ^ e ≤ 0 :=
      mul_nonpos_of_nonpos_of_nonneg (by exact_mod_cast not_lt.mp hneg) (two_zpow_pos e).le
    linarith
  have hlog : Int.log 2 ((m : ℚ) * 2 ^ e) < 53 + e := by
    rw [← Int.lt_zpow_iff_log_lt (by decide) hpos]
    push_cast
    rw [zpow_add₀ (by norm_num)]
    refine mul_lt_mul_of_pos_right ?_ (two_zpow_pos e)
    rw [abs_of_pos hmpos] at hm
    have : (m : ℚ) < ((2 ^ 53 : ℤ) : ℚ) := by exact_mod_cast hm
    calc
      (m : ℚ) < ((2 ^ 53 : ℤ) : ℚ) := this
      _ = 2 ^ (53 : ℤ) := by norm_num
  have hle : E ≤ e := by
    refine hE.trans ?_
    rw [unitExponent]
    exact max_le (by omega) he
  refine ⟨m * 2 ^ (e - E).toNat, ?_⟩
  have hexp : ((2 ^ (e - E).toNat : ℤ) : ℚ) = 2 ^ (e - E) := by
    push_cast
    rw [← zpow_natCast, Int.toNat_of_nonneg (by omega)]
  rw [Int.cast_mul, hexp, mul_assoc, ← zpow_add₀ (by norm_num)]
  congr 2
  omega

theorem unitExponent_le_of_near {x : ℚ} (hq : IsDouble q) (hpos : 0 < q) (hx : 0 < x)
    (hnear : x - q ≤ q / (2 * 10 ^ 16)) : unitExponent x ≤ unitExponent q := by
  rw [unitExponent, unitExponent]
  refine max_le_max (sub_le_sub_right ?_ 52) le_rfl
  by_contra hlog
  obtain ⟨z, hz⟩ := exists_multiple hq hpos le_rfl
  have hU := two_zpow_pos (unitExponent q)
  have hzpos : 1 ≤ z := by
    by_contra hneg
    have hzle : (z : ℚ) ≤ 0 := by exact_mod_cast Int.lt_add_one_iff.mp (not_le.mp hneg)
    have := mul_nonpos_of_nonpos_of_nonneg hzle hU.le
    linarith
  -- the next power of two is a multiple of the unit as well
  have hle : unitExponent q ≤ Int.log 2 q + 1 := by
    rw [unitExponent]
    refine max_le (by omega) ?_
    have hmin : ((2 : ℕ) : ℚ) ^ (-1074 : ℤ) ≤ q := by
      calc
        ((2 : ℕ) : ℚ) ^ (-1074 : ℤ) ≤ 2 ^ unitExponent q :=
          zpow_le_zpow_right₀ (by norm_num) (le_max_right _ _)
        _ = 1 * 2 ^ unitExponent q := (one_mul _).symm
        _ ≤ z * 2 ^ unitExponent q :=
          mul_le_mul_of_nonneg_right (by exact_mod_cast hzpos) hU.le
        _ = q := hz.symm
    have := (Int.zpow_le_iff_le_log (by decide) hpos).mp hmin
    omega
  have hnext : (2 : ℚ) ^ (Int.log 2 q + 1) =
      ((2 ^ (Int.log 2 q + 1 - unitExponent q).toNat : ℤ) : ℚ) * 2 ^ unitExponent q := by
    push_cast
    rw [← zpow_natCast, Int.toNat_of_nonneg (by omega), ← zpow_add₀ (by norm_num)]
    congr 1
    omega
  have hbelow : q < (2 : ℚ) ^ (Int.log 2 q + 1) := by
    exact_mod_cast Int.lt_zpow_succ_log_self (b := 2) (by decide) q
  have habove : (2 : ℚ) ^ (Int.log 2 q + 1) ≤ x := by
    have := (Int.zpow_le_iff_le_log (b := 2) (by decide) hx).mpr
      (show Int.log 2 q + 1 ≤ Int.log 2 x by omega)
    exact_mod_cast this
  have hgap : q + 2 ^ unitExponent q ≤ (2 : ℚ) ^ (Int.log 2 q + 1) := by
    rw [hnext] at hbelow ⊢
    conv_lhs at hbelow => rw [hz]
    have hlt := lt_of_mul_lt_mul_right hbelow hU.le
    have hsucc : (z : ℚ) + 1 ≤ ((2 ^ (Int.log 2 q + 1 - unitExponent q).toNat : ℤ) : ℚ) := by
      exact_mod_cast Int.add_one_le_of_lt (by exact_mod_cast hlt)
    have := mul_le_mul_of_nonneg_right hsucc hU.le
    rw [add_mul, one_mul, ← hz] at this
    exact this
  have hunit := lt_unit (q := q)
  have : q / (2 * 10 ^ 16) < 2 ^ unitExponent q := by
    rw [div_lt_iff₀ (by norm_num)]
    nlinarith
  linarith

theorem roundToDouble_of_near {x : ℚ} (hq : IsDouble q) (hpos : 0 < q)
    (hnear : |x - q| ≤ q / (2 * 10 ^ 16)) : roundToDouble x = q := by
  obtain ⟨hlow, hhigh⟩ := abs_le.mp hnear
  have hx : 0 < x := by linarith
  have hU := two_zpow_pos (unitExponent x)
  have hunit := lt_unit (q := x)
  have hhalf : q / (2 * 10 ^ 16) < 2 ^ unitExponent x / 2 := by
    rw [div_lt_iff₀ (by norm_num)]
    linarith
  obtain ⟨z, hz⟩ := exists_multiple hq hpos (unitExponent_le_of_near hq hpos hx hhigh)
  have hround : roundHalfEven (x / 2 ^ unitExponent x) = z := by
    apply roundHalfEven_of_near
    have hdiff : x / 2 ^ unitExponent x - z = (x - q) / 2 ^ unitExponent x := by
      conv_rhs => rw [hz]
      field_simp
    rw [hdiff, abs_div, abs_of_pos hU, div_lt_iff₀ hU]
    linarith
  rw [roundToDouble_eq, hround, ← hz]

/-! ## Seventeen digits -/

theorem decimals_seventeen (hq : IsDouble q) (hpos : 0 < q) : decimals q 17 ≠ [] := by
  rw [decimals]
  generalize hunit : (10 : ℚ) ^ (Int.log 10 q + 1 - ((17 : ℕ) : ℤ)) = unit
  have hunitPos : 0 < unit := hunit ▸ zpow_pos (by norm_num) _
  have hsmall : unit * 10 ^ 16 ≤ q := by
    have hlog : (10 : ℚ) ^ Int.log 10 q ≤ q := by
      exact_mod_cast Int.zpow_log_le_self (b := 10) (by decide) hpos
    have hsplit : (10 : ℚ) ^ Int.log 10 q = unit * 10 ^ 16 := by
      rw [← hunit, ← zpow_natCast (10 : ℚ) 16, ← zpow_add₀ (by norm_num)]
      congr 1
      push_cast
      ring
    rw [← hsplit]
    exact hlog
  have hquot : 0 ≤ q / unit := (div_pos hpos hunitPos).le
  have hfloor : ((⌊q / unit⌋.toNat : ℕ) : ℚ) = ⌊q / unit⌋ := by
    have : ((⌊q / unit⌋.toNat : ℕ) : ℤ) = ⌊q / unit⌋ :=
      Int.toNat_of_nonneg (Int.floor_nonneg.mpr hquot)
    exact_mod_cast this
  have hsplit : (⌊q / unit⌋ : ℚ) * unit + Int.fract (q / unit) * unit = q := by
    rw [← add_mul, Int.floor_add_fract, div_mul_cancel₀ q hunitPos.ne']
  have hfract := Int.fract_nonneg (q / unit)
  have hfract' := Int.fract_lt_one (q / unit)
  have hround : ∀ s : ℕ, |(s : ℚ) * unit - q| ≤ unit / 2 → roundToDouble (s * unit) = q := by
    intro s hs
    refine roundToDouble_of_near hq hpos (hs.trans ?_)
    rw [div_le_div_iff₀ (by norm_num) (by norm_num)]
    linarith
  -- the nearer one of the two is at most half a unit away
  rcases le_or_gt (Int.fract (q / unit)) (1 / 2) with hle | hgt
  · have hlower : roundToDouble ((⌊q / unit⌋.toNat : ℕ) * unit) = q := by
      apply hround
      rw [hfloor, abs_sub_comm, abs_of_nonneg]
      · nlinarith
      · nlinarith
    refine List.ne_nil_of_mem (a := ⌊q / unit⌋.toNat) (List.mem_filter.mpr ⟨?_, ?_⟩)
    · split_ifs <;> simp
    · exact decide_eq_true hlower
  · have hupper : roundToDouble ((⌊q / unit⌋.toNat + 1 : ℕ) * unit) = q := by
      apply hround
      push_cast
      rw [hfloor, abs_of_nonneg]
      · nlinarith
      · nlinarith
    refine List.ne_nil_of_mem (a := ⌊q / unit⌋.toNat + 1) (List.mem_filter.mpr ⟨?_, ?_⟩)
    · split_ifs <;> simp
    · exact decide_eq_true hupper

/-! ## The shortest decimal -/

theorem head_toDigits {n : ℕ} (hn : n ≠ 0) : (Nat.toDigits 10 n).head? ≠ some '0' := by
  intro hhead
  obtain ⟨rest, hrest⟩ : ∃ rest, Nat.toDigits 10 n = '0' :: rest := by
    cases hdigits : Nat.toDigits 10 n with
    | nil =>
      rw [hdigits] at hhead
      cases hhead
    | cons _ rest =>
      rw [hdigits] at hhead
      cases hhead
      exact ⟨rest, rfl⟩
  have hvalue : n = value rest := by
    have hzero : value ['0'] = 0 := rfl
    rw [← value_toDigits n, hrest, ← List.singleton_append, value_append, hzero, Nat.zero_mul,
      Nat.zero_add]
  have hdigits : IsDigits rest := by
    intro c hc
    exact isDigits_toDigits n c (hrest ▸ List.mem_cons_of_mem _ hc)
  cases rest with
  | nil => exact hn hvalue
  | cons c rest =>
    have hlength := length_toDigits_le (Nat.succ_pos rest.length)
      (hvalue ▸ value_lt _ hdigits : n < 10 ^ (c :: rest).length)
    rw [hrest, List.length_cons, List.length_cons] at hlength
    omega

/-- A digit text that begins with another digit than zero. -/
structure Leading (digits : List Char) : Prop where
  isDigits : IsDigits digits
  ne_nil : digits ≠ []
  head : digits.head? ≠ some '0'

theorem leading_dropTrailingZeros {n : ℕ} (hn : n ≠ 0) :
    Leading (dropTrailingZeros (Nat.toDigits 10 n)) := by
  obtain ⟨zeros, hsplit⟩ := dropTrailingZeros_append_replicate (Nat.toDigits 10 n)
  have hne : dropTrailingZeros (Nat.toDigits 10 n) ≠ [] := by
    intro hnil
    have hvalue := value_eq_dropTrailingZeros_mul (Nat.toDigits 10 n)
    rw [value_toDigits, hnil, value_nil, Nat.zero_mul] at hvalue
    exact hn hvalue
  refine ⟨isDigits_dropTrailingZeros (isDigits_toDigits n), hne, fun hhead => head_toDigits hn ?_⟩
  rw [hsplit, List.head?_append, hhead]
  rfl

theorem shortestDecimal_spec (hq : IsDouble q) (hpos : 0 < q) :
    Leading (shortestDecimal q).1 ∧
      roundToDouble (value (shortestDecimal q).1 *
        10 ^ ((shortestDecimal q).2 - (shortestDecimal q).1.length)) = q := by
  have hsome : (((List.range 17).map (· + 1)).find? (decimals q · ≠ [])).isSome := by
    rw [List.find?_isSome]
    exact ⟨17, by decide, decide_eq_true (decimals_seventeen hq hpos)⟩
  obtain ⟨k, hk⟩ := Option.isSome_iff_exists.mp hsome
  have hfound := List.find?_some hk
  have hne : decimals q k ≠ [] := of_decide_eq_true hfound
  obtain ⟨s, hs⟩ : ∃ s, (decimals q k).headD 0 = s := ⟨_, rfl⟩
  have hmem : s ∈ decimals q k := by
    rw [← hs]
    cases hlist : decimals q k with
    | nil => exact absurd hlist hne
    | cons => exact List.mem_cons_self
  have hround : roundToDouble (s * 10 ^ (Int.log 10 q + 1 - (k : ℤ))) = q :=
    of_decide_eq_true (List.mem_filter.mp hmem).2
  have hzero : s ≠ 0 := by
    rintro rfl
    rw [Nat.cast_zero, zero_mul, roundToDouble_eq, zero_div,
      roundHalfEven_of_near (z := 0) (by norm_num), Int.cast_zero, zero_mul] at hround
    exact hpos.ne hround
  have hdecimal : shortestDecimal q = (dropTrailingZeros (Nat.toDigits 10 s),
      Int.log 10 q + 1 + ((Nat.toDigits 10 s).length - k)) := by
    rw [shortestDecimal, hk]
    dsimp only
    rw [hs]
  rw [hdecimal]
  refine ⟨leading_dropTrailingZeros hzero, ?_⟩
  convert hround using 2
  have hlength := length_dropTrailingZeros_le (Nat.toDigits 10 s)
  have hvalue := value_eq_dropTrailingZeros_mul (Nat.toDigits 10 s)
  rw [value_toDigits] at hvalue
  conv_rhs => rw [hvalue]
  push_cast
  rw [mul_assoc, ← zpow_natCast, ← zpow_add₀ (by norm_num), Nat.cast_sub hlength]
  congr 2
  ring

/-! ## Reading what is printed -/

/-- No digit follows. -/
def EndsDigits (tail : List Char) : Prop := ∀ c ∈ tail.head?, c.isDigit = false

variable {tail : List Char}

theorem takeWhile_digits {whole : List Char} (hwhole : IsDigits whole) (htail : EndsDigits tail) :
    (whole ++ tail).takeWhile Char.isDigit = whole := by
  rw [List.takeWhile_append_of_pos hwhole]
  cases tail with
  | nil => rw [List.takeWhile_nil, List.append_nil]
  | cons c => rw [List.takeWhile_cons_of_neg (by simp [htail c rfl]), List.append_nil]

theorem dropWhile_digits {whole : List Char} (hwhole : IsDigits whole) (htail : EndsDigits tail) :
    (whole ++ tail).dropWhile Char.isDigit = tail := by
  rw [List.dropWhile_append_of_pos hwhole]
  cases tail with
  | nil => rfl
  | cons c => rw [List.dropWhile_cons_of_neg (by simp [htail c rfl])]

/-- What may stand before the point. -/
structure Whole (whole : List Char) : Prop where
  isDigits : IsDigits whole
  ne_nil : whole ≠ []
  head : ¬ (1 < whole.length ∧ whole.head? = some '0')

theorem Leading.whole {digits : List Char} (h : Leading digits) : Whole digits :=
  ⟨h.isDigits, h.ne_nil, fun hzero => h.head hzero.2⟩

theorem whole_zero : Whole ['0'] :=
  ⟨fun c hc => by rw [List.mem_singleton.mp hc]; rfl, by decide, by decide⟩

theorem decimalValue_whole {whole : List Char} (hwhole : Whole whole) (htail : EndsDigits tail)
    (hpoint : tail.head? ≠ some '.') :
    decimalValue (whole ++ tail) =
      (exponentValue tail).map fun e => (value whole : ℚ) * 10 ^ e := by
  rw [decimalValue, takeWhile_digits hwhole.isDigits htail, dropWhile_digits hwhole.isDigits htail]
  rw [if_neg (not_or.mpr ⟨hwhole.ne_nil, hwhole.head⟩)]
  dsimp only
  split
  · exact absurd rfl hpoint
  · rfl

theorem decimalValue_point {whole decimals : List Char} (hwhole : Whole whole)
    (hdecimals : IsDigits decimals) (hne : decimals ≠ []) (htail : EndsDigits tail) :
    decimalValue (whole ++ '.' :: (decimals ++ tail)) =
      (exponentValue tail).map fun e =>
        ((value whole : ℚ) + value decimals / 10 ^ decimals.length) * 10 ^ e := by
  have hpoint : EndsDigits ('.' :: (decimals ++ tail)) := fun c hc => by
    cases hc
    rfl
  rw [decimalValue, takeWhile_digits hwhole.isDigits hpoint,
    dropWhile_digits hwhole.isDigits hpoint, if_neg (not_or.mpr ⟨hwhole.ne_nil, hwhole.head⟩)]
  simp only [takeWhile_digits hdecimals htail, dropWhile_digits hdecimals htail, if_neg hne]

theorem exponentValue_exponentText : exponentValue (exponentText e) = some e := by
  have hdigits : ¬ (Nat.toDigits 10 e.natAbs = [] ∨
      (Nat.toDigits 10 e.natAbs).all Char.isDigit = false) := by
    rintro (hnil | hall)
    · exact absurd hnil (List.ne_nil_of_length_pos Nat.length_toDigits_pos)
    · rw [List.all_eq_true.mpr (isDigits_toDigits _)] at hall
      cases hall
  rw [exponentText]
  by_cases he : 0 ≤ e
  · rw [if_pos he, exponentValue, if_pos (Or.inl rfl)]
    simp only [if_neg hdigits, value_toDigits, one_mul]
    rw [Int.natAbs_of_nonneg he]
  · rw [if_neg he, exponentValue, if_pos (Or.inl rfl)]
    simp only [if_neg hdigits, value_toDigits]
    congr 1
    omega

theorem endsDigits_exponentText : EndsDigits (exponentText e) := fun c hc => by
  cases hc
  rfl

variable {k : ℕ}

theorem value_take_drop {digits : List Char} (hk : k ≤ digits.length) :
    (value (digits.take k) : ℚ) + value (digits.drop k) / 10 ^ (digits.drop k).length =
      value digits * 10 ^ ((k : ℤ) - digits.length) := by
  have hvalue := value_append (digits.take k) (digits.drop k)
  rw [List.take_append_drop] at hvalue
  have hlength : ((digits.drop k).length : ℤ) = digits.length - k := by
    rw [List.length_drop]
    omega
  have hpow : (10 : ℚ) ^ ((k : ℤ) - digits.length) = ((10 : ℚ) ^ (digits.drop k).length)⁻¹ := by
    rw [← zpow_natCast, ← zpow_neg, hlength]
    congr 1
    ring
  have hpos : (10 : ℚ) ^ (digits.drop k).length ≠ 0 := pow_ne_zero _ (by norm_num)
  rw [hpow, hvalue]
  push_cast
  field_simp

theorem endsDigits_nil : EndsDigits [] := fun _ hc => nomatch hc

section

variable {digits : List Char} (h : Leading digits)

include h

theorem Leading.whole_take (hk : k < digits.length) (hpos : 0 < k) : Whole (digits.take k) := by
  refine ⟨fun c hc => h.isDigits c (List.mem_of_mem_take hc), ?_, fun hzero => h.head ?_⟩
  · exact List.ne_nil_of_length_pos (by rw [List.length_take]; omega)
  · rw [← hzero.2, List.head?_take, if_neg (by omega)]

theorem Leading.isDigits_drop (k : ℕ) : IsDigits (digits.drop k) :=
  fun c hc => h.isDigits c (List.mem_of_mem_drop hc)

theorem decimalValue_zeros (k : ℕ) :
    decimalValue (digits ++ List.replicate k '0') = some ((value digits : ℚ) * 10 ^ (k : ℤ)) := by
  have hall : Whole (digits ++ List.replicate k '0') := by
    refine ⟨h.isDigits.append (isDigits_replicate_zero _),
      List.append_ne_nil_of_left_ne_nil h.ne_nil _, fun hzero => h.head ?_⟩
    have hhead := hzero.2
    rw [List.head?_append] at hhead
    cases hdigits : digits with
    | nil => exact absurd hdigits h.ne_nil
    | cons =>
      rw [hdigits] at hhead
      exact hhead
  have hread := decimalValue_whole hall endsDigits_nil (by nofun)
  rw [List.append_nil] at hread
  rw [hread, value_append, value_replicate_zero, List.length_replicate]
  change some _ = _
  congr 1
  push_cast
  rw [add_zero, mul_one, ← zpow_natCast]

theorem decimalValue_inner (hk : k < digits.length) (hpos : 0 < k) (htail : EndsDigits tail) :
    decimalValue (digits.take k ++ '.' :: (digits.drop k ++ tail)) =
      (exponentValue tail).map fun e =>
        (value digits : ℚ) * 10 ^ ((k : ℤ) - digits.length) * 10 ^ e := by
  have hne : digits.drop k ≠ [] :=
    List.ne_nil_of_length_pos (by rw [List.length_drop]; omega)
  rw [decimalValue_point (h.whole_take hk hpos) (h.isDigits_drop k) hne htail,
    value_take_drop hk.le]

theorem decimalValue_small (k : ℕ) :
    decimalValue ('0' :: '.' :: (List.replicate k '0' ++ digits)) =
      some ((value digits : ℚ) * 10 ^ (-(k : ℤ) - digits.length)) := by
  have hzeros : IsDigits (List.replicate k '0' ++ digits) :=
    (isDigits_replicate_zero _).append h.isDigits
  have hread := decimalValue_point whole_zero hzeros
    (List.append_ne_nil_of_right_ne_nil _ h.ne_nil) endsDigits_nil
  rw [List.append_nil] at hread
  rw [← List.singleton_append, hread]
  have hzero : value ['0'] = 0 := rfl
  rw [show exponentValue [] = some 0 from rfl, Option.map_some, zpow_zero, mul_one, hzero,
    value_append, value_replicate_zero, List.length_append, List.length_replicate]
  congr 1
  have hpow : (10 : ℚ) ^ (-(k : ℤ) - digits.length) = ((10 : ℚ) ^ (k + digits.length))⁻¹ := by
    rw [← zpow_natCast, ← zpow_neg]
    congr 1
    push_cast
    ring
  rw [hpow]
  push_cast
  field_simp
  ring

theorem decimalValue_positiveText (n : ℤ) :
    decimalValue (positiveText digits n) =
      some ((value digits : ℚ) * 10 ^ (n - digits.length)) := by
  unfold positiveText
  split_ifs with hwhole hpoint hsmall
  · rw [decimalValue_zeros h, Int.toNat_of_nonneg (by omega)]
  · obtain ⟨k, rfl⟩ : ∃ k : ℕ, n = k := ⟨n.toNat, by omega⟩
    have hread := decimalValue_inner h (show k < digits.length by omega) (by omega) endsDigits_nil
    rw [List.append_nil, show exponentValue [] = some 0 from rfl, Option.map_some, zpow_zero,
      mul_one] at hread
    rw [Int.toNat_natCast]
    exact hread
  · rw [decimalValue_small h, Int.toNat_of_nonneg (by omega), neg_neg]
  · -- the exponent is written
    split
    · next digit hdigit =>
        have hread := decimalValue_whole h.whole (endsDigits_exponentText (n - 1)) (by nofun)
        rw [exponentValue_exponentText] at hread
        rw [← List.singleton_append, hread]
        rfl
    · next hmore =>
        have hlength : 1 < digits.length := by
          rcases hdigits : digits with _ | ⟨c, _ | ⟨d, rest⟩⟩
          · exact absurd hdigits h.ne_nil
          · exact absurd hdigits (hmore c)
          · simp
        rw [decimalValue_inner h hlength one_pos (endsDigits_exponentText (n - 1)),
          exponentValue_exponentText, Option.map_some, mul_assoc, ← zpow_add₀ (by norm_num)]
        congr 3
        push_cast
        ring

end

/-! ### Its characters -/

def IsNumberText (text : List Char) : Prop := ∀ c ∈ text, isNumberChar c = true

theorem isNumberText_append {front back : List Char} :
    IsNumberText (front ++ back) ↔ IsNumberText front ∧ IsNumberText back :=
  List.forall_mem_append

theorem isNumberText_cons {c : Char} {rest : List Char} :
    IsNumberText (c :: rest) ↔ isNumberChar c = true ∧ IsNumberText rest := List.forall_mem_cons

theorem isNumberText_of_isDigits {text : List Char} (h : IsDigits text) : IsNumberText text := by
  intro c hc
  rw [isNumberChar, h c hc]
  rfl

theorem isNumberText_exponentText : IsNumberText (exponentText e) := by
  rw [exponentText]
  refine isNumberText_cons.mpr ⟨rfl, isNumberText_cons.mpr ⟨?_, ?_⟩⟩
  · split_ifs <;> rfl
  · exact isNumberText_of_isDigits (isDigits_toDigits _)

theorem isNumberText_positiveText {digits : List Char} (h : IsDigits digits) (n : ℤ) :
    IsNumberText (positiveText digits n) := by
  have htake : ∀ k, IsNumberText (digits.take k) := fun k =>
    isNumberText_of_isDigits fun c hc => h c (List.mem_of_mem_take hc)
  have hdrop : ∀ k, IsNumberText (digits.drop k) := fun k =>
    isNumberText_of_isDigits fun c hc => h c (List.mem_of_mem_drop hc)
  have hzeros : ∀ k, IsDigits (List.replicate k '0') := isDigits_replicate_zero
  unfold positiveText
  split_ifs
  · exact isNumberText_of_isDigits (h.append (hzeros _))
  · exact isNumberText_append.mpr ⟨htake _, isNumberText_cons.mpr ⟨rfl, hdrop _⟩⟩
  · exact isNumberText_cons.mpr ⟨rfl, isNumberText_cons.mpr ⟨rfl,
      isNumberText_of_isDigits ((hzeros _).append h)⟩⟩
  · split
    · exact isNumberText_cons.mpr ⟨isNumberText_of_isDigits h _ List.mem_cons_self,
        isNumberText_exponentText _⟩
    · exact isNumberText_append.mpr ⟨htake 1, isNumberText_cons.mpr ⟨rfl,
        isNumberText_append.mpr ⟨hdrop 1, isNumberText_exponentText _⟩⟩⟩

/-! ## Numbers -/

theorem IsDouble.abs (hq : IsDouble q) : IsDouble |q| := by
  obtain ⟨m, e, hm, hlow, hhigh, rfl⟩ := hq
  refine ⟨|m|, e, by rwa [abs_abs], hlow, hhigh, ?_⟩
  rw [abs_mul, abs_of_pos (two_zpow_pos e), Int.cast_abs]

theorem numberText_of_ne_zero (hq : q ≠ 0) :
    numberText q = if q < 0 then
        '-' :: positiveText (shortestDecimal |q|).1 (shortestDecimal |q|).2
      else positiveText (shortestDecimal |q|).1 (shortestDecimal |q|).2 := by
  rw [numberText, if_neg hq]

theorem numberValue_positiveText {digits : List Char} (h : Leading digits) (n : ℤ) :
    numberValue (positiveText digits n) = (decimalValue (positiveText digits n)).map fun q =>
      if q = 0 then 0 else roundToDouble q := by
  rw [numberValue.eq_def]
  split
  · next rest heq =>
      have hread := decimalValue_positiveText h n
      rw [heq, decimalValue, List.takeWhile_cons_of_neg (by decide)] at hread
      cases hread
  · rfl

theorem numberValue_zero : numberValue ['0'] = some 0 := by
  have hnil : EndsDigits [] := fun c hc => by cases hc
  have hread := decimalValue_whole whole_zero hnil (by nofun)
  rw [List.append_nil, show exponentValue [] = some 0 from rfl, Option.map_some,
    show value ['0'] = 0 from rfl, Nat.cast_zero, zero_mul] at hread
  have hzero : numberValue ['0'] =
      (decimalValue ['0']).map fun q => if q = 0 then 0 else roundToDouble q := by
    rw [numberValue.eq_def]
    rfl
  rw [hzero, hread, Option.map_some, if_pos rfl]

theorem numberValue_numberText (hq : IsDouble q) : numberValue (numberText q) = some q := by
  by_cases hzero : q = 0
  · rw [hzero, numberText, if_pos rfl]
    exact numberValue_zero
  · have hpos : 0 < |q| := abs_pos.mpr hzero
    obtain ⟨hleading, hround⟩ := shortestDecimal_spec hq.abs hpos
    have hread := decimalValue_positiveText hleading (shortestDecimal |q|).2
    have hne : (value (shortestDecimal |q|).1 : ℚ) *
        10 ^ ((shortestDecimal |q|).2 - (shortestDecimal |q|).1.length) ≠ 0 := by
      intro heq
      rw [heq, roundToDouble_eq, zero_div, roundHalfEven_of_near (z := 0) (by norm_num),
        Int.cast_zero, zero_mul] at hround
      exact hpos.ne hround
    rw [numberText_of_ne_zero hzero]
    split_ifs with hneg
    · rw [numberValue, hread, Option.map_some, if_neg hne, hround, abs_of_neg hneg, neg_neg]
    · rw [numberValue_positiveText hleading, hread, Option.map_some, if_neg hne, hround,
        abs_of_nonneg (not_lt.mp hneg)]

theorem isNumberText_numberText (hq : IsDouble q) : IsNumberText (numberText q) := by
  by_cases hzero : q = 0
  · subst hzero
    exact isNumberText_cons.mpr ⟨rfl, fun c hc => absurd hc List.not_mem_nil⟩
  · have hpos : 0 < |q| := abs_pos.mpr hzero
    have htext := isNumberText_positiveText (shortestDecimal_spec hq.abs hpos).1.isDigits
      (shortestDecimal |q|).2
    rw [numberText_of_ne_zero hzero]
    split_ifs
    · exact isNumberText_cons.mpr ⟨rfl, htext⟩
    · exact htext

end Fluxora.Lib.DoubleText
