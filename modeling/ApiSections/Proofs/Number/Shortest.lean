import ApiSections.Number.Binary64
import Mathlib.Algebra.Order.Field.Power
import Mathlib.Algebra.Order.Ring.Rat
import Mathlib.Data.Nat.Cast.Order.Field
import Mathlib.Tactic.FieldSimp
import Mathlib.Tactic.Linarith
import Mathlib.Tactic.NormNum
import Mathlib.Tactic.Positivity
import Mathlib.Tactic.Ring

/-!
The fewest digits of a double lie in the interval of the decimals that read back as it. They are found
because the finest grid that is tried is finer than half of that interval, and so the point of a double
can be told from its value.
-/

namespace ApiSections.Number

section Scaled

variable {num den base : Nat} {power : Int}

theorem scaled_pos (some_den : 0 < den) (some_base : 0 < base) : 0 < (scaled num den base power).2 := by
  rw [scaled]
  split
  · exact some_den
  · exact Nat.mul_pos some_den (Nat.pow_pos some_base)

theorem scaled_eq (num den : Nat) (power : Int) (some_base : 0 < base) :
    ((scaled num den base power).1 : ℚ) / (scaled num den base power).2 =
      num / den * (base : ℚ) ^ power := by
  have base_ne : (base : ℚ) ≠ 0 := by positivity
  rw [scaled]
  split
  · rename_i up
    obtain ⟨exponent, rfl⟩ := Int.eq_ofNat_of_zero_le up
    simp only [Int.toNat_natCast, Nat.pow_eq, Nat.cast_mul, Nat.cast_pow, zpow_natCast]
    ring
  · rename_i down
    obtain ⟨exponent, same⟩ := Int.eq_ofNat_of_zero_le (show 0 ≤ -power by omega)
    have back : power = -(exponent : Int) := by
      rw [← Int.neg_neg power, same]
    subst back
    simp only [neg_neg, Int.toNat_natCast, Nat.pow_eq, Nat.cast_mul, Nat.cast_pow, zpow_neg,
      zpow_natCast]
    field_simp

/-- A fraction lies between two powers that its parts tell. -/
theorem fraction_bounds {left right : Nat} (some_base : 1 < base) (some_den : 0 < den)
    (left_le : base ^ left ≤ num) (lt_left : num < base ^ (left + 1)) (right_le : base ^ right ≤ den)
    (lt_right : den < base ^ (right + 1)) :
    (base : ℚ) ^ ((left : Int) - right - 1) < num / den ∧
      (num : ℚ) / den < (base : ℚ) ^ ((left : Int) - right + 1) := by
  have base_pos : (0 : ℚ) < base := by exact_mod_cast (Nat.zero_lt_one.trans some_base)
  have den_pos : (0 : ℚ) < den := by exact_mod_cast some_den
  have left_le : (base : ℚ) ^ left ≤ num := by exact_mod_cast left_le
  have lt_left : (num : ℚ) < (base : ℚ) ^ (left + 1) := by exact_mod_cast lt_left
  have right_le : (base : ℚ) ^ right ≤ den := by exact_mod_cast right_le
  have lt_right : (den : ℚ) < (base : ℚ) ^ (right + 1) := by exact_mod_cast lt_right
  have below : (base : ℚ) ^ ((left : Int) - right - 1) = (base : ℚ) ^ left / (base : ℚ) ^ (right + 1) := by
    rw [Int.sub_sub, zpow_sub₀ base_pos.ne', zpow_natCast]
    norm_cast
  have above : (base : ℚ) ^ ((left : Int) - right + 1) = (base : ℚ) ^ (left + 1) / (base : ℚ) ^ right := by
    rw [sub_add_eq_add_sub, zpow_sub₀ base_pos.ne', zpow_natCast]
    norm_cast
  rw [below, above]
  constructor
  · rw [div_lt_div_iff₀ (by positivity) den_pos]
    calc (base : ℚ) ^ left * den ≤ num * den := by gcongr
      _ < num * (base : ℚ) ^ (right + 1) := by gcongr; linarith [pow_pos base_pos left]
  · rw [div_lt_div_iff₀ den_pos (by positivity)]
    calc (num : ℚ) * (base : ℚ) ^ right ≤ num * den := by gcongr
      _ < (base : ℚ) ^ (left + 1) * den := by gcongr

end Scaled

namespace Binary64

/-- The value of a mantissa and an exponent. -/
def magnitude (mantissa : Nat) (exponent : Int) : ℚ := mantissa * (2 : ℚ) ^ exponent

theorem magnitude_pos {mantissa : Nat} (some_mantissa : 0 < mantissa) (exponent : Int) :
    0 < magnitude mantissa exponent := by
  rw [magnitude]
  positivity

/-- The value in quarters of a unit, which the bounds of its interval are counted in. -/
theorem magnitude_eq (mantissa : Nat) (exponent : Int) :
    magnitude mantissa exponent = 4 * mantissa * 2 ^ (exponent - 2) := by
  rw [magnitude, zpow_sub₀ (by norm_num)]
  ring

/-- The mantissa has all its bits unless the exponent is the least one. -/
structure Normal (mantissa : Nat) (exponent : Int) : Prop where
  bits : mantissa < 2 ^ 53
  full : exponent = minExponent ∨ 2 ^ 52 ≤ mantissa

section Rounding

variable {num den : Nat} {exponent : Int} {negative : Bool}

theorem roundDiv_bounds (num den : Nat) :
    num / den ≤ roundDiv num den ∧ roundDiv num den ≤ num / den + 1 := by
  rw [roundDiv]
  split
  · omega
  · split <;> omega

/-- Whether a fraction has at most so many bits above an exponent. -/
theorem scaled_lt_iff (some_den : 0 < den) (bits : Nat) (exponent : Int) :
    (scaled num den 2 (-exponent)).1 < (scaled num den 2 (-exponent)).2 * 2 ^ bits ↔
      (num : ℚ) / den < (2 : ℚ) ^ (bits + exponent) := by
  have pos : (0 : ℚ) < (scaled num den 2 (-exponent)).2 := by
    exact_mod_cast scaled_pos some_den (by decide)
  have same := scaled_eq num den (-exponent) (show 0 < 2 by decide)
  rw [Nat.cast_ofNat, zpow_neg, ← div_eq_mul_inv] at same
  rw [zpow_add₀ (by norm_num), ← div_lt_iff₀ (by positivity), ← same, div_lt_iff₀ pos, mul_comm]
  norm_cast

theorem fullExponent_bounds (some_num : 0 < num) (some_den : 0 < den) :
    (2 : ℚ) ^ (52 + fullExponent num den) ≤ num / den ∧
      (num : ℚ) / den < (2 : ℚ) ^ (53 + fullExponent num den) := by
  obtain ⟨below, above⟩ := fraction_bounds (show 1 < 2 by decide) some_den
    (Nat.log2_self_le some_num.ne') Nat.lt_log2_self (Nat.log2_self_le some_den.ne') Nat.lt_log2_self
  rw [Nat.cast_ofNat] at below above
  have fits (exponent : Int) := @scaled_lt_iff num den some_den 53 exponent
  rw [fullExponent]
  simp only [decide_eq_true_eq, Nat.pow_eq, fits]
  generalize (num : ℚ) / den = fraction at below above
  generalize (num.log2 : Int) - den.log2 = size at below above
  have shift (a b : Int) (same : a = b) : (2 : ℚ) ^ a = (2 : ℚ) ^ b := by rw [same]
  split
  · rename_i small
    refine ⟨?_, small⟩
    rw [shift (52 + (size - 52 - 1)) (size - 1) (by omega)]
    exact below.le
  · rename_i large
    have here : fraction < (2 : ℚ) ^ (((53 : Nat) : Int) + (size - 52)) := by
      rw [shift (((53 : Nat) : Int) + (size - 52)) (size + 1) (by omega)]
      exact above
    rw [if_pos here]
    refine ⟨?_, here⟩
    rw [shift (52 + (size - 52)) (((53 : Nat) : Int) + (size - 52 - 1)) (by omega)]
    exact not_lt.mp large

/-- A fraction of at most 53 bits is rounded to at most as many, and to all if it has them. -/
theorem roundedAt_cases (some_den : 0 < den) (bits : (num : ℚ) / den < (2 : ℚ) ^ (53 + exponent))
    (full : exponent = minExponent ∨ (2 : ℚ) ^ (52 + exponent) ≤ num / den) :
    roundedAt negative num den exponent = .infinite negative ∨ ∃ mantissa last,
      roundedAt negative num den exponent = .finite negative mantissa last ∧ Normal mantissa last := by
  have below := (@scaled_lt_iff num den some_den 53 exponent).mpr bits
  have above : exponent = minExponent ∨
      (scaled num den 2 (-exponent)).2 * 2 ^ 52 ≤ (scaled num den 2 (-exponent)).1 := by
    refine full.imp_right fun full => ?_
    rw [← not_lt, @scaled_lt_iff num den some_den 52 exponent, not_lt]
    exact full
  have some_unit : 0 < (scaled num den 2 (-exponent)).2 := scaled_pos some_den (by decide)
  rw [roundedAt]
  dsimp only
  generalize scaled num den 2 (-exponent) = parts at below above some_unit
  obtain ⟨n, d⟩ := parts
  dsimp only at below above some_unit ⊢
  have near := roundDiv_bounds n d
  have most : n / d < 2 ^ 53 := by
    rw [Nat.div_lt_iff_lt_mul some_unit, Nat.mul_comm]
    exact below
  have least : exponent = minExponent ∨ 2 ^ 52 ≤ n / d := by
    refine above.imp_right fun above => ?_
    rw [Nat.le_div_iff_mul_le some_unit, Nat.mul_comm]
    exact above
  generalize roundDiv n d = mantissa at near
  rw [Nat.pow_eq, Nat.pow_eq]
  by_cases carries : mantissa = 2 ^ 53
  · rw [if_pos carries]
    dsimp only
    split
    · exact .inl rfl
    · exact .inr ⟨_, _, rfl, by decide, .inr (Nat.le_refl _)⟩
  · rw [if_neg carries]
    dsimp only
    split
    · exact .inl rfl
    · exact .inr ⟨_, _, rfl, by omega, least.imp_right fun least => least.trans near.1⟩

theorem ofFraction_cases (negative : Bool) (some_num : 0 < num) (some_den : 0 < den) :
    ofFraction negative num den = .infinite negative ∨ ∃ mantissa exponent,
      ofFraction negative num den = .finite negative mantissa exponent ∧ Normal mantissa exponent := by
  obtain ⟨full, bits⟩ := fullExponent_bounds some_num some_den
  rw [ofFraction]
  apply roundedAt_cases some_den
  · apply bits.trans_le
    exact zpow_le_zpow_right₀ (by norm_num) (by omega)
  · rcases max_choice minExponent (fullExponent num den) with same | same
    · exact .inl same
    · rw [same]
      exact .inr full

/-- A decimal is read to zero, to a normal double or to an infinite one. -/
theorem ofDecimal_cases (negative : Bool) (digits : Nat) (power : Int) :
    ofDecimal negative digits power = .infinite negative ∨ ∃ mantissa exponent,
      ofDecimal negative digits power = .finite negative mantissa exponent ∧
        (mantissa = 0 ∨ Normal mantissa exponent) := by
  rw [ofDecimal]
  split
  · exact .inr ⟨_, _, rfl, .inl rfl⟩
  · rename_i nonzero
    dsimp only
    split
    · exact .inl rfl
    · split
      · exact .inr ⟨_, _, rfl, .inl rfl⟩
      · have some_num : 0 < (scaled digits 1 10 power).1 := by
          rw [scaled]
          split
          · exact Nat.mul_pos (Nat.pos_of_ne_zero nonzero) (Nat.pow_pos (by decide))
          · exact Nat.pos_of_ne_zero nonzero
        have some_den : 0 < (scaled digits 1 10 power).2 := scaled_pos (by decide) (by decide)
        refine (ofFraction_cases negative some_num some_den).imp_right ?_
        rintro ⟨mantissa, exponent, same, normal⟩
        exact ⟨mantissa, exponent, same, .inr normal⟩

end Rounding

section Intervals

variable {range : Interval} {digits gap : Nat} {power : Int}

theorem scaled_ten (digits : Nat) (power : Int) :
    0 < (scaled digits 1 10 power).2 ∧
      ((scaled digits 1 10 power).1 : ℚ) / (scaled digits 1 10 power).2 = digits * 10 ^ power := by
  have same := scaled_eq digits 1 power (show 0 < 10 by decide)
  rw [Nat.cast_one, div_one, Nat.cast_ofNat] at same
  exact ⟨scaled_pos (by decide) (by decide), same⟩

theorem lt_point_iff {den : Nat} (some_den : 0 < den) (bound digits : Nat) (power : Int) :
    bound * (scaled digits 1 10 power).2 < (scaled digits 1 10 power).1 * den ↔
      (bound : ℚ) / den < digits * 10 ^ power := by
  obtain ⟨some_unit, same⟩ := scaled_ten digits power
  rw [← same, div_lt_div_iff₀ (by exact_mod_cast some_den) (by exact_mod_cast some_unit)]
  norm_cast

theorem point_lt_iff {den : Nat} (some_den : 0 < den) (bound digits : Nat) (power : Int) :
    (scaled digits 1 10 power).1 * den < bound * (scaled digits 1 10 power).2 ↔
      (digits : ℚ) * 10 ^ power < bound / den := by
  obtain ⟨some_unit, same⟩ := scaled_ten digits power
  rw [← same, div_lt_div_iff₀ (by exact_mod_cast some_unit) (by exact_mod_cast some_den)]
  norm_cast

/-- A decimal reads back only between the bounds. -/
theorem distance?_bounds (some_den : 0 < range.den) (ordered : range.low ≤ range.high)
    (near : range.distance? digits power = some gap) :
    (range.low : ℚ) / range.den ≤ digits * 10 ^ power ∧
      (digits : ℚ) * 10 ^ power ≤ range.high / range.den := by
  rw [← not_lt, ← not_lt, ← point_lt_iff some_den, ← lt_point_iff some_den]
  have wide : range.low * (scaled digits 1 10 power).2 ≤ range.high * (scaled digits 1 10 power).2 :=
    Nat.mul_le_mul_right _ ordered
  rw [Interval.distance?] at near
  dsimp only at near
  split at near
  · rename_i inside
    simp only [Bool.or_eq_true, Bool.and_eq_true, decide_eq_true_eq] at inside
    omega
  · cases near

theorem exists_distance? (some_den : 0 < range.den)
    (low : (range.low : ℚ) / range.den < digits * 10 ^ power)
    (high : (digits : ℚ) * 10 ^ power < range.high / range.den) :
    ∃ gap, range.distance? digits power = some gap := by
  rw [← lt_point_iff some_den] at low
  rw [← point_lt_iff some_den] at high
  rw [Interval.distance?]
  dsimp only
  exact ⟨_, if_pos (by simp [low, high])⟩

/-- A point of a grid that is found reads back. -/
theorem distance?_of_onGrid? (found : range.onGrid? power = some digits) :
    ∃ gap, range.distance? digits power = some gap := by
  rw [Interval.onGrid?] at found
  dsimp only at found
  split at found
  · rename_i left right same_left same_right
    split at found
    · cases found
      exact ⟨left, same_left⟩
    · cases found
      exact ⟨right, same_right⟩
  · rename_i left same_left _
    cases found
    exact ⟨left, same_left⟩
  · rename_i right _ same_right
    cases found
    exact ⟨right, same_right⟩
  · cases found

/-- A grid whose point below the value reads back has a point that is found. -/
theorem exists_onGrid? {below : Nat}
    (same : (scaled range.value range.den 10 (-power)).1 /
      (scaled range.value range.den 10 (-power)).2 = below)
    (near : range.distance? below power = some gap) :
    ∃ digits, range.onGrid? power = some digits ∧ below ≤ digits := by
  rw [Interval.onGrid?]
  dsimp only
  rw [same, near]
  split
  · split
    · exact ⟨_, rfl, Nat.le_refl _⟩
    · exact ⟨_, rfl, Nat.le_succ _⟩
  · exact ⟨_, rfl, Nat.le_refl _⟩
  · exact ⟨_, rfl, Nat.le_succ _⟩
  · simp_all

/-- If the finest grid that is tried has a point that is found, one is found. -/
theorem shortest_onGrid? (range : Interval) (tries : Nat) (power : Int)
    (finest : ∃ digits, range.onGrid? (power - tries) = some digits ∧ digits ≠ 0) :
    range.onGrid? (range.shortest (tries + 1) power).2 = some (range.shortest (tries + 1) power).1 ∧
      (range.shortest (tries + 1) power).1 ≠ 0 := by
  induction tries generalizing power with
  | zero =>
    obtain ⟨digits, found, nonzero⟩ := finest
    rw [Nat.cast_zero, sub_zero] at found
    rw [Interval.shortest, found]
    simp [nonzero, found]
  | succ tries ih =>
    have finer : power - ((tries + 1 : Nat) : Int) = power - 1 - tries := by omega
    rw [finer] at finest
    have later := ih (power - 1) finest
    rw [Interval.shortest]
    cases found : range.onGrid? power with
    | none => exact later
    | some digits =>
      dsimp only
      by_cases zero : digits = 0
      · rw [if_pos zero]
        exact later
      · rw [if_neg zero]
        exact ⟨found, zero⟩

end Intervals

section Digits

variable {mantissa : Nat} {exponent : Int}

/-- The bounds are half a unit away from the value, or a quarter below a power of two. -/
theorem interval_bounds (some_mantissa : 0 < mantissa) (exponent : Int) :
    let range := interval mantissa exponent
    0 < range.den ∧ range.low ≤ range.high ∧
      (range.value : ℚ) / range.den = magnitude mantissa exponent ∧
      (range.high : ℚ) / range.den = (4 * mantissa + 2) * 2 ^ (exponent - 2) ∧
      (4 * mantissa - 2) * 2 ^ (exponent - 2) ≤ (range.low : ℚ) / range.den ∧
      (range.low : ℚ) / range.den ≤ (4 * mantissa - 1) * 2 ^ (exponent - 2) := by
  have unit := scaled_eq 1 1 (exponent - 2) (show 0 < 2 by decide)
  have some_den : 0 < (scaled 1 1 2 (exponent - 2)).2 := scaled_pos (by decide) (by decide)
  rw [Nat.cast_one, div_one, one_mul, Nat.cast_ofNat] at unit
  have some_unit : (0 : ℚ) < 2 ^ (exponent - 2) := by positivity
  rw [interval]
  dsimp only
  have gap : ∃ gap, (1 ≤ gap ∧ gap ≤ 2) ∧
      (if mantissa = Nat.pow 2 52 ∧ minExponent < exponent then 1 else 2) = gap := by
    refine ⟨_, ?_, rfl⟩
    split <;> omega
  obtain ⟨gap, ⟨least, most⟩, same⟩ := gap
  rw [same]
  generalize scaled 1 1 2 (exponent - 2) = parts at unit some_den
  obtain ⟨n, d⟩ := parts
  dsimp only at unit some_den ⊢
  have low : ((4 * mantissa - gap : Nat) : ℚ) = 4 * mantissa - gap := by
    rw [Nat.cast_sub (by omega)]
    norm_cast
  have least : (1 : ℚ) ≤ gap := by exact_mod_cast least
  have most : (gap : ℚ) ≤ 2 := by exact_mod_cast most
  refine ⟨some_den, Nat.mul_le_mul_right _ (by omega), ?_, ?_, ?_, ?_⟩
  · rw [Nat.cast_mul, mul_div_assoc, unit, magnitude_eq]
    norm_cast
  · rw [Nat.cast_mul, mul_div_assoc, unit]
    norm_cast
  · rw [Nat.cast_mul, mul_div_assoc, unit, low]
    gcongr
  · rw [Nat.cast_mul, mul_div_assoc, unit, low]
    gcongr

theorem toDigits_bounds {value : Nat} (some_value : 0 < value) :
    10 ^ ((Nat.toDigits 10 value).length - 1) ≤ value ∧
      value < 10 ^ ((Nat.toDigits 10 value).length - 1 + 1) := by
  have length_pos : 0 < (Nat.toDigits 10 value).length := Nat.length_toDigits_pos
  rw [Nat.sub_add_cancel length_pos]
  refine ⟨?_, (Nat.length_toDigits_le_iff (by decide) length_pos).mp (Nat.le_refl _)⟩
  by_contra small
  rcases Nat.eq_zero_or_pos ((Nat.toDigits 10 value).length - 1) with one | many
  · rw [one, Nat.pow_zero] at small
    omega
  · have shorter := (Nat.length_toDigits_le_iff (by decide) many).mpr (Nat.lt_of_not_le small)
    omega

/-- A value is above a power of ten that the lengths of its parts tell. -/
theorem ten_pow_lt_magnitude (some_mantissa : 0 < mantissa) (exponent : Int) :
    (10 : ℚ) ^ (((Nat.toDigits 10 (scaled mantissa 1 2 exponent).1).length : Int) -
        (Nat.toDigits 10 (scaled mantissa 1 2 exponent).2).length - 1) <
      magnitude mantissa exponent := by
  have value := scaled_eq mantissa 1 exponent (show 0 < 2 by decide)
  have some_den : 0 < (scaled mantissa 1 2 exponent).2 := scaled_pos (by decide) (by decide)
  rw [Nat.cast_one, div_one, Nat.cast_ofNat, ← magnitude] at value
  have some_num : 0 < (scaled mantissa 1 2 exponent).1 := by
    rw [Nat.pos_iff_ne_zero]
    intro zero
    have some_value := magnitude_pos some_mantissa exponent
    rw [← value, zero, Nat.cast_zero, zero_div] at some_value
    exact some_value.false
  generalize scaled mantissa 1 2 exponent = parts at value some_den some_num
  obtain ⟨num, den⟩ := parts
  dsimp only at value some_den some_num ⊢
  have num_length : 0 < (Nat.toDigits 10 num).length := Nat.length_toDigits_pos
  have den_length : 0 < (Nat.toDigits 10 den).length := Nat.length_toDigits_pos
  have bounds := (fraction_bounds (show 1 < 10 by decide) some_den (toDigits_bounds some_num).1
    (toDigits_bounds some_num).2 (toDigits_bounds some_den).1 (toDigits_bounds some_den).2).1
  rw [value, Nat.cast_ofNat] at bounds
  have same : ((Nat.toDigits 10 num).length : Int) - (Nat.toDigits 10 den).length - 1 =
      (((Nat.toDigits 10 num).length - 1 : Nat) : Int) -
        ((Nat.toDigits 10 den).length - 1 : Nat) - 1 := by omega
  rw [same]
  exact bounds

/-- On a grid that is finer than the value by seventeen digits, the point below the value reads back. -/
theorem exists_fine_digits (some_mantissa : 0 < mantissa) (bits : mantissa < 2 ^ 53) {power : Int}
    (fine : (10 : ℚ) ^ (power + 17) < magnitude mantissa exponent) :
    ∃ digits, (interval mantissa exponent).onGrid? power = some digits ∧ digits ≠ 0 := by
  obtain ⟨some_den, _, value, high, _, low⟩ := interval_bounds some_mantissa exponent
  generalize interval mantissa exponent = range at some_den value high low
  have grid_pos : (0 : ℚ) < 10 ^ power := by positivity
  have unit_pos : (0 : ℚ) < 2 ^ (exponent - 2) := by positivity
  have bits : (mantissa : ℚ) < 2 ^ 53 := by exact_mod_cast bits
  rw [zpow_add₀ (by norm_num)] at fine
  have narrow : (10 : ℚ) ^ power < 2 ^ (exponent - 2) := by
    have : (10 : ℚ) ^ power * 10 ^ (17 : Int) < 2 ^ 55 * 2 ^ (exponent - 2) := by
      rw [magnitude_eq] at fine
      calc (10 : ℚ) ^ power * 10 ^ (17 : Int) < 4 * mantissa * 2 ^ (exponent - 2) := fine
        _ ≤ 2 ^ 55 * 2 ^ (exponent - 2) := by gcongr; linarith
    norm_num at this
    linarith
  have ratio := scaled_eq range.value range.den (-power) (show 0 < 10 by decide)
  have some_parts : 0 < (scaled range.value range.den 10 (-power)).2 := scaled_pos some_den (by decide)
  rw [value, Nat.cast_ofNat, zpow_neg, ← div_eq_mul_inv] at ratio
  obtain ⟨below, same⟩ : ∃ below, (scaled range.value range.den 10 (-power)).1 /
      (scaled range.value range.den 10 (-power)).2 = below := ⟨_, rfl⟩
  have down : (below : ℚ) * 10 ^ power ≤ magnitude mantissa exponent := by
    rw [← le_div_iff₀ grid_pos, ← ratio, ← same]
    exact Nat.cast_div_le
  have up : magnitude mantissa exponent < (below + 1) * 10 ^ power := by
    rw [← div_lt_iff₀ grid_pos, ← ratio, div_lt_iff₀ (by exact_mod_cast some_parts), ← same, mul_comm]
    exact_mod_cast Nat.lt_mul_div_succ _ some_parts
  rw [magnitude_eq] at down up
  have some_below : 0 < below := by
    rw [Nat.pos_iff_ne_zero]
    rintro rfl
    rw [magnitude_eq] at fine
    rw [Nat.cast_zero, zero_add, one_mul] at up
    have := fine.trans up
    norm_num at this
    linarith
  obtain ⟨gap, near⟩ : ∃ gap, range.distance? below power = some gap := by
    apply exists_distance? some_den
    · linarith
    · rw [high]
      linarith
  obtain ⟨digits, found, least⟩ := exists_onGrid? same near
  exact ⟨digits, found, by omega⟩

/-- Dropped zeros count in the power. -/
theorem dropZeros_eq (fuel digits : Nat) (power : Int) (nonzero : digits ≠ 0) :
    (dropZeros fuel digits power).1 ≠ 0 ∧
      ((dropZeros fuel digits power).1 : ℚ) * 10 ^ (dropZeros fuel digits power).2 =
        digits * 10 ^ power := by
  induction fuel generalizing digits power with
  | zero => exact ⟨nonzero, rfl⟩
  | succ fuel ih =>
    rw [dropZeros]
    split
    · rename_i ends
      obtain ⟨tenth, rfl⟩ : ∃ tenth, digits = 10 * tenth := Nat.dvd_of_mod_eq_zero ends.1
      rw [Nat.mul_div_cancel_left _ (by decide)]
      obtain ⟨kept, same⟩ := ih tenth (power + 1) (by omega)
      refine ⟨kept, same.trans ?_⟩
      rw [zpow_add_one₀ (by norm_num)]
      push_cast
      ring
    · exact ⟨nonzero, rfl⟩

/-- The fewest digits of a value read back. -/
theorem shortestDigits_bounds (some_mantissa : 0 < mantissa) (bits : mantissa < 2 ^ 53)
    (exponent : Int) :
    (shortestDigits mantissa exponent).1 ≠ 0 ∧
      (4 * mantissa - 2) * 2 ^ (exponent - 2) ≤
        ((shortestDigits mantissa exponent).1 : ℚ) * 10 ^ (shortestDigits mantissa exponent).2 ∧
      ((shortestDigits mantissa exponent).1 : ℚ) * 10 ^ (shortestDigits mantissa exponent).2 ≤
        (4 * mantissa + 2) * 2 ^ (exponent - 2) := by
  obtain ⟨some_den, ordered, _, high, low, _⟩ := interval_bounds some_mantissa exponent
  have above := ten_pow_lt_magnitude some_mantissa exponent
  rw [shortestDigits]
  dsimp only
  generalize ((Nat.toDigits 10 (scaled mantissa 1 2 exponent).1).length : Int) -
    (Nat.toDigits 10 (scaled mantissa 1 2 exponent).2).length = top at above
  have finest : ∃ digits, (interval mantissa exponent).onGrid? (top + 1 - (19 : Nat)) = some digits ∧
      digits ≠ 0 := by
    apply exists_fine_digits some_mantissa bits
    rwa [show top + 1 - ((19 : Nat) : Int) + 17 = top - 1 by omega]
  obtain ⟨found, nonzero⟩ := shortest_onGrid? (interval mantissa exponent) 19 (top + 1) finest
  obtain ⟨gap, near⟩ := distance?_of_onGrid? found
  obtain ⟨left, right⟩ := distance?_bounds some_den ordered near
  obtain ⟨kept, same⟩ := dropZeros_eq 25 _ ((interval mantissa exponent).shortest 20 (top + 1)).2 nonzero
  refine ⟨kept, ?_, ?_⟩
  · rw [same]
    exact low.trans left
  · rw [same]
    exact right.trans high.le

/-- Where the point stands among the fewest digits. -/
def point (mantissa : Nat) (exponent : Int) : Int :=
  (toString (shortestDigits mantissa exponent).1).length + (shortestDigits mantissa exponent).2

theorem point_bounds (nonzero : (shortestDigits mantissa exponent).1 ≠ 0) :
    (10 : ℚ) ^ (point mantissa exponent - 1) ≤
        (shortestDigits mantissa exponent).1 * 10 ^ (shortestDigits mantissa exponent).2 ∧
      ((shortestDigits mantissa exponent).1 : ℚ) * 10 ^ (shortestDigits mantissa exponent).2 <
        10 ^ point mantissa exponent := by
  rw [point]
  generalize shortestDigits mantissa exponent = shortest at nonzero
  obtain ⟨digits, power⟩ := shortest
  dsimp only at nonzero ⊢
  have grid_pos : (0 : ℚ) < 10 ^ power := by positivity
  have length_pos : 0 < (Nat.toDigits 10 digits).length := Nat.length_toDigits_pos
  obtain ⟨least, most⟩ := toDigits_bounds (Nat.pos_of_ne_zero nonzero)
  rw [Nat.toString_eq_ofList_toDigits, String.length_ofList]
  generalize (Nat.toDigits 10 digits).length = length at length_pos least most
  obtain ⟨shorter, rfl⟩ := Nat.exists_eq_add_of_le' length_pos
  rw [Nat.add_sub_cancel] at least most
  constructor
  · rw [show ((shorter + 1 : Nat) : Int) + power - 1 = (shorter : Int) + power by omega,
      zpow_add₀ (by norm_num), zpow_natCast]
    gcongr
    exact_mod_cast least
  · rw [zpow_add₀ (by norm_num), zpow_natCast]
    gcongr
    exact_mod_cast most

theorem le_point_iff (nonzero : (shortestDigits mantissa exponent).1 ≠ 0) (least : Int) :
    least ≤ point mantissa exponent ↔
      (10 : ℚ) ^ (least - 1) ≤
        (shortestDigits mantissa exponent).1 * 10 ^ (shortestDigits mantissa exponent).2 := by
  obtain ⟨below, above⟩ := point_bounds nonzero
  constructor
  · intro le
    exact (zpow_le_zpow_right₀ (by norm_num) (by omega)).trans below
  · intro le
    have lt := le.trans_lt above
    rw [zpow_lt_zpow_iff_right₀ (by norm_num)] at lt
    omega

/-- The double nearest to `10 ^ -4` is above it and has a single digit. -/
theorem shortestDigits_tenThousandth : shortestDigits 7378697629483821 (-66) = (1, -4) := by
  decide +kernel

/-- A double has its point at most three places in front of its first digit iff it is not below
`10 ^ -4`: rounding to the fewest digits keeps the order of a double and that bound. -/
theorem neg_three_le_point_iff (normal : Normal mantissa exponent) (some_mantissa : 0 < mantissa) :
    -3 ≤ point mantissa exponent ↔ (10 : ℚ) ^ (-4 : Int) ≤ magnitude mantissa exponent := by
  obtain ⟨nonzero, low, high⟩ := shortestDigits_bounds some_mantissa normal.bits exponent
  rw [le_point_iff nonzero]
  rw [magnitude_eq]
  have unit_pos : (0 : ℚ) < 2 ^ (exponent - 2) := by positivity
  have some_mantissa : (1 : ℚ) ≤ mantissa := by exact_mod_cast some_mantissa
  have below (small : (4 * mantissa + 2) * (2 : ℚ) ^ (exponent - 2) < 10 ^ (-4 : Int)) :
      ((10 : ℚ) ^ (-3 - 1 : Int) ≤ (shortestDigits mantissa exponent).1 *
        10 ^ (shortestDigits mantissa exponent).2 ↔
        (10 : ℚ) ^ (-4 : Int) ≤ 4 * mantissa * 2 ^ (exponent - 2)) := by
    refine iff_of_false (not_le.mpr (high.trans_lt small)) (not_le.mpr ?_)
    linarith
  have above (large : (10 : ℚ) ^ (-4 : Int) ≤ (4 * mantissa - 2) * 2 ^ (exponent - 2)) :
      ((10 : ℚ) ^ (-3 - 1 : Int) ≤ (shortestDigits mantissa exponent).1 *
        10 ^ (shortestDigits mantissa exponent).2 ↔
        (10 : ℚ) ^ (-4 : Int) ≤ 4 * mantissa * 2 ^ (exponent - 2)) := by
    refine iff_of_true (large.trans low) ?_
    linarith
  rcases lt_trichotomy exponent (-66) with tiny | same | large
  · apply below
    have unit_le : (2 : ℚ) ^ (exponent - 2) ≤ 2 ^ (-69 : Int) :=
      zpow_le_zpow_right₀ (by norm_num) (by omega)
    have bits : (mantissa : ℚ) + 1 ≤ 2 ^ 53 := by exact_mod_cast normal.bits
    calc (4 * mantissa + 2) * (2 : ℚ) ^ (exponent - 2)
        ≤ (4 * (2 ^ 53 - 1) + 2) * 2 ^ (-69 : Int) := by gcongr; linarith
      _ < 10 ^ (-4 : Int) := by norm_num
  · subst same
    rcases lt_trichotomy mantissa 7378697629483821 with small | rfl | large
    · apply below
      have : (mantissa : ℚ) ≤ 7378697629483820 := by exact_mod_cast Nat.le_of_lt_succ small
      norm_num
      linarith
    · rw [shortestDigits_tenThousandth]
      norm_num
    · apply above
      have : (7378697629483822 : ℚ) ≤ mantissa := by exact_mod_cast large
      norm_num
      linarith
  · apply above
    have full : 2 ^ 52 ≤ mantissa := by
      rcases normal.full with least | full
      · rw [least, minExponent] at large
        omega
      · exact full
    have full : (2 : ℚ) ^ 52 ≤ mantissa := by exact_mod_cast full
    have unit_le : (2 : ℚ) ^ (-67 : Int) ≤ 2 ^ (exponent - 2) :=
      zpow_le_zpow_right₀ (by norm_num) (by omega)
    calc (10 : ℚ) ^ (-4 : Int) ≤ (4 * 2 ^ 52 - 2) * 2 ^ (-67 : Int) := by norm_num
      _ ≤ (4 * mantissa - 2) * 2 ^ (exponent - 2) := by gcongr; linarith

/-- A double with a fraction has at most sixteen digits in front of the point. -/
theorem point_le_of_fraction (normal : Normal mantissa exponent) (some_mantissa : 0 < mantissa)
    (fraction : exponent < 0) : point mantissa exponent ≤ 16 := by
  obtain ⟨nonzero, _, high⟩ := shortestDigits_bounds some_mantissa normal.bits exponent
  rw [← not_lt, ← Int.add_one_le_iff, le_point_iff nonzero, not_le]
  have unit_le : (2 : ℚ) ^ (exponent - 2) ≤ 2 ^ (-3 : Int) :=
    zpow_le_zpow_right₀ (by norm_num) (by omega)
  have bits : (mantissa : ℚ) ≤ 2 ^ 53 := by exact_mod_cast normal.bits.le
  calc ((shortestDigits mantissa exponent).1 : ℚ) * 10 ^ (shortestDigits mantissa exponent).2
      ≤ (4 * mantissa + 2) * 2 ^ (exponent - 2) := high
    _ ≤ (4 * 2 ^ 53 + 2) * 2 ^ (-3 : Int) := by gcongr
    _ < 10 ^ (16 + 1 - 1 : Int) := by norm_num

/-- A double of more than twenty-one digits has its point behind the sixteenth. -/
theorem lt_point_of_large (normal : Normal mantissa exponent) (some_mantissa : 0 < mantissa)
    (large : (10 : ℚ) ^ 21 ≤ magnitude mantissa exponent) : 16 < point mantissa exponent := by
  obtain ⟨nonzero, low, _⟩ := shortestDigits_bounds some_mantissa normal.bits exponent
  rw [← Int.add_one_le_iff, le_point_iff nonzero]
  have some_mantissa : (1 : ℚ) ≤ mantissa := by exact_mod_cast some_mantissa
  have unit_pos : (0 : ℚ) < 2 ^ (exponent - 2) := by positivity
  rw [magnitude_eq] at large
  refine le_trans ?_ low
  norm_num at large ⊢
  nlinarith

end Digits

end Binary64

end ApiSections.Number
