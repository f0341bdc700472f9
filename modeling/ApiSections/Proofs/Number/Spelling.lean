import ApiSections.Number.Literal
import ApiSections.Proofs.Number.Shortest
import ApiSections.Proofs.TypeText.Numeric

/-!
Doubles that are written in plain digits: those that are neither too large nor too small to be written
without an exponent.
-/

namespace ApiSections.Number

open TypeText

section Written

variable {text digits : List Char} {c : Char}

theorem isDigit_of_ascii (ascii : c.isDigit = true) : Text.isDigit c = true := by
  simp [Text.isDigit, Text.digitValue?, ascii]

theorem isDigits_toDigits (value : Nat) : IsDigits (Nat.toDigits 10 value) := by
  refine ⟨List.ne_nil_of_length_pos Nat.length_toDigits_pos, ?_⟩
  intro c member
  exact isDigit_of_ascii (Nat.isDigit_of_mem_toDigits (by decide) (by decide) member)

/-- Digits alone, or with a fraction. -/
inductive IsPlain : List Char → Prop where
  | digits {text : List Char} (is : IsDigits text) : IsPlain text
  | pointed {whole fraction : List Char} (left : IsDigits whole) (right : IsDigits fraction) :
      IsPlain (whole ++ '.' :: fraction)

/-- A text that starts as a number does, or as an infinity. -/
def Starts (text : List Char) : Prop := ∃ c ∈ text.head?, Text.isDigit c = true ∨ c = '.' ∨ c = 'i'

theorem Starts.head?_ne (starts : Starts text) (other : Text.isDigit c = false ∧ c ≠ '.' ∧ c ≠ 'i') :
    text.head? ≠ some c := by
  obtain ⟨d, first, is⟩ := starts
  obtain ⟨notDigit, notPoint, notLetter⟩ := other
  rw [Option.mem_def.mp first]
  intro same
  cases same
  rcases is with digit | point | letter
  · rw [digit] at notDigit
    cases notDigit
  · exact notPoint point
  · exact notLetter letter

theorem Starts.unsigned (starts : Starts text) : text.head? ≠ some '-' := starts.head?_ne (by decide)

theorem starts_digits (is : IsDigits text) (rest : List Char) : Starts (text ++ rest) := by
  obtain ⟨nonempty, digits⟩ := is
  cases text with
  | nil => exact absurd rfl nonempty
  | cons c text => exact ⟨c, rfl, .inl (digits c List.mem_cons_self)⟩

theorem IsPlain.isNumeric (plain : IsPlain text) : isNumeric text = true ∧ Starts text := by
  cases plain with
  | digits is =>
    have starts : Starts text := by
      rw [← List.append_nil text]
      exact starts_digits is []
    exact ⟨(isNumeric_iff starts.unsigned).mpr ⟨text, [], [], by simp, is, .none, .inl rfl⟩, starts⟩
  | @pointed whole fraction left right =>
    have starts := starts_digits left ('.' :: fraction)
    refine ⟨?_, starts⟩
    exact (isNumeric_iff starts.unsigned).mpr
      ⟨whole, '.' :: fraction, [], by simp, left, .some right, .inl rfl⟩

theorem isDigit_of_mem_zeros (count : Nat) (member : c ∈ (zeros count).toList) :
    Text.isDigit c = true := by
  rw [zeros, String.toList_ofList] at member
  rw [List.eq_of_mem_replicate member]
  decide

/-- Digits with a point somewhere are plain. -/
theorem isPlain_positional {digits : String} (is : IsDigits digits.toList) (point : Int) :
    IsPlain (positional digits point).toList := by
  have zero : IsDigits ['0'] := ⟨by simp, by simp only [List.mem_singleton, forall_eq]; decide⟩
  rw [positional]
  split
  · have behind : IsDigits ((zeros (-point).toNat).toList ++ digits.toList) := by
      refine ⟨by simp [is.nonempty], fun c member => ?_⟩
      rcases List.mem_append.mp member with member | member
      · exact isDigit_of_mem_zeros _ member
      · exact is.digits c member
    have text := IsPlain.pointed zero behind
    simpa using text
  · rename_i inside
    split
    · have front := is.append fun _ => isDigit_of_mem_zeros (point.toNat - digits.length)
      have text := IsPlain.pointed front zero
      simpa using text
    · rename_i short
      rw [String.length_toList.symm] at short
      have front : IsDigits (digits.toList.take point.toNat) :=
        ⟨by simp [is.nonempty]; omega, fun c member => is.digits c (List.mem_of_mem_take member)⟩
      have behind : IsDigits (digits.toList.drop point.toNat) :=
        ⟨by simp; omega, fun c member => is.digits c (List.mem_of_mem_drop member)⟩
      have text := IsPlain.pointed front behind
      simpa using text

/-- An exponent is not plain. -/
theorem not_isNumeric_withExponent {digits : String} (is : IsDigits digits.toList) (style : Style)
    (point : Int) : isNumeric (withExponent style digits point).toList = false ∧
      Starts (withExponent style digits point).toList := by
  have marked : 'e' ∈ (withExponent style digits point).toList := by
    simp [withExponent]
  have starts : Starts (withExponent style digits point).toList := by
    obtain ⟨nonempty, each⟩ := is
    rw [withExponent]
    cases inside : digits.toList with
    | nil => exact absurd inside nonempty
    | cons c rest =>
      refine ⟨c, ?_, .inl (each c (by simp [inside]))⟩
      cases rest with
      | nil => simp
      | cons d rest => simp
  exact ⟨not_isNumeric_of_mem marked starts.unsigned (by decide), starts⟩

end Written

namespace Binary64

variable {mantissa : Nat} {exponent : Int}

theorem render_eq (some_mantissa : 0 < mantissa) (exponent : Int) :
    (finite false mantissa exponent).render plainStyle =
      let digits := toString (shortestDigits mantissa exponent).1
      if -3 ≤ point mantissa exponent ∧ point mantissa exponent ≤ 16 then
        positional digits (point mantissa exponent)
      else withExponent plainStyle digits (point mantissa exponent) := by
  rw [render]
  simp only [some_mantissa.ne', point, plainStyle, Bool.and_eq_true, if_false]
  simp

theorem isNumeric_render_iff (some_mantissa : 0 < mantissa) (exponent : Int) :
    let text := ((finite false mantissa exponent).render plainStyle).toList
    (isNumeric text = true ↔ -3 ≤ point mantissa exponent ∧ point mantissa exponent ≤ 16) ∧
      Starts text := by
  rw [render_eq some_mantissa]
  dsimp only
  have digits : IsDigits (toString (shortestDigits mantissa exponent).1).toList := by
    rw [Nat.toString_eq_ofList_toDigits, String.toList_ofList]
    exact isDigits_toDigits _
  split
  · rename_i inside
    obtain ⟨numeric, starts⟩ := (isPlain_positional digits (point mantissa exponent)).isNumeric
    exact ⟨iff_of_true numeric inside, starts⟩
  · rename_i outside
    obtain ⟨other, starts⟩ := not_isNumeric_withExponent digits plainStyle (point mantissa exponent)
    exact ⟨iff_of_false (by rw [other]; exact Bool.false_ne_true) outside, starts⟩

theorem toInt?_eq_some {integer : Int}
    (is : (finite false mantissa exponent).toInt? = some integer) :
    0 ≤ integer ∧ (integer : ℚ) = magnitude mantissa exponent := by
  have value := scaled_eq mantissa 1 exponent (show 0 < 2 by decide)
  have some_den : 0 < (scaled mantissa 1 2 exponent).2 := scaled_pos (by decide) (by decide)
  rw [Nat.cast_one, div_one, Nat.cast_ofNat, ← magnitude] at value
  rw [toInt?] at is
  dsimp only at is
  generalize scaled mantissa 1 2 exponent = parts at value some_den is
  obtain ⟨num, den⟩ := parts
  dsimp only at value some_den is
  split at is
  · rename_i divides
    obtain ⟨quotient, rfl⟩ := Nat.dvd_of_mod_eq_zero divides
    rw [Nat.mul_div_cancel_left _ some_den] at is
    cases is
    have den_ne : (den : ℚ) ≠ 0 := by exact_mod_cast some_den.ne'
    refine ⟨by simp, ?_⟩
    rw [← value, Nat.cast_mul, mul_div_cancel_left₀ _ den_ne]
    simp
  · cases is

/-- Only a negative exponent leaves a fraction. -/
theorem neg_of_toInt?_eq_none (is : (finite false mantissa exponent).toInt? = none) :
    exponent < 0 ∧ 0 < mantissa := by
  rw [toInt?] at is
  dsimp only at is
  split at is
  · cases is
  · rename_i rest
    constructor
    · by_contra up
      rw [scaled, if_pos (not_lt.mp up)] at rest
      exact rest (Nat.mod_one _)
    · rw [Nat.pos_iff_ne_zero]
      rintro rfl
      apply rest
      rw [scaled]
      split <;> simp

/-- A double that is zero, or neither below `10 ^ -4` nor of more than 21 digits. -/
def Moderate (value : ℚ) : Prop := value = 0 ∨ (10 : ℚ) ^ (-4 : Int) ≤ value ∧ value < 10 ^ 21

/-- An integer is shown in full up to that bound. -/
theorem isNumeric_integer_iff {natural : Nat} (normal : mantissa = 0 ∨ Normal mantissa exponent)
    (value : (natural : ℚ) = magnitude mantissa exponent) :
    let text := if natural < 10 ^ 21 then decimalText natural
      else (finite false mantissa exponent).render plainStyle
    (isNumeric text.toList = true ↔ Moderate (natural : ℚ)) ∧ Starts text.toList := by
  dsimp only
  split
  · rename_i short
    rw [decimalText, String.toList_ofList]
    obtain ⟨numeric, starts⟩ := (IsPlain.digits (isDigits_toDigits natural)).isNumeric
    refine ⟨iff_of_true numeric ?_, starts⟩
    rcases Nat.eq_zero_or_pos natural with rfl | some_value
    · exact .inl (by simp)
    · refine .inr ⟨?_, by exact_mod_cast short⟩
      have least : (1 : ℚ) ≤ natural := by exact_mod_cast some_value
      norm_num
      linarith
  · rename_i long
    have large : (10 : ℚ) ^ 21 ≤ natural := by exact_mod_cast not_lt.mp long
    have some_mantissa : 0 < mantissa := by
      rw [Nat.pos_iff_ne_zero]
      rintro rfl
      rw [value, magnitude, Nat.cast_zero, zero_mul] at large
      norm_num at large
    have behind := lt_point_of_large (normal.resolve_left some_mantissa.ne') some_mantissa (value ▸ large)
    obtain ⟨numeric, starts⟩ := isNumeric_render_iff some_mantissa exponent
    refine ⟨numeric.trans (iff_of_false (by omega) ?_), starts⟩
    rintro (zero | ⟨_, small⟩)
    · rw [zero] at large
      norm_num at large
    · exact absurd small (not_lt.mpr large)

/-- A fraction is shown in full from the lower bound on. -/
theorem isNumeric_fraction_iff (normal : Normal mantissa exponent) (some_mantissa : 0 < mantissa)
    (down : exponent < 0) :
    let text := ((finite false mantissa exponent).render plainStyle).toList
    (isNumeric text = true ↔ Moderate (magnitude mantissa exponent)) ∧ Starts text := by
  obtain ⟨numeric, starts⟩ := isNumeric_render_iff some_mantissa exponent
  refine ⟨numeric.trans ?_, starts⟩
  have most : magnitude mantissa exponent < 10 ^ 21 := by
    have unit_le : (2 : ℚ) ^ exponent ≤ 2 ^ (-1 : Int) := zpow_le_zpow_right₀ (by norm_num) (by omega)
    have bits : (mantissa : ℚ) ≤ 2 ^ 53 := by exact_mod_cast normal.bits.le
    calc magnitude mantissa exponent ≤ 2 ^ 53 * 2 ^ (-1 : Int) := by
          rw [magnitude]
          gcongr
      _ < 10 ^ 21 := by norm_num
  rw [neg_three_le_point_iff normal some_mantissa, Moderate]
  have nonzero := (magnitude_pos some_mantissa exponent).ne'
  have inside := point_le_of_fraction normal some_mantissa down
  simp [nonzero, inside, most]

theorem isNumeric_doubleText_iff (normal : mantissa = 0 ∨ Normal mantissa exponent) :
    let text := (doubleText (finite false mantissa exponent)).toList
    (isNumeric text = true ↔ Moderate (magnitude mantissa exponent)) ∧ Starts text := by
  rw [doubleText]
  cases whole : (finite false mantissa exponent).toInt? with
  | some integer =>
    obtain ⟨nonneg, value⟩ := toInt?_eq_some whole
    obtain ⟨natural, rfl⟩ := Int.eq_ofNat_of_zero_le nonneg
    rw [Int.cast_natCast] at value
    have text : signedText (decide ((natural : Int) < 0)) natural = decimalText natural := by
      simp [signedText]
    dsimp only
    rw [Int.natAbs_natCast, Nat.pow_eq, text, ← value]
    exact isNumeric_integer_iff normal value
  | none =>
    obtain ⟨down, some_mantissa⟩ := neg_of_toInt?_eq_none whole
    exact isNumeric_fraction_iff (normal.resolve_left some_mantissa.ne') some_mantissa down

end Binary64

end ApiSections.Number
