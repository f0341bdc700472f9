import ApiSections.Proofs.Number.Spelling
import ApiSections.Proofs.Text.Pieces
import ApiSections.Syntax.Scanner

/-!
Numeric literals that are shown in plain digits: integers in any base, and decimals whose double is
written so. Every text that is scanned as a number starts as one, and so does what is shown of it.
-/

namespace ApiSections.Number

open TypeText

/-- A visible character of ASCII. -/
def isGraphic (c : Char) : Bool := 32 < c.toNat && c.toNat < 127

/-- A visible text that starts as a number does. -/
structure IsNumeral (text : List Char) : Prop where
  starts : ∃ c ∈ text.head?, c.isDigit = true ∨ c = '.'
  graphic : text.all isGraphic = true

/-- A number without the marks between its digits. -/
def unmarked (text : List Char) : List Char := text.filter (· != '_')

section Numerals

variable {text : List Char}

theorem IsNumeral.begins (numeral : IsNumeral text) : Starts text := by
  obtain ⟨c, first, digit | point⟩ := numeral.starts
  · exact ⟨c, first, .inl (isDigit_of_ascii digit)⟩
  · exact ⟨c, first, .inr (.inl point)⟩

theorem IsNumeral.bounds {c : Char} (numeral : IsNumeral text) (member : c ∈ text) :
    32 < c.toNat ∧ c.toNat < 127 := by
  have graphic := List.all_eq_true.mp numeral.graphic c member
  simpa [isGraphic] using graphic

theorem IsNumeral.unmarked (numeral : IsNumeral text) : IsNumeral (unmarked text) := by
  obtain ⟨⟨c, first, start⟩, graphic⟩ := numeral
  refine ⟨?_, List.all_eq_true.mpr fun c member =>
    List.all_eq_true.mp graphic c (List.mem_of_mem_filter member)⟩
  obtain ⟨rest, rfl⟩ := List.head?_eq_some_iff.mp first
  have kept : c ≠ '_' := by
    rintro rfl
    revert start
    decide
  refine ⟨c, ?_, start⟩
  simp [Number.unmarked, kept]

/-- There are no blanks to be stripped. -/
theorem IsNumeral.bare_eq (numeral : IsNumeral text) : bare text = text := by
  have same : text.map plainChar = text := by
    have each : ∀ c ∈ text, plainChar c = c := by
      intro c member
      rw [plainChar, if_pos (numeral.bounds member).2]
    rw [List.map_congr_left each, List.map_id']
  have spaced : ∀ c ∈ text, isSpace c = false := by
    intro c member
    have low := (numeral.bounds member).1
    simp only [isSpace, Bool.or_eq_false_iff, beq_eq_false_iff_ne, Bool.and_eq_false_iff,
      decide_eq_false_iff_not]
    refine ⟨?_, by omega⟩
    rintro rfl
    revert low
    decide
  have front : text.dropWhile isSpace = text := by
    cases text with
    | nil => rfl
    | cons c rest => simp [spaced c List.mem_cons_self]
  rw [bare, same, front, Text.dropTail_eq_rdropWhile, List.rdropWhile_eq_self_iff]
  intro nonempty
  simp [spaced _ (List.getLast_mem nonempty)]

theorem IsNumeral.splitSign_eq (numeral : IsNumeral text) : splitSign text = (false, text) := by
  obtain ⟨c, first, start⟩ := numeral.starts
  obtain ⟨rest, rfl⟩ := List.head?_eq_some_iff.mp first
  rw [splitSign]
  · rintro _ same
    cases same
    revert start
    decide
  · rintro _ same
    cases same
    revert start
    decide

theorem integerText?_eq (numeral : IsNumeral text) :
    integerText? text = ((readNatural text).filter (· < 10 ^ maxDigits)).map decimalText := by
  rw [integerText?, numeral.bare_eq, numeral.splitSign_eq]
  dsimp only
  cases readNatural text with
  | none => rfl
  | some value =>
    have fits : (Nat.toDigits 10 value).length ≤ maxDigits ↔ value < 10 ^ maxDigits :=
      Nat.length_toDigits_le_iff (by decide) (by decide)
    have unsigned : signedText false value = decimalText value := by simp [signedText]
    dsimp only
    rw [unsigned, Option.filter_some]
    by_cases short : value < 10 ^ maxDigits
    · rw [if_pos (fits.mpr short), if_pos (decide_eq_true short)]
      rfl
    · rw [if_neg (mt fits.mp short), if_neg (by rwa [decide_eq_true_eq])]
      rfl

theorem toLower_of_isDigit {c : Char} (digit : c.isDigit = true) : c.toLower = c := by
  delta Char.toLower
  rw [dif_neg]
  rintro ⟨letter, _⟩
  rw [Char.isDigit, Bool.and_eq_true, decide_eq_true_eq, decide_eq_true_eq] at digit
  exact absurd (UInt32.le_trans letter digit.2) (by decide)

/-- A numeral is no word for an infinity. -/
theorem readBinary64_eq (numeral : IsNumeral text) :
    readBinary64 text = (readDecimal text).map fun (digits, power) =>
      .ofDecimal false digits power := by
  obtain ⟨c, first, start⟩ := numeral.starts
  have initial : c.toLower ≠ 'i' ∧ c.toLower ≠ 'n' := by
    rcases start with digit | rfl
    · rw [toLower_of_isDigit digit]
      constructor
      · rintro rfl
        cases digit
      · rintro rfl
        cases digit
    · decide
  have other (word : String) (letter : word.toList.head? = some 'i' ∨ word.toList.head? = some 'n') :
      String.ofList (text.map Char.toLower) ≠ word := by
    rintro rfl
    rw [String.toList_ofList, List.head?_map, Option.mem_def.mp first, Option.map_some,
      Option.some.injEq, Option.some.injEq] at letter
    exact letter.elim initial.1 initial.2
  rw [readBinary64, numeral.bare_eq, numeral.splitSign_eq]
  dsimp only
  split
  · rename_i same
    exact absurd same (other _ (by decide))
  · rename_i same
    exact absurd same (other _ (by decide))
  · rename_i same
    exact absurd same (other _ (by decide))
  · rfl

theorem ascii_of_isDigit {c : Char} (digit : Text.isDigit c = true) (low : c.toNat < 127) :
    c.isDigit = true := by
  rw [Text.isDigit, Text.digitValue?] at digit
  by_contra other
  rw [if_neg other, if_pos (by omega)] at digit
  cases digit

theorem digitOf?_lt {c : Char} (digit : c.isDigit = true) : ∃ value < 10, digitOf? c = some value := by
  refine ⟨c.toNat - 48, ?_, by rw [digitOf?, if_pos digit]⟩
  rw [Char.isDigit, Bool.and_eq_true, decide_eq_true_eq, decide_eq_true_eq] at digit
  have most : c.toNat ≤ 57 := UInt32.le_iff_toNat_le.mp digit.2
  omega

theorem exists_readDigitsFrom (value : Nat) {digits : List Char}
    (ascii : ∀ c ∈ digits, c.isDigit = true) : ∃ read, readDigitsFrom 10 value digits = some read := by
  induction digits generalizing value with
  | nil => exact ⟨value, rfl⟩
  | cons c digits ih =>
    obtain ⟨digit, small, same⟩ := digitOf?_lt (ascii c List.mem_cons_self)
    rw [readDigitsFrom, same]
    dsimp only
    rw [if_pos small]
    exact ih _ fun d member => ascii d (List.mem_cons_of_mem _ member)

theorem exists_readDigits {digits : List Char} (nonempty : digits ≠ [])
    (ascii : ∀ c ∈ digits, c.isDigit = true) : ∃ value, readDigits 10 digits = some value := by
  cases digits with
  | nil => exact absurd rfl nonempty
  | cons c digits => exact exists_readDigitsFrom 0 ascii

/-- A numeral in plain digits is a decimal. -/
theorem exists_readDecimal (numeral : IsNumeral text) (numeric : isNumeric text = true) :
    ∃ read, readDecimal text = some read := by
  obtain ⟨whole, fraction, ending, rfl, is, isFraction, ends⟩ :=
    (isNumeric_iff numeral.begins.unsigned).mp numeric
  have none : ending = [] := by
    rcases ends with rfl | rfl
    · rfl
    · exact absurd (numeral.bounds (c := '\n') (by simp)) (by decide)
  subst none
  rw [List.append_nil] at numeral ⊢
  have ascii {digits : List Char} (is : IsDigits digits) (inside : ∀ c ∈ digits, c ∈ whole ++ fraction) :
      ∀ c ∈ digits, c.isDigit = true := fun c member =>
    ascii_of_isDigit (is.digits c member) (numeral.bounds (inside c member)).2
  have front := ascii is fun c member => List.mem_append_left _ member
  rw [readDecimal]
  dsimp only
  cases isFraction with
  | none =>
    have ended : ∀ c ∈ ([] : List Char).head?, c.isDigit = false := by simp
    obtain ⟨before, after⟩ := split_run front ended
    obtain ⟨value, read⟩ := exists_readDigits is.nonempty front
    rw [before, after]
    dsimp only
    rw [List.append_nil, read]
    exact ⟨_, rfl⟩
  | @some digits behind =>
    have back := ascii behind fun c member => List.mem_append_right _ (List.mem_cons_of_mem _ member)
    have point : ∀ c ∈ ('.' :: digits).head?, c.isDigit = false := by
      simp only [List.head?_cons, Option.mem_some_iff, forall_eq']
      decide
    obtain ⟨before, after⟩ := split_run front point
    have inside : digits.takeWhile Char.isDigit = digits ∧ digits.dropWhile Char.isDigit = [] := by
      rw [List.takeWhile_eq_self_iff, List.dropWhile_eq_nil_iff]
      exact ⟨back, back⟩
    have both : ∀ c ∈ whole ++ digits, c.isDigit = true :=
      fun c member => (List.mem_append.mp member).elim (front c) (back c)
    obtain ⟨value, read⟩ := exists_readDigits (by simp [is.nonempty]) both
    rw [before, after]
    simp only [inside.1, inside.2, read]
    exact ⟨_, rfl⟩

/-- An integer of not too many digits in any base, or a decimal whose double is moderate. -/
def IsOrdinary (text : List Char) : Prop :=
  (∃ value, readNatural (unmarked text) = some value ∧ value < 10 ^ maxDigits) ∨
    ∃ digits power mantissa exponent, readDecimal (unmarked text) = some (digits, power) ∧
      Binary64.ofDecimal false digits power = .finite false mantissa exponent ∧
      Binary64.Moderate (Binary64.magnitude mantissa exponent)

/-- A literal is shown as an integer, else as a double, else as it is. -/
theorem literalText_eq {raw : String} (numeral : IsNumeral raw.toList) :
    literalText raw = match (readNatural (unmarked raw.toList)).filter (· < 10 ^ maxDigits) with
      | some value => decimalText value
      | none => match readDecimal (unmarked raw.toList) with
        | some (digits, power) => doubleText (.ofDecimal false digits power)
        | none => raw := by
  have same : raw.toList.filter (· != '_') = unmarked raw.toList := rfl
  rw [literalText, same, integerText?_eq numeral.unmarked, readBinary64_eq numeral.unmarked]
  cases (readNatural (unmarked raw.toList)).filter (· < 10 ^ maxDigits) with
  | some value => rfl
  | none =>
    cases readDecimal (unmarked raw.toList) with
    | some read => rfl
    | none => rfl

/-- A literal that is no decimal is not in plain digits. -/
theorem not_isNumeric_of_unread (numeral : IsNumeral text)
    (unread : readDecimal (unmarked text) = none) : isNumeric text = false := by
  rw [← Bool.not_eq_true]
  intro numeric
  have free : unmarked text = text := by
    rw [unmarked, List.filter_eq_self]
    intro c member
    rw [bne_iff_ne]
    rintro rfl
    rw [not_isNumeric_of_mem member numeral.begins.unsigned (by decide)] at numeric
    cases numeric
  obtain ⟨read, same⟩ := exists_readDecimal numeral numeric
  rw [free, same] at unread
  cases unread

theorem isNumeric_ofDecimal_iff (digits : Nat) (power : Int) :
    let text := (doubleText (.ofDecimal false digits power)).toList
    (isNumeric text = true ↔ ∃ mantissa exponent,
      Binary64.ofDecimal false digits power = .finite false mantissa exponent ∧
      Binary64.Moderate (Binary64.magnitude mantissa exponent)) ∧ Starts text := by
  rcases Binary64.ofDecimal_cases false digits power with same | ⟨mantissa, exponent, same, normal⟩
  · rw [same]
    have shown : doubleText (.infinite false) = "inf" := rfl
    rw [shown]
    refine ⟨iff_of_false (by decide) ?_, 'i', rfl, .inr (.inr rfl)⟩
    rintro ⟨_, _, finite, _⟩
    cases finite
  · rw [same]
    obtain ⟨numeric, starts⟩ := Binary64.isNumeric_doubleText_iff normal
    refine ⟨numeric.trans ⟨fun moderate => ⟨mantissa, exponent, rfl, moderate⟩, ?_⟩, starts⟩
    rintro ⟨_, _, finite, moderate⟩
    cases finite
    exact moderate

/-- A numeric literal is shown in plain digits iff it is ordinary. -/
theorem isNumeric_literalText_iff {raw : String} (numeral : IsNumeral raw.toList) :
    (isNumeric (literalText raw).toList = true ↔ IsOrdinary raw.toList) ∧
      Starts (literalText raw).toList := by
  rw [literalText_eq numeral, IsOrdinary]
  cases integer : (readNatural (unmarked raw.toList)).filter (· < 10 ^ maxDigits) with
  | some value =>
    rw [Option.filter_eq_some_iff, decide_eq_true_eq] at integer
    dsimp only
    rw [decimalText, String.toList_ofList]
    obtain ⟨numeric, starts⟩ := (IsPlain.digits (isDigits_toDigits value)).isNumeric
    exact ⟨iff_of_true numeric (.inl ⟨value, integer⟩), starts⟩
  | none =>
    have notInteger : ¬ ∃ value, readNatural (unmarked raw.toList) = some value ∧
        value < 10 ^ maxDigits := by
      rintro ⟨value, read, small⟩
      rw [read, Option.filter_some, if_pos (decide_eq_true small)] at integer
      cases integer
    dsimp only
    rw [or_iff_right notInteger]
    cases decimal : readDecimal (unmarked raw.toList) with
    | some read =>
      obtain ⟨digits, power⟩ := read
      obtain ⟨numeric, starts⟩ := isNumeric_ofDecimal_iff digits power
      refine ⟨numeric.trans ⟨?_, ?_⟩, starts⟩
      · rintro ⟨mantissa, exponent, same, moderate⟩
        exact ⟨digits, power, mantissa, exponent, rfl, same, moderate⟩
      · rintro ⟨_, _, mantissa, exponent, same_read, same, moderate⟩
        cases same_read
        exact ⟨mantissa, exponent, same, moderate⟩
    | none =>
      dsimp only
      refine ⟨iff_of_false ?_ ?_, numeral.begins⟩
      · rw [not_isNumeric_of_unread numeral decimal]
        exact Bool.false_ne_true
      · rintro ⟨_, _, _, _, read, _⟩
        cases read

end Numerals

section Scanned

open Syntax

variable {text : List Char}

theorem isGraphic_of_isDigit {c : Char} (digit : c.isDigit = true) : isGraphic c = true := by
  rw [Char.isDigit, Bool.and_eq_true, decide_eq_true_eq, decide_eq_true_eq] at digit
  have least : 48 ≤ c.toNat := UInt32.le_iff_toNat_le.mp digit.1
  have most : c.toNat ≤ 57 := UInt32.le_iff_toNat_le.mp digit.2
  simp only [isGraphic, Bool.and_eq_true, decide_eq_true_eq]
  omega

theorem isGraphic_of_isDecimal {c : Char} (decimal : isDecimal c = true) : isGraphic c = true := by
  rw [isDecimal, Bool.or_eq_true, beq_iff_eq] at decimal
  rcases decimal with digit | rfl
  · exact isGraphic_of_isDigit digit
  · decide

theorem isGraphic_of_isHex {c : Char} (hex : isHex c = true) : isGraphic c = true := by
  simp only [isHex, Bool.or_eq_true, Bool.and_eq_true, decide_eq_true_eq, beq_iff_eq] at hex
  rcases hex with ((digit | lower) | upper) | rfl
  · exact isGraphic_of_isDigit digit
  · have least : 97 ≤ c.toNat := UInt32.le_iff_toNat_le.mp lower.1
    have most : c.toNat ≤ 102 := UInt32.le_iff_toNat_le.mp lower.2
    simp only [isGraphic, Bool.and_eq_true, decide_eq_true_eq]
    omega
  · have least : 65 ≤ c.toNat := UInt32.le_iff_toNat_le.mp upper.1
    have most : c.toNat ≤ 70 := UInt32.le_iff_toNat_le.mp upper.2
    simp only [isGraphic, Bool.and_eq_true, decide_eq_true_eq]
    omega
  · decide

/-- A text is graphic if a run of it and what follows the run are. -/
theorem graphic_of_run {p : Char → Bool} (each : ∀ c, p c = true → isGraphic c = true)
    (after : (text.drop (text.takeWhile p).length).all isGraphic = true) :
    text.all isGraphic = true := by
  have split : text = text.takeWhile p ++ text.drop (text.takeWhile p).length := by
    conv_lhs => rw [← List.take_append_drop (text.takeWhile p).length text]
    rw [← List.prefix_iff_eq_take.mp (List.takeWhile_prefix p)]
  rw [split, List.all_append, after, Bool.and_true, List.all_eq_true]
  exact fun c member => each c (List.mem_takeWhile_imp member)

theorem graphic_of_largeMark (whole : largeMark text = text.length) : text.all isGraphic = true := by
  rw [largeMark] at whole
  split at whole
  · rename_i mark
    obtain ⟨rest, rfl⟩ := List.head?_eq_some_iff.mp (beq_iff_eq.mp mark)
    rw [List.length_cons, eq_comm, Nat.add_eq_right, List.length_eq_zero_iff] at whole
    rw [whole]
    decide
  · rw [eq_comm, List.length_eq_zero_iff] at whole
    rw [whole]
    rfl

theorem graphic_of_isDecimal (whole : (text.takeWhile isDecimal).length = text.length) :
    text.all isGraphic = true := by
  apply graphic_of_run (p := isDecimal) fun _ => isGraphic_of_isDecimal
  rw [whole, List.drop_length]
  rfl

theorem graphic_of_exponentLength (whole : exponentLength text = text.length) :
    text.all isGraphic = true := by
  rw [exponentLength.eq_def] at whole
  split at whole
  · rename_i e rest
    split at whole
    · rename_i mark
      have letter : isGraphic e = true := by
        simp only [Bool.or_eq_true, beq_iff_eq] at mark
        rcases mark with rfl | rfl <;> decide
      rw [List.all_cons, letter, Bool.true_and]
      -- The length of the digits counts only if there are some.
      have counted {digits : List Char} {signs : Nat} (length : rest.length = signs + digits.length)
          (whole : (if ((digits.takeWhile isDecimal).length == 0) = true then 0
            else 1 + signs + (digits.takeWhile isDecimal).length) = (e :: rest).length) :
          digits.all isGraphic = true := by
        apply graphic_of_isDecimal
        rw [List.length_cons] at whole
        split at whole
        · omega
        · omega
      split at whole
      · rename_i pair same
        dsimp only at whole
        split at same
        · cases same
          rw [List.all_cons, show isGraphic '+' = true by decide, Bool.true_and]
          exact counted (by simp [Nat.add_comm]) whole
        · cases same
          rw [List.all_cons, show isGraphic '-' = true by decide, Bool.true_and]
          exact counted (by simp [Nat.add_comm]) whole
        · cases same
          exact counted (by simp) whole
    · simp at whole
  · rfl

theorem graphic_of_fractionLength (whole : fractionLength text = text.length) :
    text.all isGraphic = true := by
  rw [fractionLength.eq_def] at whole
  split at whole
  · rename_i rest
    dsimp only at whole
    rw [List.all_cons, show isGraphic '.' = true by decide, Bool.true_and]
    apply graphic_of_run (p := isDecimal) fun _ => isGraphic_of_isDecimal
    apply graphic_of_exponentLength
    rw [List.length_drop]
    rw [List.length_cons] at whole
    omega
  · exact graphic_of_exponentLength whole

theorem isNumeral_based {mark : Char} {rest : List Char} (letter : isGraphic mark = true)
    (whole : some (basedLength rest) = some ('0' :: mark :: rest).length) :
    IsNumeral ('0' :: mark :: rest) := by
  refine ⟨⟨'0', rfl, .inl (by decide)⟩, ?_⟩
  rw [List.all_cons, List.all_cons, letter, show isGraphic '0' = true by decide]
  apply graphic_of_run (p := isHex) fun _ => isGraphic_of_isHex
  apply graphic_of_largeMark
  rw [basedLength, Option.some.injEq, List.length_cons, List.length_cons] at whole
  rw [List.length_drop]
  omega

/-- What is scanned as a number is a numeral. -/
theorem isNumeral_of_numberLength (whole : numberLength text = some text.length) : IsNumeral text := by
  rw [numberLength.eq_def] at whole
  split at whole
  · exact isNumeral_based (by decide) whole
  · exact isNumeral_based (by decide) whole
  · exact isNumeral_based (by decide) whole
  · exact isNumeral_based (by decide) whole
  · exact isNumeral_based (by decide) whole
  · exact isNumeral_based (by decide) whole
  · split at whole
    · exact ⟨⟨'.', rfl, .inr rfl⟩, graphic_of_fractionLength (Option.some.inj whole)⟩
    · cases whole
  · split at whole
    · rename_i digit
      refine ⟨⟨_, rfl, .inl digit⟩, ?_⟩
      apply graphic_of_run (p := isDecimal) fun _ => isGraphic_of_isDecimal
      rw [Option.some.injEq] at whole
      split at whole
      · rename_i mark
        apply graphic_of_largeMark
        rw [beq_iff_eq.mp mark, List.length_drop]
        omega
      · apply graphic_of_fractionLength
        rw [List.length_drop]
        omega
    · cases whole
  · cases whole

end Scanned

end ApiSections.Number
