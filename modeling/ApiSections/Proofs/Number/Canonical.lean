import ApiSections.Proofs.Number.Numeral

/-!
An integer has one shown form. Below the limit of digits it is shown in its decimal digits, in whatever
base, letter case and grouping it was written, and the shown form is shown as it is.
-/

namespace ApiSections.Number

section Spellings

/-- A digit of a base up to sixteen; a letter may be a capital. -/
def WritesDigit (digit : Nat) (c : Char) : Prop :=
  c = Nat.digitChar digit ∨ c = (Nat.digitChar digit).toUpper

/-- The digits of a number, the most significant one first, with any marks between them. -/
inductive WritesDigits (base : Nat) : Nat → List Char → Prop where
  | one {digit : Nat} {c : Char} (small : digit < base) (writes : WritesDigit digit c) :
      WritesDigits base digit [c]
  | more {value digit : Nat} {text : List Char} {c : Char} (before : WritesDigits base value text)
      (marks : Nat) (small : digit < base) (writes : WritesDigit digit c) :
      WritesDigits base (value * base + digit) (text ++ List.replicate marks '_' ++ [c])

/-- The bases that a letter announces. -/
inductive Radix where
  | hexadecimal
  | octal
  | binary
  deriving Repr, DecidableEq

def Radix.base : Radix → Nat
  | hexadecimal => 16
  | octal => 8
  | binary => 2

def Radix.letter : Radix → Char
  | hexadecimal => 'x'
  | octal => 'o'
  | binary => 'b'

/-- A literal of an integer: decimal digits without a leading zero, or digits behind their base. -/
inductive IsSpelling (value : Nat) : List Char → Prop where
  | decimal {text : List Char} (digits : WritesDigits 10 value text)
      (leading : text = ['0'] ∨ text.head? ≠ some '0') : IsSpelling value text
  | announced {text : List Char} {mark : Char} (radix : Radix)
      (letter : mark = radix.letter ∨ mark = radix.letter.toUpper)
      (digits : WritesDigits radix.base value text) : IsSpelling value ('0' :: mark :: text)

end Spellings

section Digits

variable {base value digit : Nat} {text : List Char} {c : Char}

theorem WritesDigit.of_table {limit : Nat} (holds : Nat → Char → Prop)
    (table : ∀ d : Fin limit, holds d (Nat.digitChar d) ∧ holds d (Nat.digitChar d).toUpper)
    (writes : WritesDigit digit c) (small : digit < limit) : holds digit c := by
  rcases writes with rfl | rfl
  · exact (table ⟨digit, small⟩).1
  · exact (table ⟨digit, small⟩).2

theorem WritesDigit.digitOf? (writes : WritesDigit digit c) (small : digit < 16) :
    digitOf? c = some digit :=
  of_table (fun digit c => Number.digitOf? c = some digit) (by decide) writes small

theorem WritesDigit.isGraphic (writes : WritesDigit digit c) (small : digit < 16) :
    isGraphic c = true :=
  of_table (fun _ c => Number.isGraphic c = true) (by decide) writes small

theorem WritesDigit.isDigit (writes : WritesDigit digit c) (small : digit < 10) : c.isDigit = true :=
  of_table (fun _ c => c.isDigit = true) (by decide) writes small

theorem WritesDigit.ne_mark (writes : WritesDigit digit c) (small : digit < 16) : c ≠ '_' := by
  rintro rfl
  have read := writes.digitOf? small
  cases read

theorem WritesDigit.pos (writes : WritesDigit digit c) (nonzero : c ≠ '0') : 0 < digit := by
  rw [Nat.pos_iff_ne_zero]
  rintro rfl
  rcases writes with rfl | rfl
  · exact nonzero rfl
  · exact nonzero (by decide)

theorem readDigitsFrom_append (base value : Nat) (first second : List Char) :
    readDigitsFrom base value (first ++ second) =
      (readDigitsFrom base value first).bind fun read => readDigitsFrom base read second := by
  induction first generalizing value with
  | nil => rfl
  | cons c first ih =>
    rw [List.cons_append, readDigitsFrom, readDigitsFrom]
    cases digitOf? c with
    | none => rfl
    | some digit =>
      dsimp only
      split
      · exact ih _
      · rfl

theorem unmarked_singleton (kept : c ≠ '_') : unmarked [c] = [c] := by
  simp [unmarked, kept]

theorem unmarked_concat (text : List Char) (marks : Nat) (kept : c ≠ '_') :
    unmarked (text ++ List.replicate marks '_' ++ [c]) = unmarked text ++ [c] := by
  have none : unmarked (List.replicate marks '_') = [] := by
    rw [unmarked, List.filter_replicate_of_neg (by decide)]
  rw [unmarked, List.filter_append, List.filter_append, ← unmarked, ← unmarked, ← unmarked, none,
    unmarked_singleton kept, List.append_nil]

theorem WritesDigits.ne_nil (digits : WritesDigits base value text) : text ≠ [] := by
  cases digits with
  | one small writes => simp
  | more before marks small writes => simp

theorem WritesDigits.head?_append (digits : WritesDigits base value text) (rest : List Char) :
    (text ++ rest).head? = text.head? :=
  List.head?_append_of_ne_nil _ digits.ne_nil

theorem WritesDigits.graphic (digits : WritesDigits base value text) (limit : base ≤ 16) :
    text.all isGraphic = true := by
  induction digits with
  | one small writes => simp [writes.isGraphic (by omega)]
  | more before marks small writes ih =>
    have marked : (List.replicate marks '_').all isGraphic = true := by
      rw [List.all_eq_true]
      intro c member
      rw [List.eq_of_mem_replicate member]
      decide
    simp [ih, marked, writes.isGraphic (by omega)]

theorem WritesDigits.starts (digits : WritesDigits 10 value text) :
    ∃ c ∈ text.head?, c.isDigit = true := by
  induction digits with
  | one small writes => exact ⟨_, rfl, writes.isDigit small⟩
  | more before marks small writes ih =>
    rw [List.append_assoc, before.head?_append]
    exact ih

theorem WritesDigits.readDigitsFrom (digits : WritesDigits base value text) (limit : base ≤ 16) :
    readDigitsFrom base 0 (unmarked text) = some value := by
  induction digits with
  | @one digit c small writes =>
    rw [unmarked_singleton (writes.ne_mark (by omega)), Number.readDigitsFrom,
      writes.digitOf? (by omega)]
    simp [small, Number.readDigitsFrom]
  | @more value digit text c before marks small writes ih =>
    rw [unmarked_concat _ _ (writes.ne_mark (by omega)), readDigitsFrom_append, ih, Option.bind_some,
      Number.readDigitsFrom, writes.digitOf? (by omega)]
    simp [small, Number.readDigitsFrom]

theorem WritesDigits.unmarked_ne_nil (digits : WritesDigits base value text) (limit : base ≤ 16) :
    unmarked text ≠ [] := by
  cases digits with
  | one small writes =>
    rw [unmarked_singleton (writes.ne_mark (by omega))]
    simp
  | more before marks small writes =>
    rw [unmarked_concat _ _ (writes.ne_mark (by omega))]
    simp

theorem WritesDigits.readDigits (digits : WritesDigits base value text) (limit : base ≤ 16) :
    readDigits base (unmarked text) = some value := by
  have read := digits.readDigitsFrom limit
  cases same : unmarked text with
  | nil => exact absurd same (digits.unmarked_ne_nil limit)
  | cons c rest => rwa [same] at read

/-- Without a leading zero there are no more digits than the number needs. -/
theorem WritesDigits.pow_le (digits : WritesDigits base value text) (limit : base ≤ 16)
    (leading : text.head? ≠ some '0') : base ^ (unmarked text).length ≤ value * base := by
  induction digits with
  | @one digit c small writes =>
    have nonzero : c ≠ '0' := by simpa using leading
    rw [unmarked_singleton (writes.ne_mark (by omega)), List.length_singleton, pow_one]
    exact Nat.le_mul_of_pos_left base (writes.pos nonzero)
  | @more value digit text c before marks small writes ih =>
    rw [List.append_assoc, before.head?_append] at leading
    rw [unmarked_concat _ _ (writes.ne_mark (by omega)), List.length_append, List.length_singleton,
      pow_succ]
    calc base ^ (unmarked text).length * base ≤ value * base * base := Nat.mul_le_mul_right _ (ih leading)
      _ ≤ (value * base + digit) * base := Nat.mul_le_mul_right _ (Nat.le_add_right _ _)

theorem WritesDigits.length_le (digits : WritesDigits 10 value text) {limit : Nat}
    (leading : text.head? ≠ some '0') (short : value < 10 ^ limit) :
    (unmarked text).length ≤ limit := by
  have enough := digits.pow_le (by decide) leading
  have most : 10 ^ (unmarked text).length < 10 ^ (limit + 1) :=
    calc 10 ^ (unmarked text).length ≤ value * 10 := enough
      _ < 10 ^ limit * 10 := Nat.mul_lt_mul_of_pos_right short (by decide)
      _ = 10 ^ (limit + 1) := (pow_succ 10 limit).symm
  exact Nat.le_of_lt_succ ((Nat.pow_lt_pow_iff_right (by decide)).mp most)

end Digits

section Reading

variable {value : Nat} {text : List Char}

theorem Radix.base_le (radix : Radix) : radix.base ≤ 16 := by
  cases radix <;> decide

theorem Radix.isGraphic_letter (radix : Radix) {mark : Char}
    (letter : mark = radix.letter ∨ mark = radix.letter.toUpper) :
    isGraphic mark = true ∧ mark ≠ '_' := by
  cases radix with
  | hexadecimal => rcases letter with rfl | rfl <;> decide
  | octal => rcases letter with rfl | rfl <;> decide
  | binary => rcases letter with rfl | rfl <;> decide

theorem Radix.readNatural_eq (radix : Radix) {mark : Char}
    (letter : mark = radix.letter ∨ mark = radix.letter.toUpper) (rest : List Char) :
    readNatural ('0' :: mark :: rest) = readDigits radix.base rest := by
  cases radix with
  | hexadecimal => rcases letter with rfl | rfl <;> rfl
  | octal => rcases letter with rfl | rfl <;> rfl
  | binary => rcases letter with rfl | rfl <;> rfl

theorem readNatural_of_leading (leading : text.head? ≠ some '0') (fits : text.length ≤ maxDigits) :
    readNatural text = readDigits 10 text := by
  rw [readNatural, if_pos fits]
  all_goals
    rintro _ rfl
    exact leading rfl

theorem IsSpelling.isNumeral (spelling : IsSpelling value text) : IsNumeral text := by
  cases spelling with
  | decimal digits leading =>
    obtain ⟨c, first, digit⟩ := digits.starts
    exact ⟨⟨c, first, .inl digit⟩, digits.graphic (by decide)⟩
  | @announced rest mark radix letter digits =>
    have graphic := (radix.isGraphic_letter letter).1
    have zero : isGraphic '0' = true := by decide
    refine ⟨⟨'0', rfl, .inl (by decide)⟩, ?_⟩
    simp [graphic, zero, digits.graphic radix.base_le]

/-- A spelling is read to its number, in each of the four bases. -/
theorem IsSpelling.readNatural (spelling : IsSpelling value text) (short : value < 10 ^ maxDigits) :
    readNatural (unmarked text) = some value := by
  cases spelling with
  | decimal digits leading =>
    -- A lone zero is read by the rule for zeros, all other decimals by that for plain digits.
    rcases leading with rfl | leading
    · have read := digits.readDigitsFrom (by decide)
      have zero : readDigitsFrom 10 0 (unmarked ['0']) = some 0 := by decide
      rw [← Option.some.inj (zero.symm.trans read)]
      decide
    · have first : (unmarked text).head? = text.head? := by
        obtain ⟨c, here, digit⟩ := digits.starts
        obtain ⟨rest, rfl⟩ := List.head?_eq_some_iff.mp here
        have kept : c ≠ '_' := by
          rintro rfl
          cases digit
        simp [unmarked, kept]
      rw [readNatural_of_leading (first ▸ leading) (digits.length_le leading short)]
      exact digits.readDigits (by decide)
  | @announced rest mark radix letter digits =>
    have kept := (radix.isGraphic_letter letter).2
    have free : unmarked ('0' :: mark :: rest) = '0' :: mark :: unmarked rest := by
      simp [unmarked, kept]
    rw [free, radix.readNatural_eq letter]
    exact digits.readDigits radix.base_le

theorem IsSpelling.unique {other : Nat} (first : IsSpelling value text) (second : IsSpelling other text)
    (short : value < 10 ^ maxDigits) (short' : other < 10 ^ maxDigits) : value = other :=
  Option.some.inj ((first.readNatural short).symm.trans (second.readNatural short'))

theorem IsSpelling.literalText {raw : String} (spelling : IsSpelling value raw.toList)
    (short : value < 10 ^ maxDigits) : literalText raw = toString value := by
  rw [literalText_eq spelling.isNumeral, spelling.readNatural short, Option.filter_some,
    if_pos (decide_eq_true short), Nat.toString_eq_ofList_toDigits]
  rfl

end Reading

section Shown

theorem writesDigits_toDigits (value : Nat) : WritesDigits 10 value (Nat.toDigits 10 value) := by
  induction value using Nat.strong_induction_on with
  | _ value ih =>
    by_cases small : value < 10
    · rw [Nat.toDigits_of_lt_base small]
      exact .one small (.inl rfl)
    · rw [Nat.toDigits_of_base_le (by decide) (by omega)]
      have before := ih (value / 10) (by omega)
      have digits := before.more 0 (Nat.mod_lt value (by decide)) (.inl rfl)
      rwa [List.replicate_zero, List.append_nil, Nat.div_add_mod'] at digits

theorem head?_toDigits (value : Nat) (nonzero : value ≠ 0) :
    (Nat.toDigits 10 value).head? ≠ some '0' := by
  induction value using Nat.strong_induction_on with
  | _ value ih =>
    by_cases small : value < 10
    · have table : ∀ d : Fin 10, d.val ≠ 0 → Nat.digitChar d ≠ '0' := by decide
      rw [Nat.toDigits_of_lt_base small]
      simpa using table ⟨value, small⟩ nonzero
    · rw [Nat.toDigits_of_base_le (by decide) (by omega),
        (writesDigits_toDigits (value / 10)).head?_append]
      exact ih (value / 10) (by omega) (by omega)

/-- The decimal digits of a number are a spelling of it. -/
theorem isSpelling_toString (value : Nat) : IsSpelling value (toString value).toList := by
  rw [Nat.toString_eq_ofList_toDigits, String.toList_ofList]
  refine .decimal (writesDigits_toDigits value) ?_
  by_cases zero : value = 0
  · subst zero
    exact .inl rfl
  · exact .inr (head?_toDigits value zero)

/-- Integers are shown in their decimal digits, so alike iff they are equal, and what is shown is shown
as it is. -/
theorem literalText_canonical {value : Nat} {raw : String} (spelling : IsSpelling value raw.toList)
    (short : value < 10 ^ 4300) :
    literalText raw = toString value ∧ literalText (literalText raw) = literalText raw ∧
      ∀ (other : Nat) (text : String), IsSpelling other text.toList → other < 10 ^ 4300 →
        (literalText raw = literalText text ↔ value = other) := by
  rw [← show maxDigits = 4300 from rfl] at short ⊢
  have shown := spelling.literalText short
  refine ⟨shown, ?_, ?_⟩
  · rw [shown]
    exact (isSpelling_toString value).literalText short
  · intro other text spelling' short'
    rw [shown, spelling'.literalText short']
    constructor
    · intro same
      have spelled := isSpelling_toString other
      rw [← same] at spelled
      exact (isSpelling_toString value).unique spelled short short'
    · rintro rfl
      rfl

theorem literalText_canonical_grouped :
    (literalText "0xF_f" = toString 255 ∧ literalText (literalText "0xF_f") = literalText "0xF_f") ∧
      (literalText "0xF_f" = literalText "0B1__1" ↔ 255 = 3) := by
  have short (limit : Nat) (enough : 3 ≤ limit) {value : Nat} (small : value < 10 ^ 3) :
      value < 10 ^ limit := small.trans_le (Nat.pow_le_pow_right (by decide) enough)
  have high : WritesDigits 16 15 ['F'] := .one (by decide) (.inr rfl)
  have low : WritesDigits 2 1 ['1'] := .one (by decide) (.inl rfl)
  have first : IsSpelling 255 "0xF_f".toList :=
    .announced .hexadecimal (.inl rfl) (high.more 1 (show 15 < 16 by decide) (.inl rfl))
  have second : IsSpelling 3 "0B1__1".toList :=
    .announced .binary (.inr rfl) (low.more 2 (show 1 < 2 by decide) (.inl rfl))
  obtain ⟨shown, again, apart⟩ := literalText_canonical first (short 4300 (by decide) (by decide))
  exact ⟨⟨shown, again⟩, apart 3 "0B1__1" second (short 4300 (by decide) (by decide))⟩

end Shown

end ApiSections.Number
