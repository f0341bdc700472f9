import ApiSections.TypeText.Literal
import Mathlib.Data.List.TakeWhile

/-!
Texts in plain digits, which are the literal types that widen to that of a number.
-/

namespace ApiSections.TypeText

structure IsDigits (text : List Char) : Prop where
  nonempty : text ≠ []
  digits : ∀ c ∈ text, Text.isDigit c = true

/-- A fraction behind its point. -/
inductive IsFraction : List Char → Prop where
  | none : IsFraction []
  | some {digits : List Char} (is : IsDigits digits) : IsFraction ('.' :: digits)

section Numeric

variable {text whole fraction rest : List Char} {c : Char}

theorem IsDigits.append (left : IsDigits whole) (right : ∀ c ∈ rest, Text.isDigit c = true) :
    IsDigits (whole ++ rest) := by
  refine ⟨by simp [left.nonempty], ?_⟩
  intro c member
  rcases List.mem_append.mp member with member | member
  · exact left.digits c member
  · exact right c member

theorem isDigits_takeWhile (some_digits : (text.takeWhile Text.isDigit).isEmpty = false) :
    IsDigits (text.takeWhile Text.isDigit) :=
  ⟨by simpa using some_digits, fun _ => List.mem_takeWhile_imp⟩

/-- A run of characters of one kind is cut off where the next one is of another. -/
theorem split_run {p : Char → Bool} (run : ∀ c ∈ whole, p c = true)
    (stops : ∀ c ∈ rest.head?, p c = false) :
    (whole ++ rest).takeWhile p = whole ∧ (whole ++ rest).dropWhile p = rest := by
  rw [List.takeWhile_append_of_pos run, List.dropWhile_append_of_pos run]
  cases rest with
  | nil => simp
  | cons c rest => simp [stops c rfl]

theorem isNumeric_neg (text : List Char) (unsigned : text.head? ≠ some '-') :
    isNumeric ('-' :: text) = isNumeric text := by
  rw [isNumeric.eq_1, isNumeric.eq_2]
  rintro rest rfl
  exact unsigned rfl

/-- A text in plain digits has a fraction at most, and a line feed at its end. -/
theorem isNumeric_iff (unsigned : text.head? ≠ some '-') :
    isNumeric text = true ↔ ∃ whole fraction ending, text = whole ++ (fraction ++ ending) ∧
      IsDigits whole ∧ IsFraction fraction ∧ (ending = [] ∨ ending = ['\n']) := by
  rw [isNumeric.eq_2 text fun rest same => unsigned (by rw [same]; rfl)]
  dsimp only
  constructor
  · intro numeric
    simp only [Bool.and_eq_true, Bool.or_eq_true, Bool.not_eq_true', beq_iff_eq] at numeric
    obtain ⟨some_digits, after⟩ := numeric
    refine ⟨text.takeWhile Text.isDigit, ?_⟩
    rcases after with ends | pointed
    · refine ⟨[], text.dropWhile Text.isDigit, by simp, isDigits_takeWhile some_digits, .none, ends⟩
    · split at pointed
      · rename_i fraction after
        simp only [Bool.and_eq_true, Bool.or_eq_true, Bool.not_eq_true', beq_iff_eq] at pointed
        refine ⟨'.' :: fraction.takeWhile Text.isDigit, fraction.dropWhile Text.isDigit, ?_,
          isDigits_takeWhile some_digits, .some (isDigits_takeWhile pointed.1), pointed.2⟩
        rw [List.cons_append, List.takeWhile_append_dropWhile, ← after, List.takeWhile_append_dropWhile]
      · cases pointed
  · rintro ⟨whole, fraction, ending, rfl, is, isFraction, ends⟩
    have stops : ∀ c ∈ ending.head?, Text.isDigit c = false := by
      rcases ends with rfl | rfl
      · simp
      · simp only [List.head?_cons, Option.mem_some_iff, forall_eq']
        decide
    cases isFraction with
    | none =>
      rw [List.nil_append]
      obtain ⟨before, after⟩ := split_run is.digits stops
      rw [before, after]
      rcases ends with rfl | rfl <;> simp [is.nonempty]
    | @some digits behind =>
      have point : ∀ c ∈ ('.' :: (digits ++ ending)).head?, Text.isDigit c = false := by
        simp only [List.head?_cons, Option.mem_some_iff, forall_eq']
        decide
      rw [List.cons_append]
      obtain ⟨before, after⟩ := split_run is.digits point
      obtain ⟨before', after'⟩ := split_run behind.digits stops
      rw [before, after]
      simp only [before', after']
      rcases ends with rfl | rfl <;> simp [is.nonempty, behind.nonempty]

/-- No other character stands in a text of plain digits. -/
theorem not_isNumeric_of_mem (member : c ∈ text) (unsigned : text.head? ≠ some '-')
    (other : Text.isDigit c = false ∧ c ≠ '.' ∧ c ≠ '\n') : isNumeric text = false := by
  rw [← Bool.not_eq_true, isNumeric_iff unsigned]
  rintro ⟨whole, fraction, ending, rfl, is, isFraction, ends⟩
  obtain ⟨notDigit, notPoint, notFeed⟩ := other
  have excluded {digits : List Char} (is : IsDigits digits) : c ∉ digits := by
    intro member
    rw [is.digits c member] at notDigit
    cases notDigit
  simp only [List.mem_append] at member
  rcases member with member | member | member
  · exact excluded is member
  · cases isFraction with
    | none => cases member
    | some behind => exact excluded behind ((List.mem_cons.mp member).resolve_left notPoint)
  · rcases ends with rfl | rfl
    · cases member
    · exact notFeed (List.mem_singleton.mp member)

/-- Only a text in plain digits is widened to a number. -/
theorem widen_eq_number_iff {type : String} (other : type ≠ "number") :
    widen type = "number" ↔ isNumeric type.toList = true := by
  rw [widen]
  split
  · rename_i literal
    simp only [Bool.or_eq_true, beq_iff_eq] at literal
    refine iff_of_false (by decide) ?_
    rcases literal with rfl | rfl <;> decide
  · split
    · rename_i quoted
      rw [Bool.and_eq_true, beq_iff_eq, beq_iff_eq] at quoted
      refine iff_of_false (by decide) ?_
      have starts : type.toList.head? ≠ some '-' := by
        rw [quoted.1]
        decide
      rw [not_isNumeric_of_mem (List.mem_of_head? quoted.1) starts (by decide)]
      exact Bool.false_ne_true
    · split
      · exact iff_of_true rfl ‹_›
      · exact iff_of_false other ‹_›

theorem widen_quoted {type : String} (opens : type.toList.head? = some '"')
    (closes : type.toList.getLast? = some '"') : widen type = "string" := by
  have other : ¬ (type == "true" || type == "false") = true := by
    rw [Bool.or_eq_true, beq_iff_eq, beq_iff_eq]
    rintro (rfl | rfl)
    · revert opens
      decide
    · revert opens
      decide
  rw [widen, if_neg other, if_pos]
  rw [opens, closes]
  rfl

end Numeric

end ApiSections.TypeText
