import ApiSections.Proofs.Document.Heading
import ApiSections.Proofs.Document.Splicing

/-!
Where a region ends: at the first heading outside fenced code that is not too deep, or else with the
text. The scan for it only has to know how many fences it has passed.
-/

namespace ApiSections.Document

open Text

theorem endsRegion_iff {level : Int} {line : List Char} :
    endsRegion level line = true ↔ ∃ depth, IsHeading depth line ∧ (depth : Int) ≤ level := by
  rw [endsRegion]
  cases heading : headingLevel? line with
  | none =>
    simp only [Bool.false_eq_true, false_iff]
    rintro ⟨depth, heads, _⟩
    rw [headingLevel?_eq_some_iff.mpr heads] at heading
    cases heading
  | some depth =>
    simp only [decide_eq_true_eq]
    constructor
    · intro shallow
      exact ⟨depth, headingLevel?_eq_some_iff.mp heading, shallow⟩
    · rintro ⟨other, heads, shallow⟩
      rw [headingLevel?_eq_some_iff.mpr heads] at heading
      cases heading
      exact shallow

theorem ne_nil_of_endsRegion {level : Int} {line : List Char}
    (ends : endsRegion level line = true) : line ≠ [] := by
  rintro rfl
  cases ends

/-- A region ends in front of `line` if the scan reaches it: the line is a heading of depth at most
`level`, and the fences in `first`, counted on from `fenced`, are paired. -/
structure Stops (level : Int) (fenced : Bool) (first : List (List Char)) (line : List Char) :
    Prop where
  other : isFenceLine line = false
  paired : (first.countP isFenceLine + fenced.toNat) % 2 = 0
  ends : endsRegion level line = true

section Scan

variable {level : Int} {fenced : Bool} {first : List (List Char)} {row line : List Char}

theorem stops_nil : Stops level fenced [] line ↔
    isFenceLine line = false ∧ fenced = false ∧ endsRegion level line = true := by
  constructor
  · rintro ⟨other, paired, ends⟩
    refine ⟨other, ?_, ends⟩
    cases fenced with
    | false => rfl
    | true => simp at paired
  · rintro ⟨other, rfl, ends⟩
    exact ⟨other, rfl, ends⟩

theorem stops_cons : Stops level fenced (row :: first) line ↔
    Stops level (fenced ^^ isFenceLine row) first line := by
  have parity : ((row :: first).countP isFenceLine + fenced.toNat) % 2 = 0 ↔
      (first.countP isFenceLine + (fenced ^^ isFenceLine row).toNat) % 2 = 0 := by
    rw [List.countP_cons]
    cases fenced <;> cases isFenceLine row <;> grind
  constructor
  · rintro ⟨other, paired, ends⟩
    exact ⟨other, parity.mp paired, ends⟩
  · rintro ⟨other, paired, ends⟩
    exact ⟨other, parity.mpr paired, ends⟩

theorem boundaryAfter_of_stops (stops : Stops level fenced [] row) (rows : List (List Char)) :
    boundaryAfter level fenced (row :: rows) = 0 := by
  obtain ⟨other, rfl, ends⟩ := stops_nil.mp stops
  rw [boundaryAfter, other, ends]
  rfl

theorem boundaryAfter_of_passes (passes : ¬ Stops level fenced [] row) (rows : List (List Char)) :
    boundaryAfter level fenced (row :: rows) =
      row.length + boundaryAfter level (fenced ^^ isFenceLine row) rows := by
  rw [boundaryAfter]
  by_cases fence : isFenceLine row = true
  · simp [fence]
  · have other : isFenceLine row = false := by simpa using fence
    have open_ : (!fenced && endsRegion level row) = false := by
      by_contra ends
      rw [Bool.not_eq_false, Bool.and_eq_true, Bool.not_eq_true'] at ends
      exact passes (stops_nil.mpr ⟨other, ends.1, ends.2⟩)
    simp [other, open_]

/-- The scan ends in front of a line that stops it, or not before the last line. -/
theorem boundaryAfter_split (level : Int) (fenced : Bool) (rows : List (List Char)) :
    ∃ first second, rows = first ++ second ∧
      boundaryAfter level fenced rows = first.flatten.length ∧
      ∀ row ∈ second.head?, Stops level fenced first row := by
  induction rows generalizing fenced with
  | nil => exact ⟨[], [], rfl, rfl, by simp⟩
  | cons row rows ih =>
    by_cases stops : Stops level fenced [] row
    · exact ⟨[], row :: rows, rfl, boundaryAfter_of_stops stops rows, by simpa using stops⟩
    · obtain ⟨first, second, rfl, count, stop⟩ := ih (fenced ^^ isFenceLine row)
      refine ⟨row :: first, second, rfl, ?_, fun line head => stops_cons.mpr (stop line head)⟩
      rw [boundaryAfter_of_passes stops, count, List.flatten_cons, List.length_append]

theorem boundaryAfter_le_of_stops (stops : Stops level fenced first line)
    (second : List (List Char)) :
    boundaryAfter level fenced (first ++ line :: second) ≤ first.flatten.length := by
  induction first generalizing fenced with
  | nil => exact Nat.le_of_eq (boundaryAfter_of_stops stops second)
  | cons row first ih =>
    rw [List.cons_append, List.flatten_cons, List.length_append]
    by_cases here : Stops level fenced [] row
    · rw [boundaryAfter_of_stops here]
      exact Nat.zero_le _
    · have later := ih (stops_cons.mp stops)
      rw [boundaryAfter_of_passes here]
      omega

end Scan

/-- A region below `start` may end at an offset: a heading line of depth at most `maxLevel` starts
there, and the lines between have an even number of fences. -/
def MayEnd (text : List Char) (start : Nat) (maxLevel : Int) (offset : Nat) : Prop :=
  ∃ before line after, lines (text.drop start) = before ++ line :: after ∧
    offset = start + before.flatten.length ∧
    (∃ depth, IsHeading depth line ∧ (depth : Int) ≤ maxLevel) ∧
    isFenceLine line = false ∧ before.countP isFenceLine % 2 = 0

section Boundary

variable {text : List Char} {start offset : Nat} {maxLevel : Int}

theorem mayEnd_iff : MayEnd text start maxLevel offset ↔
    ∃ before line after, lines (text.drop start) = before ++ line :: after ∧
      offset = start + before.flatten.length ∧ Stops maxLevel false before line := by
  constructor
  · rintro ⟨before, line, after, split, place, heads, other, even⟩
    exact ⟨before, line, after, split, place, other, even, endsRegion_iff.mpr heads⟩
  · rintro ⟨before, line, after, split, place, other, even, ends⟩
    exact ⟨before, line, after, split, place, endsRegion_iff.mp ends, other, even⟩

theorem MayEnd.mono {higher : Int} (ends : MayEnd text start maxLevel offset)
    (above : maxLevel ≤ higher) : MayEnd text start higher offset := by
  obtain ⟨before, line, after, split, place, ⟨depth, heads, shallow⟩, outside⟩ := ends
  exact ⟨before, line, after, split, place, ⟨depth, heads, Int.le_trans shallow above⟩, outside⟩

theorem MayEnd.offset_lt (ends : MayEnd text start maxLevel offset) : offset < text.length := by
  obtain ⟨before, line, after, split, rfl, stops⟩ := mayEnd_iff.mp ends
  have some_line := List.length_pos_iff.mpr (ne_nil_of_endsRegion stops.ends)
  have size := congrArg (fun rows => rows.flatten.length) split
  simp only [flatten_lines, List.length_drop, List.flatten_append, List.flatten_cons,
    List.length_append] at size
  omega

theorem headingBoundary_le_of_mayEnd (ends : MayEnd text start maxLevel offset) :
    headingBoundary text start maxLevel ≤ offset := by
  obtain ⟨before, line, after, split, rfl, stops⟩ := mayEnd_iff.mp ends
  have bound := boundaryAfter_le_of_stops stops after
  rw [headingBoundary, split]
  omega

theorem headingBoundary_cases (text : List Char) (start : Nat) (maxLevel : Int) :
    MayEnd text start maxLevel (headingBoundary text start maxLevel) ∨
      headingBoundary text start maxLevel = text.length := by
  obtain ⟨before, rest, split, count, stop⟩ :=
    boundaryAfter_split maxLevel false (lines (text.drop start))
  have size := congrArg (fun rows => rows.flatten.length) split
  simp only [flatten_lines, List.length_drop] at size
  cases rest with
  | nil =>
    right
    rw [List.append_nil] at size
    rw [headingBoundary, count]
    omega
  | cons line after =>
    left
    have stops := stop line rfl
    have some_line := List.length_pos_iff.mpr (ne_nil_of_endsRegion stops.ends)
    simp only [List.flatten_append, List.flatten_cons, List.length_append] at size
    refine mayEnd_iff.mpr ⟨before, line, after, split, ?_, stops⟩
    rw [headingBoundary, count]
    omega

end Boundary

/-- A region ends at the least offset at which it may end, and with the text if there is none. So it
ends the earlier the deeper the headings are that end it. -/
theorem headingBoundary_least (text : List Char) (start : Nat) (maxLevel : Int) :
    (∀ offset, MayEnd text start maxLevel offset → headingBoundary text start maxLevel ≤ offset) ∧
    (MayEnd text start maxLevel (headingBoundary text start maxLevel) ∨
      headingBoundary text start maxLevel = text.length ∧
        ∀ offset, ¬ MayEnd text start maxLevel offset) ∧
    ∀ lower ≤ maxLevel,
      headingBoundary text start maxLevel ≤ headingBoundary text start lower := by
  have least : ∀ offset, MayEnd text start maxLevel offset →
      headingBoundary text start maxLevel ≤ offset := fun _ => headingBoundary_le_of_mayEnd
  refine ⟨least, ?_, ?_⟩
  · by_cases some_end : ∃ offset, MayEnd text start maxLevel offset
    · left
      rcases headingBoundary_cases text start maxLevel with here | last
      · exact here
      · -- What may end the region lies inside the text, so the scan cannot have reached its end.
        obtain ⟨offset, ends⟩ := some_end
        have before := least offset ends
        have inside := ends.offset_lt
        omega
    · have none : ∀ offset, ¬ MayEnd text start maxLevel offset := not_exists.mp some_end
      exact .inr ⟨(headingBoundary_cases text start maxLevel).resolve_left (none _), none⟩
  · intro lower below
    rcases headingBoundary_cases text start lower with here | last
    · exact least _ (here.mono below)
    · rw [last]
      exact headingBoundary_le text start maxLevel

end ApiSections.Document
